import ClickA.Bus.Depacketizer

/-!
# The CRC of the driver

`crc.c` divides byte by byte, with a table of 256 remainders.

## Main definitions

* `crc16CcittTable`, `crc16Update`: the table, and the update of a CRC with new data

## Main results

* `crc16Update_eq`: the update is the division by the polynomial `0x1021`, and a CRC that follows
  its data leaves no remainder
* `crcValid_iff`: the check of the depacketizer, in terms of the update
-/

namespace ClickA.Driver

open Python (Bytes)
open Stream

/-- `crc16_ccitt_table`. -/
def crc16CcittTable : List (BitVec 16) :=
  [0x0000, 0x1021, 0x2042, 0x3063, 0x4084, 0x50A5, 0x60C6, 0x70E7,
   0x8108, 0x9129, 0xA14A, 0xB16B, 0xC18C, 0xD1AD, 0xE1CE, 0xF1EF,
   0x1231, 0x0210, 0x3273, 0x2252, 0x52B5, 0x4294, 0x72F7, 0x62D6,
   0x9339, 0x8318, 0xB37B, 0xA35A, 0xD3BD, 0xC39C, 0xF3FF, 0xE3DE,
   0x2462, 0x3443, 0x0420, 0x1401, 0x64E6, 0x74C7, 0x44A4, 0x5485,
   0xA56A, 0xB54B, 0x8528, 0x9509, 0xE5EE, 0xF5CF, 0xC5AC, 0xD58D,
   0x3653, 0x2672, 0x1611, 0x0630, 0x76D7, 0x66F6, 0x5695, 0x46B4,
   0xB75B, 0xA77A, 0x9719, 0x8738, 0xF7DF, 0xE7FE, 0xD79D, 0xC7BC,
   0x48C4, 0x58E5, 0x6886, 0x78A7, 0x0840, 0x1861, 0x2802, 0x3823,
   0xC9CC, 0xD9ED, 0xE98E, 0xF9AF, 0x8948, 0x9969, 0xA90A, 0xB92B,
   0x5AF5, 0x4AD4, 0x7AB7, 0x6A96, 0x1A71, 0x0A50, 0x3A33, 0x2A12,
   0xDBFD, 0xCBDC, 0xFBBF, 0xEB9E, 0x9B79, 0x8B58, 0xBB3B, 0xAB1A,
   0x6CA6, 0x7C87, 0x4CE4, 0x5CC5, 0x2C22, 0x3C03, 0x0C60, 0x1C41,
   0xEDAE, 0xFD8F, 0xCDEC, 0xDDCD, 0xAD2A, 0xBD0B, 0x8D68, 0x9D49,
   0x7E97, 0x6EB6, 0x5ED5, 0x4EF4, 0x3E13, 0x2E32, 0x1E51, 0x0E70,
   0xFF9F, 0xEFBE, 0xDFDD, 0xCFFC, 0xBF1B, 0xAF3A, 0x9F59, 0x8F78,
   0x9188, 0x81A9, 0xB1CA, 0xA1EB, 0xD10C, 0xC12D, 0xF14E, 0xE16F,
   0x1080, 0x00A1, 0x30C2, 0x20E3, 0x5004, 0x4025, 0x7046, 0x6067,
   0x83B9, 0x9398, 0xA3FB, 0xB3DA, 0xC33D, 0xD31C, 0xE37F, 0xF35E,
   0x02B1, 0x1290, 0x22F3, 0x32D2, 0x4235, 0x5214, 0x6277, 0x7256,
   0xB5EA, 0xA5CB, 0x95A8, 0x8589, 0xF56E, 0xE54F, 0xD52C, 0xC50D,
   0x34E2, 0x24C3, 0x14A0, 0x0481, 0x7466, 0x6447, 0x5424, 0x4405,
   0xA7DB, 0xB7FA, 0x8799, 0x97B8, 0xE75F, 0xF77E, 0xC71D, 0xD73C,
   0x26D3, 0x36F2, 0x0691, 0x16B0, 0x6657, 0x7676, 0x4615, 0x5634,
   0xD94C, 0xC96D, 0xF90E, 0xE92F, 0x99C8, 0x89E9, 0xB98A, 0xA9AB,
   0x5844, 0x4865, 0x7806, 0x6827, 0x18C0, 0x08E1, 0x3882, 0x28A3,
   0xCB7D, 0xDB5C, 0xEB3F, 0xFB1E, 0x8BF9, 0x9BD8, 0xABBB, 0xBB9A,
   0x4A75, 0x5A54, 0x6A37, 0x7A16, 0x0AF1, 0x1AD0, 0x2AB3, 0x3A92,
   0xFD2E, 0xED0F, 0xDD6C, 0xCD4D, 0xBDAA, 0xAD8B, 0x9DE8, 0x8DC9,
   0x7C26, 0x6C07, 0x5C64, 0x4C45, 0x3CA2, 0x2C83, 0x1CE0, 0x0CC1,
   0xEF1F, 0xFF3E, 0xCF5D, 0xDF7C, 0xAF9B, 0xBFBA, 0x8FD9, 0x9FF8,
   0x6E17, 0x7E36, 0x4E55, 0x5E74, 0x2E93, 0x3EB2, 0x0ED1, 0x1EF0]

/-- The loop body of `crc_16_update`. -/
def crc16Step (crc : BitVec 16) (b : UInt8) : BitVec 16 :=
  let tmp := (crc >>> 8) ^^^ b.toBitVec.setWidth 16
  (crc <<< 8) ^^^ crc16CcittTable.getD tmp.toNat 0

/-- `crc_16_update`. -/
def crc16Update (crc : BitVec 16) (data : Bytes) (len : BitVec 16) : BitVec 16 :=
  (data.take len.toNat).foldl crc16Step crc

/-- The polynomial. -/
def crc16Poly : BitVec 16 := 0x1021

/-- The table holds the remainders of the single bytes. -/
theorem crc16CcittTable_eq :
    crc16CcittTable = (List.range 256).map fun n => crcByte crc16Poly 0 (UInt8.ofNat n) := by
  decide +kernel

theorem getD_crc16CcittTable (b : BitVec 8) :
    crc16CcittTable.getD b.toNat 0 = crcByte crc16Poly 0 (UInt8.ofBitVec b) := by
  have hb : UInt8.ofNat b.toNat = UInt8.ofBitVec b := by
    rw [← UInt8.toBitVec_inj]
    exact BitVec.ofNat_toNat 8 b
  rw [crc16CcittTable_eq, List.getD_eq_getElem?_getD, List.getElem?_map,
    List.getElem?_range b.isLt, Option.map_some, Option.getD_some, hb]

/-- The index is the byte of the data, changed by the byte that the CRC begins with. -/
theorem toNat_index (crc : BitVec 16) (b : UInt8) :
    ((crc >>> 8) ^^^ b.toBitVec.setWidth 16).toNat = (topByte crc ^^^ b.toBitVec).toNat := by
  have hcrc := crc.isLt
  have hb := b.toBitVec.isLt
  have hhigh : crc.toNat >>> 8 < 2 ^ 8 := by
    rw [Nat.shiftRight_eq_div_pow]
    omega
  unfold topByte
  rw [BitVec.toNat_xor, BitVec.toNat_xor, BitVec.toNat_ushiftRight, BitVec.toNat_setWidth,
    BitVec.toNat_setWidth, BitVec.toNat_ushiftRight, Nat.mod_eq_of_lt hhigh,
    Nat.mod_eq_of_lt (by omega)]

/-- **The loop body is a byte of the division.** -/
theorem crc16Step_eq (crc : BitVec 16) (b : UInt8) : crc16Step crc b = crcByte crc16Poly crc b := by
  unfold crc16Step
  dsimp only
  rw [toNat_index, getD_crc16CcittTable, crcByte_table crc16Poly (by decide) crc b]

theorem crc16Update_eq_crc (init : BitVec 16) {data : Bytes} {len : BitVec 16}
    (h : len.toNat = data.length) : crc16Update init data len = crc crc16Poly init data := by
  unfold crc16Update crc
  rw [h, List.take_length]
  exact List.foldl_ext _ _ _ fun c b _ => crc16Step_eq c b

/-- The two bytes of a CRC, most significant first. -/
def crcBytes (c : BitVec 16) : Bytes := [UInt8.ofBitVec ((c >>> 8).setWidth 8),
  UInt8.ofBitVec (c.setWidth 8)]

/-- A CRC that follows its data is divided away. -/
theorem crc_crcBytes (c : BitVec 16) : crc crc16Poly c (crcBytes c) = 0 := by
  have hlow : c.setWidth 8 = topByte (c <<< 8) := by
    ext i hi
    rw [← BitVec.getLsbD_eq_getElem, ← BitVec.getLsbD_eq_getElem, getLsbD_topByte,
      BitVec.getLsbD_setWidth, BitVec.getLsbD_shiftLeft]
    have h16 : 16 - 8 + i < 16 := by omega
    have hsub : 16 - 8 + i - 8 = i := by omega
    have h8 : ¬ 16 - 8 + i < 8 := by omega
    simp [hi, h16, hsub, h8]
  calc crc crc16Poly c (crcBytes c)
      = crcByte crc16Poly (crcByte crc16Poly c (UInt8.ofBitVec (topByte c)))
          (UInt8.ofBitVec (c.setWidth 8)) := rfl
    _ = c <<< 8 <<< 8 := by
        rw [crcByte_topByte _ (by decide), hlow, crcByte_topByte _ (by decide)]
    _ = 0 := by
        rw [← BitVec.shiftLeft_add]
        exact BitVec.shiftLeft_eq_zero (Nat.le_refl 16)

/-- The length of the two bytes of a CRC. -/
theorem length_crcBytes (c : BitVec 16) : (2 : BitVec 16).toNat = (crcBytes c).length := rfl

/-- **The update is the division by the polynomial**: bit by bit with the most significant bit
first, from any initial value; and the CRC, high byte first, is divided away. -/
theorem crc16Update_eq (init : BitVec 16) (data : Bytes) (h : data.length < 2 ^ 16) :
    crc16Update init data (BitVec.ofNat 16 data.length) = crc (0x1021 : BitVec 16) init data ∧
    crc16Update (crc16Update init data (BitVec.ofNat 16 data.length))
      (crcBytes (crc16Update init data (BitVec.ofNat 16 data.length))) 2 = 0 := by
  refine ⟨crc16Update_eq_crc init ?_, ?_⟩
  · exact (BitVec.toNat_ofNat _ _).trans (Nat.mod_eq_of_lt h)
  · rw [crc16Update_eq_crc _ (length_crcBytes _), crc_crcBytes]

theorem crc16Update_eq_check : crc16Update 0xFFFF [0x31, 0x32, 0x33] (BitVec.ofNat 16 3) =
      crc (0x1021 : BitVec 16) 0xFFFF [0x31, 0x32, 0x33] ∧
    crc16Update (crc16Update 0xFFFF [0x31, 0x32, 0x33] (BitVec.ofNat 16 3))
      (crcBytes (crc16Update 0xFFFF [0x31, 0x32, 0x33] (BitVec.ofNat 16 3))) 2 = 0 :=
  crc16Update_eq 0xFFFF [0x31, 0x32, 0x33] (by decide)

/-- The packets that the depacketizer takes are those whose CRC the driver computes. -/
theorem crcValid_iff {p : Bytes} (h : p.length < 2 ^ 16) : Bus.Depacketizer.CrcValid p ↔
    Bus.Depacketizer.field16 p (p.length - 2) =
      (crc16Update 0xFFFF (p.take (p.length - 2)) (BitVec.ofNat 16 (p.length - 2))).toNat := by
  have hlen : (BitVec.ofNat 16 (p.length - 2)).toNat = (p.take (p.length - 2)).length := by
    rw [BitVec.toNat_ofNat, List.length_take, Nat.mod_eq_of_lt (by omega)]
    omega
  rw [crc16Update_eq_crc _ hlen]
  rfl

end ClickA.Driver
