import ClickA.Ipc.Control
import Mathlib.Data.Int.Bitwise

/-!
# Round trips of the packets

A packet is encoded from its fields, and decoding gives fields back. All of them come back as they
were, apart from flags of an answer that are not one bit, and commands of PAT that are not one byte.

## Main definitions

* `Packet`: the packets, with the fields that are encoded
* `Packet.encode`: what is sent
* `Packet.Returned`: decoding returns the fields
* `Packet.Fits`: the flags of an answer are bits, and the command of PAT is a byte

## Main results

* `Packet.returned_iff`: when a packet comes back as it was
-/

namespace ClickA

open Python
open FPGAMapRequestPacket (lt_of_packFrom)

/-! ## Flags that are any integers -/

namespace FPGAMapAnswerPacket

variable {returnAddr rqNumber startAddr size : ℕ} {rwFlag errorFlag : ℤ} {readData raw : Bytes}

/-- `FPGAMapAnswerPacket.encode`, with flags that may be any integers. -/
def encodeFlags (returnAddr rqNumber : ℕ) (rwFlag errorFlag : ℤ) (startAddr size : ℕ)
    (readData : Bytes) : Except Exn Bytes := do
  let combinedFlag := rwFlag.land 0x01 + (errorFlag <<< 1).land 0x02
  assertThat (readData.length = size)
  checkAssert (readData.length % 4 = 0)
  pack (native [.I, .B, .B, .H, .I, .s readData.length])
    [.int returnAddr, .int rqNumber, .int combinedFlag, .int startAddr, .int size, .str readData]

theorem land_zero (n : ℤ) : n.land 0 = 0 := by
  cases n with
  | ofNat n => exact congrArg Int.ofNat (Nat.and_zero n)
  | negSucc n =>
    have hzero : Nat.ldiff 0 n = 0 := by
      apply Nat.eq_of_testBit_eq
      intro i
      simp [Nat.testBit_ldiff]
    exact congrArg Int.ofNat hzero

theorem land_one (n : ℤ) : n.land 1 = n % 2 := by
  calc n.land 1
      = (Int.bit n.bodd n.div2).land (Int.bit true 0) := by rw [Int.bit_decomp]; rfl
    _ = Int.bit n.bodd 0 := by rw [Int.land_bit, land_zero, Bool.and_true]
    _ = n % 2 := by
      have hdecomp := Int.bodd_add_div2 n
      cases hodd : n.bodd
      · rw [hodd, cond_false] at hdecomp
        simp only [Int.bit, cond_false]
        omega
      · rw [hodd, cond_true] at hdecomp
        simp only [Int.bit, cond_true]
        omega

theorem land_two (n : ℤ) : (n <<< 1).land 2 = 2 * (n % 2) := by
  have hshift : n <<< 1 = Int.bit false n :=
    (Int.shiftLeft_eq_mul_pow n 1).trans (Int.mul_comm n 2)
  calc (n <<< 1).land 2
      = (Int.bit false n).land (Int.bit false 1) := by rw [hshift]; rfl
    _ = Int.bit false (n.land 1) := by rw [Int.land_bit, Bool.and_false]
    _ = 2 * (n % 2) := by rw [land_one]; rfl

/-- Only the parities of the flags are encoded. -/
theorem encodeFlags_eq : encodeFlags returnAddr rqNumber rwFlag errorFlag startAddr size readData =
    encode returnAddr rqNumber (rwFlag % 2).toNat
      (errorFlag % 2).toNat startAddr size readData := by
  have hflags : rwFlag.land 0x01 + (errorFlag <<< 1).land 0x02 =
      combinedFlag (rwFlag % 2).toNat (errorFlag % 2).toNat := by
    rw [land_one, land_two, combinedFlag_eq]
    push_cast
    omega
  rw [encodeFlags, hflags]
  rfl

/-- What is read from an answer. -/
theorem decode_encodeFlags
    (h : encodeFlags returnAddr rqNumber rwFlag errorFlag startAddr size readData = .ok raw) :
    decode raw = .ok ⟨returnAddr, rqNumber, (rwFlag % 2).toNat, (errorFlag % 2).toNat, startAddr,
      size,
      readData⟩ := by
  rw [encodeFlags_eq] at h
  have hsame := h
  unfold encode at h
  by_cases hsize : readData.length = size
  · subst hsize
    rw [assertThat, if_pos rfl, ok_bind] at h
    by_cases hmod : readData.length % 4 = 0
    · have hrw : (rwFlag % 2).toNat % 2 = (rwFlag % 2).toNat := by omega
      have herr : (errorFlag % 2).toNat % 2 = (errorFlag % 2).toNat := by omega
      rw [decode_encode hmod hsame, hrw, herr]
    · rw [checkAssert_of_not hmod] at h
      exact absurd h (by simp)
  · rw [assertThat, if_neg hsize] at h
    exact absurd h (by simp)

end FPGAMapAnswerPacket

/-- The fields of a command packet that is encoded are in range. -/
theorem RxCommandPacket.of_encode {apid s ms : ℕ} {payload raw : Bytes}
    (h : encode apid s ms payload = .ok raw) :
    apid < 2 ^ 16 ∧ payload.length < 2 ^ 16 ∧ s < 2 ^ 32 ∧ ms < 2 ^ 32 := by
  have hpack : ∃ cs vs, pack (native ([.H, .H, .I, .I] ++ cs))
      ([.int apid, .int payload.length, .int s, .int ms] ++ vs) = .ok raw := by
    rw [encode] at h
    split at h
    · exact ⟨_, _, h⟩
    · exact ⟨[], [], h⟩
  obtain ⟨cs, vs, h⟩ := hpack
  obtain ⟨ha, _, _, h⟩ := lt_of_packFrom h
  obtain ⟨hp, _, _, h⟩ := lt_of_packFrom h
  obtain ⟨hs, _, _, h⟩ := lt_of_packFrom h
  obtain ⟨hms, -⟩ := lt_of_packFrom h
  exact ⟨ha, hp, hs, hms⟩

/-! ## The packets -/

/-- A packet of each class, with the fields that are encoded. A negative number fits no field but
the flags of an answer. -/
inductive Packet
  | tx (apid : ℕ) (payload : Bytes)
  | rxCommand (apid tsTxedS tsTxedMs : ℕ) (payload : Bytes)
  | patHealth (returnAddr : ℕ) (payload : Bytes)
  | patStatus (returnAddr statusFlag : ℕ)
  | fpgaMapRequest (request : FPGAMapRequestPacket)
  | fpgaMapAnswer (returnAddr rqNumber : ℕ) (rwFlag errorFlag : ℤ) (startAddr size : ℕ)
      (readData : Bytes)
  | hkControl (origin command : ℕ) (payload : Bytes)
  | patControl (command : ℕ) (payload : Bytes)

namespace Packet

/-- What is sent. -/
def encode : Packet → Except Exn Bytes
  | .tx apid payload => TxPacket.encode apid payload
  | .rxCommand apid tsTxedS tsTxedMs payload =>
    RxCommandPacket.encode apid tsTxedS tsTxedMs payload
  | .patHealth returnAddr payload => PATHealthPacket.encode returnAddr payload
  | .patStatus returnAddr statusFlag => PATStatusPacket.encode returnAddr statusFlag
  | .fpgaMapRequest request => FPGAMapRequestPacket.encode request
  | .fpgaMapAnswer returnAddr rqNumber rwFlag errorFlag startAddr size readData =>
    FPGAMapAnswerPacket.encodeFlags returnAddr rqNumber rwFlag errorFlag startAddr size readData
  | .hkControl origin command payload => HKControlPacket.encode origin command payload
  | .patControl command payload => PATControlPacket.encode command payload

/-- Decoding returns the fields. -/
def Returned (raw : Bytes) : Packet → Prop
  | .tx apid payload => TxPacket.decode raw = .ok (apid, payload)
  | .rxCommand apid tsTxedS tsTxedMs payload =>
    RxCommandPacket.decode raw = .ok (apid, tsTxedS, tsTxedMs, payload)
  | .patHealth returnAddr payload => ∃ pck, PATHealthPacket.decode raw = .ok pck ∧
    pck.returnAddr = returnAddr ∧ pck.size = payload.length ∧ pck.payload = payload
  | .patStatus returnAddr statusFlag => PATStatusPacket.decode raw = .ok (returnAddr, statusFlag)
  | .fpgaMapRequest request => FPGAMapRequestPacket.decode raw = .ok request
  | .fpgaMapAnswer returnAddr rqNumber rwFlag errorFlag startAddr size readData =>
    ∃ pck, FPGAMapAnswerPacket.decode raw = .ok pck ∧ pck.returnAddr = returnAddr ∧
      pck.rqNumber = rqNumber ∧ pck.rwFlag = rwFlag ∧ pck.error = errorFlag ∧
      pck.startAddr = startAddr ∧ pck.size = size ∧ pck.readData = readData
  | .hkControl origin command payload => HKControlPacket.decode raw = .ok (origin, command, payload)
  | .patControl command payload => PATControlPacket.decode raw = .ok (.int command, payload)

/-- The flags of an answer are bits, and the command of PAT is a byte. -/
def Fits : Packet → Prop
  | .fpgaMapAnswer _ _ rwFlag errorFlag _ _ _ =>
    (rwFlag = 0 ∨ rwFlag = 1) ∧ (errorFlag = 0 ∨ errorFlag = 1)
  | .patControl command _ => command < 2 ^ 8
  | _ => True

variable {p : Packet} {raw : Bytes}

/-- **When a packet comes back as it was.** -/
theorem returned_iff (h : p.encode = .ok raw) : p.Returned raw ↔ p.Fits := by
  cases p with
  | tx apid payload => exact iff_of_true (TxPacket.decode_encode h) trivial
  | rxCommand apid s ms payload =>
    obtain ⟨ha, hp, hs, hms⟩ := RxCommandPacket.of_encode h
    exact iff_of_true (RxCommandPacket.decode_encode ha hp hs hms h) trivial
  | patHealth returnAddr payload =>
    obtain ⟨_, hdecode⟩ := PATHealthPacket.decode_encode h
    exact iff_of_true ⟨_, hdecode, rfl, rfl, rfl⟩ trivial
  | patStatus returnAddr statusFlag => exact iff_of_true (PATStatusPacket.decode_encode h) trivial
  | fpgaMapRequest request =>
    have hvalid := FPGAMapRequestPacket.valid_of_encode h
    exact iff_of_true (FPGAMapRequestPacket.decode_encode hvalid h) trivial
  | fpgaMapAnswer returnAddr rqNumber rwFlag errorFlag startAddr size readData =>
    have hdecode := FPGAMapAnswerPacket.decode_encodeFlags h
    have hbit (n : ℤ) : (((n % 2).toNat : ℕ) : ℤ) = n ↔ n = 0 ∨ n = 1 := by omega
    constructor
    · rintro ⟨pck, hpck, -, -, hrw, herr, -⟩
      obtain rfl := Except.ok.inj (hdecode.symm.trans hpck)
      exact ⟨(hbit rwFlag).mp hrw, (hbit errorFlag).mp herr⟩
    · rintro ⟨hrw, herr⟩
      exact ⟨_, hdecode, rfl, rfl, (hbit rwFlag).mpr hrw, (hbit errorFlag).mpr herr, rfl, rfl, rfl⟩
  | hkControl origin command payload => exact iff_of_true (HKControlPacket.decode_encode h) trivial
  | patControl command payload =>
    have hdecode := PATControlPacket.decode_encode h
    constructor
    · intro hreturned
      have hlow : command % 256 = command := by
        simpa using (Except.ok.inj (hdecode.symm.trans hreturned))
      show command < 256
      omega
    · intro hfits
      have hlow : command % 256 = command := Nat.mod_eq_of_lt hfits
      rw [hlow] at hdecode
      exact hdecode

/-- An answer of two registers with an error. -/
def twoRegisters : Packet :=
  .fpgaMapAnswer 0x01020304 7 1 1 0x60 8 [0x3F, 1, 2, 0x83, 0, 0xC4, 5, 0xFF]

theorem returned_iff_twoRegisters :
    twoRegisters.Returned [4, 3, 2, 1, 7, 3, 0x60, 0, 8, 0, 0, 0, 0x3F, 1, 2, 0x83, 0, 0xC4, 5,
      0xFF] ↔ twoRegisters.Fits :=
  returned_iff (by decide)

/-- A command of two bytes is encoded, and its low byte is decoded. -/
theorem not_returned_twoBytes :
    ¬ ∀ (p : Packet) (raw : Bytes), p.encode = .ok raw → p.Returned raw := by
  intro hclaim
  have h : (Packet.patControl 0x100 []).encode = .ok [0, 1, 0, 0] := by decide
  have hdecode : PATControlPacket.decode [0, 1, 0, 0] = .ok (.int 0x100, []) := hclaim _ _ h
  exact absurd hdecode (by decide)

end Packet

end ClickA
