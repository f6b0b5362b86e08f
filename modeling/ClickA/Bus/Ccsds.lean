import ClickA.Stream.Crc
import ClickA.Stream.Marker

/-!
# Space packets on the bus

The packets between the spacecraft bus and the payload: a sync marker, the 6-byte primary header,
the data, and the CRC of all but the marker. Packets from the bus have a 6-byte secondary header
with the time before the data. This is the format, stated without reference to the code that reads
or writes it.

## Main definitions

* `ccsdsSync`: the sync marker
* `Telecommand`: the fields of a packet from the bus
* `Telecommand.packet`, `Telecommand.frame`: its bytes, without and with the marker
* `Telemetry`, `Telemetry.frame`: a packet to the bus, and its bytes
-/

namespace ClickA.Bus

open Python (Bytes)
open Stream

/-- The sync marker. -/
def ccsdsSync : Bytes := [0x35, 0x2E, 0xF8, 0x53]

/-- The marker's first byte does not occur in it again. -/
theorem ccsdsSync_head : (0x35 : UInt8) ∉ ([0x2E, 0xF8, 0x53] : Bytes) := by decide

/-- The position of a packet in a sequence of packets. -/
inductive Grouping
  | continuation
  | first
  | last
  | standalone
deriving DecidableEq, Repr

/-- The two flag bits. -/
def Grouping.flag : Grouping → ℕ
  | .continuation => 0b00
  | .first => 0b01
  | .last => 0b10
  | .standalone => 0b11

theorem Grouping.flag_lt (g : Grouping) : g.flag < 4 := by cases g <;> decide

/-- A packet from the bus: `lead` is the version, the type and the secondary header flag, and
`spare` the last byte of the secondary header. The length field counts the bytes after the
primary header, less one. -/
structure Telecommand where
  lead : BitVec 5
  apid : BitVec 11
  grouping : Grouping
  seqCnt : BitVec 14
  tsSec : BitVec 32
  tsSubsec : UInt8
  spare : UInt8
  data : Bytes
  fits : data.length + 7 < 2 ^ 16

namespace Telecommand

variable (c : Telecommand)

/-- The length field: secondary header, data and CRC, less one. -/
def lengthField : ℕ := 6 + c.data.length + 2 - 1

/-- The primary header. -/
def header : Bytes :=
  be16 (c.lead.toNat * 2048 + c.apid.toNat) ++
    (be16 (c.grouping.flag * 16384 + c.seqCnt.toNat) ++ be16 c.lengthField)

/-- The secondary header. -/
def secondary : Bytes :=
  be16 (c.tsSec.toNat / 65536) ++ (be16 (c.tsSec.toNat % 65536) ++ [c.tsSubsec, c.spare])

/-- What the CRC covers. -/
def body : Bytes := c.header ++ (c.secondary ++ c.data)

/-- The packet without the marker. -/
def packet : Bytes := c.body ++ be16 (crc16CcittFalse c.body)

/-- The packet as the bus sends it. -/
def frame : Bytes := ccsdsSync ++ c.packet

/-- The fields of a packet, one after the other. -/
theorem packet_eq : c.packet =
    be16 (c.lead.toNat * 2048 + c.apid.toNat) ++ (be16 (c.grouping.flag * 16384 + c.seqCnt.toNat) ++
      (be16 c.lengthField ++ (be16 (c.tsSec.toNat / 65536) ++ (be16 (c.tsSec.toNat % 65536) ++
        c.tsSubsec :: c.spare :: (c.data ++ be16 (crc16CcittFalse c.body)))))) := by
  simp [packet, body, header, secondary]

@[simp] theorem length_header : c.header.length = 6 := rfl

theorem lengthField_eq : c.lengthField = c.data.length + 7 := by
  rw [lengthField]
  omega

@[simp] theorem length_secondary : c.secondary.length = 6 := rfl

@[simp] theorem length_body : c.body.length = 12 + c.data.length := by
  simp [body]; omega

@[simp] theorem length_packet : c.packet.length = 14 + c.data.length := by
  simp [packet]; omega

end Telecommand

/-- A packet to the bus. The length field counts the data and the CRC, less one. -/
structure Telemetry where
  apid : BitVec 11
  grouping : Grouping
  seqCnt : BitVec 14
  data : Bytes
  fits : data.length + 1 < 2 ^ 16

namespace Telemetry

variable (t : Telemetry)

/-- The length field: data and CRC, less one. -/
def lengthField : ℕ := t.data.length + 2 - 1

/-- What the CRC covers. -/
def body : Bytes :=
  be16 t.apid.toNat ++
    (be16 (t.grouping.flag * 16384 + t.seqCnt.toNat) ++ (be16 t.lengthField ++ t.data))

/-- The packet as the bus receives it. -/
def frame : Bytes := ccsdsSync ++ (t.body ++ be16 (crc16CcittFalse t.body))

@[simp] theorem length_frame : t.frame.length = t.data.length + 12 := by
  simp [frame, body, ccsdsSync]
  omega

end Telemetry

end ClickA.Bus
