import ClickA.Driver.Downlink
import ClickA.Stream.Join

/-!
# From the wire to the messages

The other side of the wire cuts it into packets, checks their checksums, and puts the data of the
packets together, from a first or standalone one to the next last or standalone one. What it has
then are the messages that the packetizer received, in order and once, as far as their packets have
left: nothing in between adds, changes or reorders one.

## Main definitions

* `readPart`: a packet as the other side reads it
* `heard`: the messages on a wire
* `Sender.Drained`: no packet is left behind

## Main results

* `heard_of_filled`: the packets of messages on a wire, with zeros between them
* `Sender.heard_run`: what is heard in a run
-/

namespace ClickA.Bus

open Python (Bytes)
open Stream Packetizer
open Depacketizer (ccsdsHeaderLen CrcValid crcValid_append field16 field16_be16 field16_be16_succ)

/-! ## Packets -/

/-- The position that two flag bits tell. -/
def Grouping.ofFlag : ℕ → Grouping
  | 0b00 => .continuation
  | 0b01 => .first
  | 0b10 => .last
  | _ => .standalone

theorem Grouping.ofFlag_flag (g : Grouping) : ofFlag g.flag = g := by
  cases g <;> rfl

/-- A message begins. -/
def Grouping.opens : Grouping → Bool
  | .first => true
  | .standalone => true
  | _ => false

/-- A message ends. -/
def Grouping.closes : Grouping → Bool
  | .last => true
  | .standalone => true
  | _ => false

/-- What a packet carries of its message. -/
def Telemetry.part (t : Telemetry) : Part (BitVec 11) UInt8 :=
  ⟨t.apid, t.grouping.opens, t.grouping.closes, t.data⟩

/-- A packet as the other side reads it, unless its checksum is wrong. -/
def readPart (p : Bytes) : Option (Part (BitVec 11) UInt8) :=
  if CrcValid p then
    let g := Grouping.ofFlag (field16 p 2 / 16384)
    some ⟨BitVec.ofNat 11 (field16 p 0), g.opens, g.closes,
      (p.take (p.length - 2)).drop ccsdsHeaderLen⟩
  else none

/-- The fields of a packet, one after the other. -/
theorem Telemetry.packet_eq (t : Telemetry) : t.packet = be16 t.apid.toNat ++
    (be16 (t.grouping.flag * 16384 + t.seqCnt.toNat) ++ (be16 t.lengthField ++
      (t.data ++ be16 (crc16CcittFalse t.body)))) := by
  simp only [packet, body, List.append_assoc]

/-- The other side reads what was written. -/
theorem readPart_packet (t : Telemetry) : readPart t.packet = some t.part := by
  have hapid : field16 t.packet 0 = t.apid.toNat := by
    rw [t.packet_eq, field16_be16 (Nat.lt_trans t.apid.isLt (by decide))]
  have hflag : field16 t.packet 2 / 16384 = t.grouping.flag := by
    have hlt := t.grouping.flag_lt
    have hcnt := t.seqCnt.isLt
    rw [t.packet_eq, field16_be16_succ, field16_be16 (by omega)]
    omega
  have hdata : (t.packet.take (t.packet.length - 2)).drop ccsdsHeaderLen = t.data := by
    have hlen : t.packet.length - 2 = t.body.length := by
      rw [Telemetry.packet, List.length_append, length_be16, Nat.add_sub_cancel]
    rw [hlen, Telemetry.packet, List.take_left]
    rfl
  have hcrc : CrcValid t.packet := crcValid_append t.body
  rw [readPart, if_pos hcrc, hapid, hflag, hdata, Grouping.ofFlag_flag, BitVec.ofNat_toNat,
    BitVec.setWidth_eq]
  rfl

/-! ## Messages -/

/-- The messages on a wire. -/
def heard (w : Bytes) : List (BitVec 11 × Bytes) :=
  joined [] ((cut takeTelemetry w.length w).1.filterMap readPart)

/-- A message as it is heard. -/
def Message.content (m : Message) : BitVec 11 × Bytes := (BitVec.ofNat 11 m.apid, m.payload)

/-- The packets of a payload are its marked parts. -/
theorem map_part_telemetry (apid : BitVec 11) (k : ℕ) (ss : List DataSegment) :
    (telemetry apid k ss).map Telemetry.part =
      marked apid (decide (k = 0)) (ss.map Subtype.val) := by
  induction k, ss using telemetry.induct with
  | case1 => rfl
  | case2 k s =>
    by_cases hk : k = 0 <;> simp [telemetry, marked, packetFor, Telemetry.part, hk, Grouping.opens,
      Grouping.closes]
  | case3 k s s' ss ih =>
    rw [telemetry, List.map_cons, ih]
    by_cases hk : k = 0 <;> simp [marked, packetFor, Telemetry.part, hk, Grouping.opens,
      Grouping.closes]

/-- The packets of messages, one after the other, are joined to the messages. -/
theorem joined_telemetry (ms : List Message) :
    joined [] ((ms.flatMap Message.telemetry).map Telemetry.part) = ms.map Message.content := by
  have hparts : (ms.flatMap Message.telemetry).map Telemetry.part = ms.flatMap fun m =>
      marked (BitVec.ofNat 11 m.apid) true ((dataSegments m.payload).map Subtype.val) := by
    rw [List.map_flatMap]
    exact congrArg ms.flatMap (funext fun m => map_part_telemetry _ 0 _)
  have hne : ∀ m ∈ ms, (dataSegments m.payload).map Subtype.val ≠ [] :=
    fun m _ hnil => segments_ne_nil _ (List.map_eq_nil_iff.mp hnil)
  rw [hparts, joined_flatMap hne]
  refine List.map_congr_left fun m _ => ?_
  rw [← List.flatMap_def, dataSegments, flatMap_segments]
  rfl

/-- **The packets on a wire are heard, whatever zeros are between them.** -/
theorem heard_of_filled {w : Bytes} {ts : List Telemetry} (h : Filled 0 Telemetry.frame w ts) :
    heard w = joined [] (ts.map Telemetry.part) := by
  have hlen : ts.length ≤ w.length := h.length_le fun t _ => by simp [Telemetry.frame, ccsdsSync]
  rw [heard, h.cut_fst_eq (fun t _ k => takes_telemetry t k) takeTelemetry_zeros hlen,
    List.filterMap_map]
  refine congrArg (joined []) ?_
  rw [← List.filterMap_eq_map]
  exact congrArg (List.filterMap · ts) (funext readPart_packet)

end ClickA.Bus

namespace ClickA.Driver.Sender

open Stream Bus

/-- The packetizer runs, and no packet waits in its buffer or in the queue of the driver. -/
structure Drained (s : Sender) : Prop where
  alive : s.alive = true
  buffer : s.packetizer.busPktsBuffer = []
  queue : s.driver.queue.packets = []

/-- **The other side hears the messages in order and once**: the first ones in every run, and all of
them when no packet is left behind. -/
theorem heard_run {es : List Event} {s : Sender} (hes : ∀ e ∈ es, Accepting e)
    (h : run init es = some s) :
    heard (wire s.driver) <+: (messages es).map Message.content ∧
      (s.Drained → heard (wire s.driver) = (messages es).map Message.content) := by
  have hs := inOrder_run inOrder_init hes h
  rw [List.nil_append] at hs
  obtain ⟨written, unwritten, hall, hwritten, hbuffer⟩ := hs.split
  obtain ⟨sent, waiting, rfl, hsent, hwaiting⟩ := List.append_eq_map_iff.mp hwritten
  rw [heard_of_filled (filled_wire hsent.symm), ← joined_telemetry, ← hall]
  constructor
  · apply joined_isPrefix
    rw [List.append_assoc, List.map_append]
    exact List.prefix_append _ _
  · intro hdrained
    obtain rfl : waiting = [] := List.map_eq_nil_iff.mp (hwaiting.trans hdrained.queue)
    have hnil := (hbuffer hdrained.alive).symm.trans hdrained.buffer
    obtain rfl : unwritten = [] := List.map_eq_nil_iff.mp hnil
    rw [List.append_nil, List.append_nil]

end ClickA.Driver.Sender
