import ClickA.Bus.Depacketizer
import ClickA.Bus.Downlink
import ClickA.Driver.Accounting
import ClickA.Stream.Framing

/-!
# From the messages to the wire

The packetizer writes its frames to the driver, which puts each between two latencies, and shifts
them out when the other side interrupts; a transfer that carries nothing shifts out zeros. A write
that fails, or a payload that is not cut, ends the packetizer. Until then nothing is lost: on the
wire are the frames of the messages, in order and once, and the others wait.

## Main definitions

* `Sender`: the packetizer, and the driver it writes to
* `Sender.step`, `Sender.run`: messages, interleaved with what happens to the driver
* `wire`: what the driver has shifted out
* `takeTelemetry`: the packets as the other side reads them

## Main results

* `filled_wire`: on the wire are frames, with zeros between them
* `inOrder_step`: what a step keeps
* `downlinked_run`: what the other side reads in every run
-/

namespace ClickA.Bus

open Python Stream Options Packetizer
open Depacketizer (ccsdsHeaderLen pktLenIndex field16 field16_be16 field16_be16_succ)

/-! ## The other side -/

/-- A packet without its marker. -/
def Telemetry.packet (t : Telemetry) : Bytes := t.body ++ be16 (crc16CcittFalse t.body)

/-- The bytes behind the first marker, as many as the length field of the header says, and what
follows. -/
def takeTelemetry (s : Bytes) : Option (Bytes × Bytes) :=
  match afterFirst ccsdsSync s with
  | none => none
  | some rest =>
    let n := ccsdsHeaderLen + (field16 rest pktLenIndex + 1)
    if n ≤ rest.length then some (rest.take n, rest.drop n) else none

/-- The packets for a message. -/
def Message.telemetry (m : Message) : List Telemetry :=
  Packetizer.telemetry (BitVec.ofNat 11 m.apid) 0 (dataSegments m.payload)

theorem Message.busPkts_eq (m : Message) : m.busPkts = m.telemetry.map Telemetry.frame := rfl

section Telemetry

variable {t : Telemetry}

theorem Telemetry.field16_packet (t : Telemetry) (rest : Bytes) :
    field16 (t.packet ++ rest) pktLenIndex = t.data.length + 1 := by
  have hfits := t.fits
  have hlen : t.lengthField = t.data.length + 1 := by
    rw [lengthField]
    omega
  rw [packet, body, pktLenIndex]
  simp only [List.append_assoc]
  rw [field16_be16_succ, field16_be16_succ, hlen, field16_be16 hfits]

theorem Telemetry.length_packet (t : Telemetry) :
    t.packet.length = ccsdsHeaderLen + (t.data.length + 1 + 1) := by
  simp [packet, body, ccsdsHeaderLen]
  omega

/-- No marker begins in zeros. -/
theorem afterFirst_zeros (k : ℕ) : afterFirst ccsdsSync (List.replicate k 0) = none := by
  rw [afterFirst_eq_none_iff]
  intro hin
  exact absurd (List.eq_of_mem_replicate (hin.subset List.mem_cons_self)) (by decide)

theorem takeTelemetry_zeros (k : ℕ) : takeTelemetry (List.replicate k 0) = none := by
  rw [takeTelemetry, afterFirst_zeros]

/-- The other side passes over zeros, and takes a packet to its end. -/
theorem takes_telemetry (t : Telemetry) (k : ℕ) :
    Takes takeTelemetry (fun t => List.replicate k 0 ++ t.frame) Telemetry.packet t := by
  intro rest
  have hafter : afterFirst ccsdsSync (List.replicate k 0 ++ t.frame ++ rest) =
      some (t.packet ++ rest) := by
    refine afterFirst_eq_some_iff.mpr ⟨List.replicate k 0 ++ ccsdsSync, ?_, ?_⟩
    · simp only [Telemetry.frame, Telemetry.packet, List.append_assoc]
    · refine firstEnd_append ccsdsSync_head fun hin => ?_
      exact absurd (List.eq_of_mem_replicate (hin.subset List.mem_cons_self)) (by decide)
  have hlen : ccsdsHeaderLen + (t.data.length + 1 + 1) = t.packet.length := t.length_packet.symm
  rw [takeTelemetry, hafter]
  dsimp only
  rw [t.field16_packet, hlen, if_pos (by rw [List.length_append]; exact Nat.le_add_right _ _),
    List.take_left, List.drop_left]

end Telemetry

end ClickA.Bus

namespace ClickA.Driver

open Python (Bytes)
open Stream Options
open Bus Packetizer

/-! ## The wire -/

/-- What a transfer shifts out: its data, or zeros. -/
def Xfer.sent (x : Xfer) : Bytes := x.txBuf.getD (List.replicate x.len 0)

/-- What the driver has shifted out. -/
def wire (d : SpiData) : Bytes := d.xfers.flatMap Xfer.sent

/-- On the wire are the frames that were transmitted, with zeros between them. -/
theorem filled_sent {xs : List Xfer} {ts : List Telemetry}
    (h : xs.filterMap Xfer.packet = ts.map fun t => userPacket t.frame) :
    Filled 0 Telemetry.frame (xs.flatMap Xfer.sent) ts := by
  induction xs generalizing ts with
  | nil =>
    obtain rfl : ts = [] := List.map_eq_nil_iff.mp h.symm
    exact .rest 0
  | cons x xs ih =>
    obtain ⟨txBuf, rxBuf, len⟩ := x
    cases txBuf with
    | none => exact (ih h).fill_append len
    | some data =>
      cases ts with
      | nil => exact absurd h (by simp [Xfer.packet])
      | cons t ts =>
        obtain ⟨hhead, htail⟩ := List.cons.inj h
        obtain rfl : data = List.replicate packetLatency 0 ++ t.frame ++
          List.replicate packetLatency 0 := congrArg Packet.data hhead
        have hframe := Filled.frame packetLatency (c := t) ((ih htail).fill_append packetLatency)
        simpa only [List.flatMap_cons, Xfer.sent, Option.getD_some, List.append_assoc] using hframe

theorem filled_wire {d : SpiData} {ts : List Telemetry}
    (h : transmitted d = ts.map fun t => userPacket t.frame) :
    Filled 0 Telemetry.frame (wire d) ts := filled_sent h

/-! ## The packetizer on the driver -/

/-- The packetizer, as long as no exception has ended it, and the driver it writes to. -/
structure Sender where
  packetizer : Packetizer
  alive : Bool
  driver : SpiData

namespace Sender

/-- Nothing is received or written yet. -/
def init : Sender := ⟨Packetizer.init, true, .init⟩

/-- `send_bus_pkts`: the first packet is taken from the buffer, and a write that fails raises an
exception. -/
def sendBusPkts (k : Kernel) (s : Sender) : Sender :=
  match s.packetizer.busPktsBuffer with
  | [] => s
  | rawBusPkt :: busPkts =>
    let p := { s.packetizer with busPktsBuffer := busPkts }
    let (queue, res) := packetWrite k s.driver.queue rawBusPkt
    match res with
    | .ok _ =>
      ⟨{ p with spi := p.spi ++ [rawBusPkt] }, s.alive, { s.driver with queue := queue }⟩
    | .error _ => ⟨p, false, { s.driver with queue := queue }⟩

/-- An iteration of `run`, with the packet it receives. -/
def iteration (type : ByteType) (k : Kernel) (s : Sender) (ipcPkt : Bytes) : Sender :=
  match handleTxPkts type
    { s.packetizer with ipcPktsBuffer := s.packetizer.ipcPktsBuffer ++ [ipcPkt] } with
  | .ok p => sendBusPkts k { s with packetizer := p }
  | .error _ => { s with alive := false }

/-- A message that the packetizer receives, with the answer of the kernel to its write, or what
happens to the driver otherwise. -/
inductive Event
  | message (type : ByteType) (k : Kernel) (m : Message)
  | device (e : Driver.Event)

/-- What the packetizer has received in a run. -/
def messages (es : List Event) : List Message :=
  es.filterMap fun
    | .message _ _ m => some m
    | .device _ => none

/-- One event, if it can happen: only a packetizer that runs receives, and nothing else writes. -/
def step (s : Sender) : Event → Option Sender
  | .message type k m => if s.alive then some (iteration type k s m.raw) else none
  | .device (.write _ _) => none
  | .device e => (Driver.step s.driver e).map fun d => { s with driver := d }

/-- A run over a list of events. -/
def run (s : Sender) (es : List Event) : Option Sender := es.foldlM step s

theorem run_cons (s : Sender) (e : Event) (es : List Event) :
    run s (e :: es) = (step s e).bind fun s' => run s' es := rfl

/-- Transfers that `spi_async` accepts. -/
def Accepting : Event → Prop
  | .message _ _ _ => True
  | .device e => Allowed e

/-! ## What a step keeps -/

/-- The packets of the messages are in order: those that the driver has transmitted, those that wait
in its queue, and those that are not written, which are in the buffer of a packetizer that runs. -/
structure InOrder (ms : List Message) (s : Sender) : Prop where
  accounted : Accounted s.driver
  idle : s.alive = true → s.packetizer.ipcPktsBuffer = []
  split : ∃ written unwritten : List Telemetry,
    written ++ unwritten = ms.flatMap Message.telemetry ∧
    transmitted s.driver ++ s.driver.queue.packets = written.map (fun t => userPacket t.frame) ∧
    (s.alive = true → s.packetizer.busPktsBuffer = unwritten.map Telemetry.frame)

theorem inOrder_init : InOrder [] init where
  accounted := accounted_init
  idle _ := rfl
  split := ⟨[], [], rfl, rfl, fun _ => rfl⟩

section Steps

variable {s s' : Sender} {ms : List Message} {type : ByteType} {k : Kernel} {m : Message}

/-- A message is cut into its packets, or an exception ends the packetizer. -/
theorem handleTxPkts_message (type : ByteType) (m : Message) {p : Packetizer}
    (hp : p.ipcPktsBuffer = [m.raw]) :
    handleTxPkts type p = .ok { p with
      ipcPktsBuffer := [], busPktsBuffer := p.busPktsBuffer ++ m.busPkts } ∨
    ∃ e, handleTxPkts type p = .error e := by
  cases type with
  | bytearray => exact .inl (handleTxPkts_bytearray hp m.encoded)
  | str =>
    rcases Nat.lt_or_ge busDataLen m.payload.length with hlt | hle
    · exact .inr ⟨_, handleTxPkts_str_of_lt hp m.encoded hlt⟩
    · exact .inl (handleTxPkts_str_of_le hp m.encoded hle)

theorem iteration_ok {raw : Bytes} {p : Packetizer} (h : handleTxPkts type
      { s.packetizer with ipcPktsBuffer := s.packetizer.ipcPktsBuffer ++ [raw] } = .ok p) :
    iteration type k s raw = sendBusPkts k { s with packetizer := p } := by
  rw [iteration, h]

theorem iteration_error {raw : Bytes} {e : Python.Exn} (h : handleTxPkts type
      { s.packetizer with ipcPktsBuffer := s.packetizer.ipcPktsBuffer ++ [raw] } = .error e) :
    iteration type k s raw = { s with alive := false } := by
  rw [iteration, h]

/-- A frame is short enough for the sixteen bits of a length. -/
theorem length_frame_lt {t : Telemetry} (ht : t ∈ ms.flatMap Message.telemetry) :
    t.frame.length < 65528 := by
  obtain ⟨m, -, hm⟩ := List.mem_flatMap.mp ht
  have hle : t.data.length ≤ busDataLen := (mem_telemetry hm).1
  rw [Telemetry.length_frame]
  unfold busDataLen at hle
  omega

/-- The first packet of the buffer is written, or the packetizer ends. -/
theorem inOrder_sendBusPkts (hs : InOrder ms s) (halive : s.alive = true) (k : Kernel) :
    InOrder ms (sendBusPkts k s) := by
  obtain ⟨written, unwritten, hall, hwritten, hbuffer⟩ := hs.split
  have hbus := hbuffer halive
  cases unwritten with
  | nil =>
    have hsame : sendBusPkts k s = s := by
      rw [sendBusPkts, hbus]
      rfl
    rw [hsame]
    exact hs
  | cons t unwritten =>
    have hlen : t.frame.length < 65528 :=
      length_frame_lt (hall ▸ List.mem_append_right _ List.mem_cons_self)
    rw [sendBusPkts, hbus, List.map_cons]
    dsimp only
    cases hres : (packetWrite k s.driver.queue t.frame).2 with
    | ok n =>
      obtain ⟨hqueue, -⟩ := packetWrite_ok hlen hs.accounted.le hres
      refine ⟨accounted_write hs.accounted hlen, hs.idle, written ++ [t], unwritten, ?_, ?_,
        fun _ => rfl⟩
      · rw [List.append_assoc]
        exact hall
      · rw [List.map_append, ← hwritten, List.append_assoc]
        exact congrArg (transmitted s.driver ++ ·) (congrArg TxQueue.packets hqueue)
    | error e =>
      refine ⟨accounted_write hs.accounted hlen, fun h => absurd h Bool.false_ne_true, written,
        t :: unwritten, hall, ?_, fun h => absurd h Bool.false_ne_true⟩
      rw [← hwritten]
      exact congrArg (transmitted s.driver ++ ·)
        (congrArg TxQueue.packets (packetWrite_error hres))

theorem inOrder_iteration (hs : InOrder ms s) (halive : s.alive = true) (type : ByteType)
    (k : Kernel) (m : Message) : InOrder (ms ++ [m]) (iteration type k s m.raw) := by
  obtain ⟨written, unwritten, hall, hwritten, hbuffer⟩ := hs.split
  have hall' : written ++ (unwritten ++ m.telemetry) = (ms ++ [m]).flatMap Message.telemetry := by
    rw [← List.append_assoc, hall, List.flatMap_append, List.flatMap_singleton]
  have hipc : ({ s.packetizer with ipcPktsBuffer := s.packetizer.ipcPktsBuffer ++ [m.raw] } :
      Packetizer).ipcPktsBuffer = [m.raw] := by
    rw [hs.idle halive]
    rfl
  rcases handleTxPkts_message type m hipc with hok | ⟨e, herror⟩
  · rw [iteration_ok hok]
    refine inOrder_sendBusPkts ?_ (by exact halive) k
    refine ⟨hs.accounted, fun _ => rfl, written, _, hall', hwritten, fun h => ?_⟩
    rw [List.map_append, ← hbuffer h, ← m.busPkts_eq]
  · rw [iteration_error herror]
    exact ⟨hs.accounted, fun h => absurd h Bool.false_ne_true, written, _, hall', hwritten,
      fun h => absurd h Bool.false_ne_true⟩

theorem messages_cons (e : Event) (es : List Event) :
    messages (e :: es) = messages [e] ++ messages es := by
  cases e <;> rfl

/-- **Every step keeps the packets in order.** -/
theorem inOrder_step {e : Event} (hs : InOrder ms s) (he : Accepting e) (h : step s e = some s') :
    InOrder (ms ++ messages [e]) s' := by
  cases e with
  | message type k m =>
    unfold step at h
    split_ifs at h with halive
    obtain rfl := Option.some.inj h
    exact inOrder_iteration hs halive type k m
  | device e =>
    obtain ⟨written, unwritten, hall, hwritten, hbuffer⟩ := hs.split
    obtain ⟨d, hstep, hnone, rfl⟩ : ∃ d, Driver.step s.driver e = some d ∧
        acceptedBy s.driver e = [] ∧ s' = { s with driver := d } := by
      cases e with
      | write k buf => exact absurd h (by simp [step])
      | interrupt _ | complete _ _ | read _ =>
        unfold step at h
        obtain ⟨d, hd, hsame⟩ := Option.map_eq_some_iff.mp h
        exact ⟨d, hd, rfl, hsame.symm⟩
    have hpackets := transmitted_append_packets_step hs.accounted he hstep
    rw [hnone, List.append_nil, hwritten] at hpackets
    rw [show messages [.device e] = [] from rfl, List.append_nil]
    exact ⟨accounted_step hs.accounted he hstep, hs.idle, written, unwritten, hall, hpackets,
      hbuffer⟩

theorem inOrder_run {es : List Event} (hs : InOrder ms s) (hes : ∀ e ∈ es, Accepting e)
    (h : run s es = some s') : InOrder (ms ++ messages es) s' := by
  induction es generalizing s ms with
  | nil =>
    obtain rfl := Option.some.inj h
    rw [show messages [] = [] from rfl, List.append_nil]
    exact hs
  | cons e es ih =>
    rw [run_cons] at h
    obtain ⟨s₁, hstep, hrun⟩ := Option.bind_eq_some_iff.mp h
    have hrest := ih (inOrder_step hs (hes e List.mem_cons_self) hstep)
      (fun e' he' => hes e' (List.mem_cons_of_mem e he')) hrun
    rwa [List.append_assoc, ← messages_cons] at hrest

end Steps

/-! ## What the other side reads -/

/-- **In every run, the packets that the other side finds on the wire are the first ones of the
messages, in order and once. Those after them wait in the queue of the driver, and the others, as
long as the packetizer runs, in its buffer; the packets of each message carry its payload.** -/
theorem downlinked_run {es : List Event} {s : Sender} (hes : ∀ e ∈ es, Accepting e)
    (h : run init es = some s) :
    (∀ m ∈ messages es, Carries (BitVec.ofNat 11 m.apid) m.payload m.telemetry) ∧
    ∃ sent waiting unwritten : List Telemetry,
      sent ++ waiting ++ unwritten = (messages es).flatMap Message.telemetry ∧
      (∃ rest, cut takeTelemetry sent.length (wire s.driver) = (sent.map Telemetry.packet, rest) ∧
        takeTelemetry rest = none) ∧
      s.driver.queue.packets = waiting.map (fun t => userPacket t.frame) ∧
      (s.alive = true → s.packetizer.busPktsBuffer = unwritten.map Telemetry.frame) := by
  have hs := inOrder_run inOrder_init hes h
  rw [List.nil_append] at hs
  refine ⟨fun m _ => ?_, ?_⟩
  · obtain ⟨-, hlen, -⟩ := TxPacket.encode_eq_ok_iff.mp m.encoded
    exact carries_telemetry _ hlen
  obtain ⟨written, unwritten, hall, hwritten, hbuffer⟩ := hs.split
  obtain ⟨sent, waiting, rfl, hsent, hwaiting⟩ := List.append_eq_map_iff.mp hwritten
  obtain ⟨k, hcut⟩ := (filled_wire hsent.symm).cut_eq fun t _ k => takes_telemetry t k
  exact ⟨sent, waiting, unwritten, hall, ⟨_, hcut, takeTelemetry_zeros k⟩, hwaiting.symm, hbuffer⟩

/-- A message of one byte. -/
def oneByte : Message where
  apid := 0x301
  payload := [0x07]
  raw := Python.leBytes 2 0x301 ++ (Python.leBytes 2 1 ++ [0x07])
  encoded := TxPacket.encode_eq (by decide) (by decide)

/-- It is written, and the interrupt transmits it. -/
theorem downlinked_run_oneByte : ∃ s,
    run init [.message .bytearray .working oneByte, .device (.interrupt true)] = some s ∧
    (∀ m ∈ [oneByte], Carries (BitVec.ofNat 11 m.apid) m.payload m.telemetry) ∧
    ∃ sent waiting unwritten : List Telemetry,
      sent ++ waiting ++ unwritten = [oneByte].flatMap Message.telemetry ∧
      (∃ rest, cut takeTelemetry sent.length (wire s.driver) = (sent.map Telemetry.packet, rest) ∧
        takeTelemetry rest = none) ∧
      s.driver.queue.packets = waiting.map (fun t => userPacket t.frame) ∧
      (s.alive = true → s.packetizer.busPktsBuffer = unwritten.map Telemetry.frame) :=
  have hes : ∀ e ∈ [Event.message .bytearray .working oneByte, .device (.interrupt true)],
      Accepting e := by
    simp [Accepting, Allowed]
  ⟨_, rfl, downlinked_run hes rfl⟩

end Sender

end ClickA.Driver
