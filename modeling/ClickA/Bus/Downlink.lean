import ClickA.Bus.Packetizer
import ClickA.Stream.Queue

/-!
# Telemetry to the bus

The packetizer against the packets of the bus: which payloads it cuts into packets, and whether the
packets leave as fast as they are made.

## Main definitions

* `Carries`: packets that carry a payload
* `Downlinked`: the packets for an IPC packet carry its payload
* `Message`, `NoBacklog`: an IPC packet, and a run after each iteration of which no packet waits
* `Writable`: a device that takes the packets of a message

## Main results

* `carries_telemetry`: the segments of a payload carry it
* `downlinked_iff`: a payload is cut into packets when it fits in one
* `queue_run`: the loop is a queue that serves one packet a round
* `noBacklog_iff_writable`: no packet waits exactly when every payload fits in one packet that the
  device takes
-/

namespace ClickA.Bus

open Python Stream Options Packetizer

/-! ## Packets that carry a payload -/

section Carries

/-- The packets carry the payload: their data put together, in segments that are not too long, with
the flags and the sequence counts of one sequence. -/
structure Carries (apid : BitVec 11) (payload : Bytes) (ts : List Telemetry) : Prop where
  data : ts.flatMap Telemetry.data = payload
  length_le : ∀ t ∈ ts, t.data.length ≤ busDataLen
  apid : ∀ t ∈ ts, t.apid = apid
  grouping : ts.map Telemetry.grouping = [.standalone] ∨
    ∃ k, ts.map Telemetry.grouping = .first :: (List.replicate k .continuation ++ [.last])
  seqCnt : ts.map (fun t => t.seqCnt.toNat) = List.range ts.length

variable {apid : BitVec 11} {k : ℕ} {ss : List DataSegment}

theorem mem_telemetry {t : Telemetry} (ht : t ∈ telemetry apid k ss) :
    t.data.length ≤ busDataLen ∧ t.apid = apid := by
  induction k, ss using telemetry.induct with
  | case1 => simp [telemetry] at ht
  | case2 k s =>
    obtain rfl : t = packetFor apid _ k s := by simpa [telemetry] using ht
    exact ⟨s.2, rfl⟩
  | case3 k s s' ss ih =>
    rcases List.mem_cons.mp ht with rfl | ht
    · exact ⟨s.2, rfl⟩
    · exact ih ht

theorem flatMap_telemetry (apid : BitVec 11) (k : ℕ) (ss : List DataSegment) :
    (telemetry apid k ss).flatMap Telemetry.data = ss.flatMap Subtype.val := by
  induction k, ss using telemetry.induct with
  | case1 => rfl
  | case2 k s => simp [telemetry, packetFor]
  | case3 k s s' ss ih => rw [telemetry, List.flatMap_cons, ih]; rfl

theorem grouping_telemetry_succ (s : DataSegment) :
    (telemetry apid (k + 1) (s :: ss)).map Telemetry.grouping =
      List.replicate ss.length .continuation ++ [.last] := by
  induction ss generalizing k s with
  | nil => rfl
  | cons s' ss ih =>
    rw [telemetry, List.map_cons, ih]
    rfl

theorem seqCnt_telemetry (hk : k + ss.length ≤ 2 ^ 14) :
    (telemetry apid k ss).map (fun t => t.seqCnt.toNat) = List.range' k ss.length := by
  induction k, ss using telemetry.induct with
  | case1 => rfl
  | case2 k s =>
    simp [telemetry, packetFor] at hk ⊢
    omega
  | case3 k s s' ss ih =>
    rw [List.length_cons] at hk
    rw [telemetry, List.map_cons, ih (by omega), List.length_cons, List.range'_succ]
    congr 1
    exact Nat.mod_eq_of_lt (by omega)

/-- The segments of a payload carry it. -/
theorem carries_telemetry (apid : BitVec 11) {payload : Bytes} (h : payload.length < 2 ^ 16) :
    Carries apid payload (telemetry apid 0 (dataSegments payload)) := by
  have hlen : (dataSegments payload).length ≤ 2 ^ 14 := by
    rw [dataSegments, length_segments, busDataLen]
    omega
  refine ⟨?_, fun t ht => (mem_telemetry ht).1, fun t ht => (mem_telemetry ht).2, ?_, ?_⟩
  · rw [flatMap_telemetry, dataSegments, flatMap_segments]
  · rcases hss : dataSegments payload with _ | ⟨s, _ | ⟨s', ss⟩⟩
    · exact absurd hss (segments_ne_nil _)
    · exact .inl rfl
    · refine .inr ⟨ss.length, ?_⟩
      rw [telemetry, List.map_cons, grouping_telemetry_succ]
      rfl
  · rw [seqCnt_telemetry (by omega), length_telemetry, List.range_eq_range']

end Carries

/-! ## One IPC packet -/

section OnePacket

/-- The packet at the front of the buffer is cut into bus packets that carry its payload. -/
def Downlinked (type : ByteType) (p : Packetizer) (apid : BitVec 11) (payload : Bytes) : Prop :=
  ∃ ts, Carries apid payload ts ∧ handleTxPkts type p = .ok { p with
    ipcPktsBuffer := p.ipcPktsBuffer.tail
    busPktsBuffer := p.busPktsBuffer ++ ts.map Telemetry.frame }

variable {p : Packetizer} {apid : BitVec 11} {payload raw : Bytes} {ipcPkts : List Bytes}

theorem busPkts_toNat (apid : BitVec 11) (payload : Bytes) : busPkts apid.toNat payload =
    (telemetry apid 0 (dataSegments payload)).map Telemetry.frame := by
  rw [busPkts, BitVec.ofNat_toNat, BitVec.setWidth_eq]

/-- A payload that can be changed in place is always cut. -/
theorem downlinked_bytearray (hp : p.ipcPktsBuffer = raw :: ipcPkts)
    (hraw : TxPacket.encode apid.toNat payload = .ok raw) :
    Downlinked .bytearray p apid payload := by
  obtain ⟨-, hlen, -⟩ := TxPacket.encode_eq_ok_iff.mp hraw
  refine ⟨_, carries_telemetry apid hlen, ?_⟩
  rw [handleTxPkts_bytearray hp hraw, busPkts_toNat, hp]
  rfl

theorem downlinked_str_of_le (hp : p.ipcPktsBuffer = raw :: ipcPkts)
    (hraw : TxPacket.encode apid.toNat payload = .ok raw) (h : payload.length ≤ busDataLen) :
    Downlinked .str p apid payload := by
  obtain ⟨-, hlen, -⟩ := TxPacket.encode_eq_ok_iff.mp hraw
  refine ⟨_, carries_telemetry apid hlen, ?_⟩
  rw [handleTxPkts_str_of_le hp hraw h, busPkts_toNat, hp]
  rfl

theorem not_downlinked_str_of_lt (hp : p.ipcPktsBuffer = raw :: ipcPkts)
    (hraw : TxPacket.encode apid.toNat payload = .ok raw) (h : busDataLen < payload.length) :
    ¬ Downlinked .str p apid payload := by
  rintro ⟨ts, -, hok⟩
  rw [handleTxPkts_str_of_lt hp hraw h] at hok
  exact absurd hok (by simp)

/-- **The payload that `struct.unpack` returns is cut into packets when it fits in one.** -/
theorem downlinked_iff (hp : p.ipcPktsBuffer = raw :: ipcPkts)
    (hraw : TxPacket.encode apid.toNat payload = .ok raw) :
    Downlinked .str p apid payload ↔ payload.length ≤ busDataLen := by
  constructor
  · intro h
    exact Nat.le_of_not_lt fun hlt => not_downlinked_str_of_lt hp hraw hlt h
  · exact downlinked_str_of_le hp hraw

theorem downlinked_example :
    ∃ raw, TxPacket.encode (0x301 : BitVec 11).toNat [0x07] = .ok raw ∧
      Downlinked .str ⟨[raw], [], []⟩ 0x301 [0x07] := by
  have hapid : (0x301 : BitVec 11).toNat < 2 ^ 16 := by decide
  have hlen : ([0x07] : Bytes).length < 2 ^ 16 := by decide
  have hraw := TxPacket.encode_eq hapid hlen
  exact ⟨_, hraw, (downlinked_iff rfl hraw).mpr (by simp [busDataLen])⟩

/-- A payload one byte longer than a packet holds. -/
def longPayload : Bytes := List.replicate 4083 0

theorem length_longPayload : longPayload.length = 4083 := List.length_replicate

theorem not_downlinked_longPayload :
    ∃ raw, TxPacket.encode (0x301 : BitVec 11).toNat longPayload = .ok raw ∧
      ¬ Downlinked .str ⟨[raw], [], []⟩ 0x301 longPayload := by
  have hapid : (0x301 : BitVec 11).toNat < 2 ^ 16 := by decide
  have hlen : longPayload.length < 2 ^ 16 := by rw [length_longPayload]; decide
  have hraw := TxPacket.encode_eq hapid hlen
  exact ⟨_, hraw, not_downlinked_str_of_lt rfl hraw (by rw [length_longPayload]; decide)⟩

end OnePacket

/-! ## Runs -/

section Runs

/-- An IPC packet, and the bytes of it that a socket delivers. -/
structure Message where
  apid : ℕ
  payload : Bytes
  raw : Bytes
  encoded : TxPacket.encode apid payload = .ok raw

/-- The bus packets for a message. -/
def Message.busPkts (m : Message) : List Bytes := Packetizer.busPkts m.apid m.payload

/-- The packets received and the writes, for messages with the device at each. -/
def inputs (ms : List (Message × SpiWrite)) : List (Bytes × SpiWrite) :=
  ms.map fun m => (m.1.raw, m.2)

/-- The run over the messages raises no exception, and after each iteration every bus packet made so
far has been written, in order and once, so that none waits. -/
def NoBacklog (ms : List (Message × SpiWrite)) : Prop :=
  ∀ n ≤ ms.length, ∃ p, run .bytearray init (inputs (ms.take n)) = .ok p ∧
    p.spi = (ms.take n).flatMap (fun m => m.1.busPkts) ∧ p.busPktsBuffer = []

/-- The device takes the packets of its message. -/
def Writable (m : Message × SpiWrite) : Prop := ∀ pkt ∈ m.1.busPkts, m.2 pkt = .ok ()

/-- The queue of bus packets. -/
def queue (p : Packetizer) : Fifo Bytes := ⟨p.busPktsBuffer, p.spi⟩

theorem sendBusPkts_cons {write : SpiWrite} {p : Packetizer} {pkt : Bytes} {pkts : List Bytes}
    (h : p.busPktsBuffer = pkt :: pkts) : sendBusPkts write p = write pkt >>= fun _ =>
      .ok { p with busPktsBuffer := pkts, spi := p.spi ++ [pkt] } := by
  rw [sendBusPkts, h]
  rfl

theorem queue_sendBusPkts {write : SpiWrite} {p p' : Packetizer}
    (h : sendBusPkts write p = .ok p') :
    p'.ipcPktsBuffer = p.ipcPktsBuffer ∧ queue p' = (queue p).serve := by
  cases hbus : p.busPktsBuffer with
  | nil =>
    rw [sendBusPkts, hbus] at h
    obtain rfl := Except.ok.inj h
    exact ⟨rfl, by simp [queue, Fifo.serve, hbus]⟩
  | cons pkt pkts =>
    rw [sendBusPkts_cons hbus] at h
    obtain ⟨-, -, hp⟩ := bind_eq_ok.mp h
    obtain rfl := Except.ok.inj hp
    exact ⟨rfl, by simp [queue, Fifo.serve, hbus]⟩

section Messages

variable {p p' : Packetizer} {m : Message × SpiWrite} {ms : List (Message × SpiWrite)}

theorem run_cons (p : Packetizer) (m : Message × SpiWrite) (ms : List (Message × SpiWrite)) :
    run .bytearray p (inputs (m :: ms)) =
      iteration .bytearray p m.1.raw m.2 >>= fun p' => run .bytearray p' (inputs ms) := by
  rw [inputs, List.map_cons, run, List.foldlM_cons]
  rfl

theorem iteration_message (m : Message × SpiWrite) (hp : p.ipcPktsBuffer = []) :
    iteration .bytearray p m.1.raw m.2 = sendBusPkts m.2 { p with
      ipcPktsBuffer := [], busPktsBuffer := p.busPktsBuffer ++ m.1.busPkts } := by
  have hhandle := handleTxPkts_bytearray (p := { p with ipcPktsBuffer := [m.1.raw] }) rfl
    m.1.encoded
  rw [iteration, hp, List.nil_append, hhandle]
  rfl

/-- One iteration is one round of the queue. -/
theorem queue_iteration (hp : p.ipcPktsBuffer = [])
    (h : iteration .bytearray p m.1.raw m.2 = .ok p') :
    p'.ipcPktsBuffer = [] ∧ queue p' = (queue p).round m.1.busPkts := by
  rw [iteration_message m hp] at h
  exact queue_sendBusPkts h

/-- **The loop is a queue that serves one packet a round.** -/
theorem queue_run (hp : p.ipcPktsBuffer = []) (h : run .bytearray p (inputs ms) = .ok p') :
    queue p' = (queue p).rounds (ms.map fun m => m.1.busPkts) := by
  induction ms generalizing p with
  | nil =>
    obtain rfl := Except.ok.inj h
    rfl
  | cons m ms ih =>
    rw [run_cons] at h
    obtain ⟨p₁, hit, hrun⟩ := bind_eq_ok.mp h
    obtain ⟨hipc, hqueue⟩ := queue_iteration hp hit
    rw [ih hipc hrun, hqueue]
    rfl

theorem length_busPkts (m : Message) :
    m.busPkts.length = (m.payload.length - 1) / busDataLen + 1 := by
  rw [Message.busPkts, busPkts, List.length_map, length_telemetry, dataSegments, length_segments]

theorem busPkts_ne_nil (m : Message) : m.busPkts ≠ [] := by
  rw [← List.length_pos_iff, length_busPkts]
  exact Nat.succ_pos _

theorem length_busPkts_eq_one_iff (m : Message) :
    m.busPkts.length = 1 ↔ m.payload.length ≤ busDataLen := by
  rw [Message.busPkts, busPkts, List.length_map, length_telemetry, dataSegments,
    length_segments_eq_one_iff]

/-- What a run that raises no exception leaves in the buffer, and what it has written. -/
theorem run_init_ok (h : run .bytearray init (inputs ms) = .ok p) :
    p.spi ++ p.busPktsBuffer = ms.flatMap (fun m => m.1.busPkts) ∧
    (p.busPktsBuffer = [] ↔ ∀ m ∈ ms, m.1.payload.length ≤ busDataLen) := by
  have hq := queue_run rfl h
  have hne : ∀ batch ∈ ms.map fun m => m.1.busPkts, batch ≠ [] := by
    simp only [List.forall_mem_map]
    exact fun m _ => busPkts_ne_nil m.1
  have hwait : p.busPktsBuffer = [] ↔ _ := hq ▸ Fifo.waiting_rounds_eq_nil_iff hne
  have hall : p.spi ++ p.busPktsBuffer = _ := hq ▸ Fifo.served_append_waiting_rounds _ (queue init)
  refine ⟨by simpa [queue, init, List.flatMap] using hall, hwait.trans ?_⟩
  simp only [List.forall_mem_map, length_busPkts_eq_one_iff]

/-- When every payload fits in one packet, the run goes on as long as the device takes these. -/
theorem run_ok_iff (hp : p.ipcPktsBuffer = []) (hbus : p.busPktsBuffer = [])
    (hms : ∀ m ∈ ms, m.1.payload.length ≤ busDataLen) :
    (∃ p', run .bytearray p (inputs ms) = .ok p') ↔ ∀ m ∈ ms, Writable m := by
  induction ms generalizing p with
  | nil => exact iff_of_true ⟨p, rfl⟩ (by simp)
  | cons m ms ih =>
    obtain ⟨pkt, hpkt⟩ : ∃ pkt, m.1.busPkts = [pkt] := List.length_eq_one_iff.mp
      ((length_busPkts_eq_one_iff m.1).mpr (hms m List.mem_cons_self))
    have htakes : Writable m ↔ m.2 pkt = .ok () := by simp [Writable, hpkt]
    rw [List.forall_mem_cons, htakes, run_cons, iteration_message m hp, hbus, hpkt,
      List.nil_append, sendBusPkts_cons rfl]
    cases m.2 pkt with
    | error e => simp
    | ok =>
      rw [ok_bind, ok_bind, and_iff_right rfl]
      exact ih rfl rfl fun m' hm' => hms m' (List.mem_cons_of_mem m hm')

theorem NoBacklog.length_le (h : NoBacklog ms) : ∀ m ∈ ms, m.1.payload.length ≤ busDataLen := by
  obtain ⟨p, hrun, -, hwait⟩ := h ms.length le_rfl
  rw [List.take_length] at hrun
  exact (run_init_ok hrun).2.mp hwait

/-- **No packet waits exactly when every payload fits in one packet, and the device takes it.** -/
theorem noBacklog_iff_writable :
    NoBacklog ms ↔ ∀ m ∈ ms, m.1.payload.length ≤ busDataLen ∧ Writable m := by
  constructor
  · intro h m hm
    obtain ⟨p, hrun, -⟩ := h ms.length le_rfl
    rw [List.take_length] at hrun
    exact ⟨h.length_le m hm, (run_ok_iff (p := init) rfl rfl h.length_le).mp ⟨p, hrun⟩ m hm⟩
  · intro h n _
    have hfits : ∀ m ∈ ms.take n, m.1.payload.length ≤ busDataLen :=
      fun m hm => (h m (List.mem_of_mem_take hm)).1
    obtain ⟨p, hrun⟩ := (run_ok_iff (p := init) rfl rfl hfits).mpr
      fun m hm => (h m (List.mem_of_mem_take hm)).2
    obtain ⟨hall, hiff⟩ := run_init_ok hrun
    have hwait := hiff.mpr hfits
    exact ⟨p, hrun, by simpa [hwait] using hall, hwait⟩

end Messages

/-- A message that takes two packets. -/
def longMessage : Message where
  apid := 0x301
  payload := longPayload
  raw := leBytes 2 0x301 ++ (leBytes 2 longPayload.length ++ longPayload)
  encoded := TxPacket.encode_eq (by decide) (by rw [length_longPayload]; decide)

/-- It leaves a packet behind on a device that takes the write, and on one that refuses it. -/
theorem not_noBacklog_longMessage :
    ¬ NoBacklog [(longMessage, fun _ => .ok ())] ∧
    ¬ NoBacklog [(longMessage, fun _ => .error .ioError)] := by
  have hlong : ∀ write : SpiWrite, ¬ NoBacklog [(longMessage, write)] := by
    intro write h
    have hle : longPayload.length ≤ busDataLen :=
      h.length_le (longMessage, write) List.mem_cons_self
    rw [length_longPayload] at hle
    exact absurd hle (by decide)
  exact ⟨hlong _, hlong _⟩

end Runs

end ClickA.Bus
