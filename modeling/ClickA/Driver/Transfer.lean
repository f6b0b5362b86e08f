import ClickA.Driver.Write
import ClickA.Stream.Marker
import ClickA.Stream.Memory
import ClickA.Stream.Register

/-!
# The transfers of the driver

An interrupt of the other side starts a transfer, and each completion either asks for the rest of
the packet it has found or ends the transaction: the packet is copied from the receive buffer to the
fifo of the reader.

Pointers are positions in the memory from the receive buffer on.

## Main definitions

* `Xfer`, `SpiData`: a transfer, and the state of the driver
* `spiXfer`, `interruptHandler`, `spiXferComplete`: the handlers
* `Event`, `step`, `run`: the driver over writes, interrupts, completions and reads

## Main results

* `parse_of_completes`, `parse_of_not_suffix`: the search for the sync marker
* `parse_header`, `parse_payload`: what follows the marker
* `outcome_parse`: the loop leaves the queue alone, and asks for one transfer at most
-/

namespace ClickA.Driver

open Python (Bytes)
open Stream

/-- A transfer: the data to transmit, and where and how much to receive. -/
structure Xfer where
  txBuf : Option Bytes
  rxBuf : ℕ
  len : ℕ

/-- `spi_data_t`, with the queue, the memory and the fifo that it points to. `pending` is the
transfer that `spi_async` has accepted, `xfers` lists the transfers that were issued, and `copies`
the header and the payload length of each packet that was copied into the fifo. -/
structure SpiData where
  queue : TxQueue
  sync : BitVec 32
  readLen : ℕ
  payloadLen : ℕ
  apid : ℕ
  readPtr : ℕ
  header : ℕ
  tx : Option Packet
  rx : ℕ → UInt8
  busy : Bool
  rxFifo : Bytes
  pending : Option Xfer
  xfers : List Xfer
  copies : List (ℕ × ℕ)

/-- The data when the driver is loaded. -/
def SpiData.init : SpiData where
  queue := .empty
  sync := 0
  readLen := 0
  payloadLen := 0
  apid := 0
  readPtr := 0
  header := 0
  tx := none
  rx := fun _ => 0
  busy := false
  rxFifo := []
  pending := none
  xfers := []
  copies := []

/-! ## The handlers -/

/-- `spi_data_init`. -/
def spiDataInit (d : SpiData) : SpiData :=
  { d with
    sync := 0, readLen := 0, payloadLen := 0, apid := 0, busy := true, readPtr := 0, header := 0
    tx := d.queue.packets.head? }

/-- `spi_xfer`, when `spi_async` accepts the transfer or not. -/
def spiXfer (accepted : Bool) (d : SpiData) (rx len : ℕ) : SpiData :=
  let xfer : Xfer := ⟨d.tx.map Packet.data, rx, len⟩
  { d with
    readLen := (d.readLen + len) % 2 ^ 16
    readPtr := rx
    pending := if accepted then some xfer else d.pending
    xfers := d.xfers ++ [xfer] }

/-- `interrupt_handler`. -/
def interruptHandler (accepted : Bool) (d : SpiData) : SpiData :=
  if d.busy = false then
    let d := spiDataInit d
    match d.tx with
    | some tx =>
      let d := { d with queue := { d.queue with packets := d.queue.packets.tail } }
      spiXfer accepted d 0 tx.len
    | none => spiXfer accepted d 0 defaultReadLen
  else d

/-- How the parsing loop of `spi_xfer_complete` ends: the handler returns, or goes on behind the
loop. -/
inductive Parsed
  | returned (d : SpiData)
  | left (d : SpiData)

/-- The APID of a header. -/
def headerApid (mem : ℕ → UInt8) (header : ℕ) : ℕ :=
  ((mem header).toNat % 8) <<< 8 ||| (mem (header + 1)).toNat

/-- The payload length of a header, a `uint16_t`. -/
def headerPayloadLen (mem : ℕ → UInt8) (header : ℕ) : ℕ :=
  (((mem (header + 4)).toNat <<< 8 ||| (mem (header + 5)).toNat) + 1) % 2 ^ 16

/-- The lengths that fit the receive buffer. -/
def ValidLen (payloadLen : ℕ) : Prop :=
  payloadLen > 0 ∧ payloadLen ≤ packetTmMaxLen - packetOverhead

instance (n : ℕ) : Decidable (ValidLen n) := inferInstanceAs (Decidable (_ ∧ _))

/-- One byte is taken for the sync marker. -/
def readSync (d : SpiData) : SpiData :=
  { d with
    readLen := d.readLen - 1, sync := shiftIn d.sync (d.rx d.readPtr), readPtr := d.readPtr + 1 }

/-- The header is taken, and passed over. -/
def readHeader (d : SpiData) : SpiData :=
  { d with
    apid := headerApid d.rx d.header
    payloadLen := headerPayloadLen d.rx d.header
    readPtr := d.readPtr + packetHeaderLen
    readLen := (2 ^ 16 + d.readLen - packetHeaderLen) % 2 ^ 16 }

/-- What was read is passed over, and a transfer asks for more, up to a length. -/
def requestMore (accepted : Bool) (d : SpiData) (len : ℕ) : SpiData :=
  let d := { d with readPtr := d.readPtr + d.readLen }
  spiXfer accepted d d.readPtr (len - d.readLen)

/-- How far the loop has come: before the marker, before the header, or behind it. -/
def parseStage (d : SpiData) : ℕ :=
  if d.payloadLen ≠ 0 then 0 else if d.sync = packetSyncMarker then 1 else 2

theorem parseStage_readSync_le {d : SpiData} (h : d.sync ≠ packetSyncMarker) :
    parseStage (readSync d) ≤ parseStage d := by
  unfold parseStage readSync
  rw [if_neg h]
  dsimp only
  split_ifs <;> decide

theorem parseStage_readHeader_lt {d : SpiData} (hs : d.sync = packetSyncMarker)
    (hp : d.payloadLen = 0) (hv : ValidLen (readHeader d).payloadLen) :
    parseStage (readHeader d) < parseStage d := by
  unfold parseStage
  rw [if_pos (Nat.ne_of_gt hv.1), if_neg (by simpa using hp), if_pos hs]
  decide

/-- The parsing loop of `spi_xfer_complete`. -/
def parse (accepted : Bool) (d : SpiData) : Parsed :=
  if d.readLen = 0 then .left d
  else if d.sync ≠ packetSyncMarker then
    if (readSync d).sync = packetSyncMarker then
      let d := { readSync d with header := (readSync d).readPtr }
      if d.readLen < packetHeaderLen then .returned (requestMore accepted d packetHeaderLen)
      else parse accepted d
    else parse accepted (readSync d)
  else if d.payloadLen = 0 then
    if ValidLen (readHeader d).payloadLen then
      if (readHeader d).readLen < (readHeader d).payloadLen then
        .returned (requestMore accepted (readHeader d) (readHeader d).payloadLen)
      else parse accepted (readHeader d)
    else .left { d with apid := (readHeader d).apid, payloadLen := 0 }
  else parse accepted { d with readPtr := d.readPtr + d.readLen, readLen := 0 }
termination_by (parseStage d, d.readLen)
decreasing_by
  · refine (Prod.lex_def).mpr ((parseStage_readSync_le ‹_›).lt_or_eq.imp id fun h => ⟨h, ?_⟩)
    exact Nat.sub_lt (Nat.pos_of_ne_zero ‹_›) Nat.one_pos
  · refine (Prod.lex_def).mpr ((parseStage_readSync_le ‹_›).lt_or_eq.imp id fun h => ⟨h, ?_⟩)
    exact Nat.sub_lt (Nat.pos_of_ne_zero ‹_›) Nat.one_pos
  · exact Prod.Lex.left _ _ (parseStage_readHeader_lt (not_not.mp ‹_›) ‹_› ‹_›)
  · exact Prod.Lex.right _ (Nat.pos_of_ne_zero ‹_›)

/-- The bytes of a packet in memory, from its marker on. -/
def packetAt (mem : ℕ → UInt8) (header payloadLen : ℕ) : Bytes :=
  bytesAt mem (header - packetSyncLen) (packetOverhead + payloadLen)

/-- What `spi_xfer_complete` does behind the loop. -/
def finish (d : SpiData) : SpiData :=
  if d.payloadLen > 0 ∧ d.apid ≠ noopApid ∧
      rxFifoLen - d.rxFifo.length ≥ packetOverhead + d.payloadLen then
    { d with
      rxFifo := d.rxFifo ++ packetAt d.rx d.header d.payloadLen
      copies := d.copies ++ [(d.header, d.payloadLen)]
      busy := false }
  else { d with busy := false }

/-- The transmitted packet, if any, is freed. -/
def freeTx (d : SpiData) : SpiData :=
  match d.tx with
  | some tx => { d with queue := packetFree d.queue tx, tx := none }
  | none => d

/-- `spi_xfer_complete`. -/
def spiXferComplete (accepted : Bool) (d : SpiData) : SpiData :=
  match parse accepted (freeTx d) with
  | .returned d => d
  | .left d => finish d

/-- The pending transfer is done: its bytes are in memory, and the handler runs. -/
def complete (accepted : Bool) (bytes : Bytes) (xfer : Xfer) (d : SpiData) : SpiData :=
  spiXferComplete accepted { d with rx := store d.rx xfer.rxBuf bytes, pending := none }

/-! ## Runs -/

/-- What happens to the driver: a write, an interrupt, the end of the pending transfer with the
bytes it received, and a read of the fifo. Handlers that issue a transfer come with the answer of
`spi_async`. -/
inductive Event
  | write (k : Kernel) (buf : Bytes)
  | interrupt (accepted : Bool)
  | complete (accepted : Bool) (bytes : Bytes)
  | read (len : ℕ)

/-- One event, if it can happen: only a pending transfer ends, and `packet_read` waits until the
fifo holds what it is asked for. -/
def step (d : SpiData) : Event → Option SpiData
  | .write k buf => some { d with queue := (packetWrite k d.queue buf).1 }
  | .interrupt accepted => some (interruptHandler accepted d)
  | .complete accepted bytes =>
    match d.pending with
    | some xfer => if bytes.length = xfer.len then some (complete accepted bytes xfer d) else none
    | none => none
  | .read len => if len ≤ d.rxFifo.length then some { d with rxFifo := d.rxFifo.drop len } else none

/-- A run over a list of events. -/
def run (d : SpiData) (es : List Event) : Option SpiData := es.foldlM step d

theorem run_nil (d : SpiData) : run d [] = some d := rfl

theorem run_cons (d : SpiData) (e : Event) (es : List Event) :
    run d (e :: es) = (step d e).bind fun d' => run d' es := rfl

/-- Only a pending transfer ends. -/
theorem step_complete {d d' : SpiData} {accepted : Bool} {bytes : Bytes}
    (h : step d (.complete accepted bytes) = some d') : ∃ xfer, d.pending = some xfer ∧
      bytes.length = xfer.len ∧ d' = complete accepted bytes xfer d := by
  unfold step at h
  cases hpending : d.pending with
  | none => simp [hpending] at h
  | some xfer =>
    simp only [hpending] at h
    split_ifs at h with hlen
    exact ⟨xfer, rfl, hlen, (Option.some.inj h).symm⟩

theorem step_of_pending {d : SpiData} {xfer : Xfer} {accepted : Bool} {bytes : Bytes}
    (hpending : d.pending = some xfer) (hlen : bytes.length = xfer.len) :
    step d (.complete accepted bytes) = some (complete accepted bytes xfer d) := by
  simp only [step, hpending, if_pos hlen]

/-- A read takes what it is asked for from the fifo. -/
theorem step_read {d d' : SpiData} {len : ℕ} (h : step d (.read len) = some d') :
    len ≤ d.rxFifo.length ∧ d' = { d with rxFifo := d.rxFifo.drop len } := by
  unfold step at h
  dsimp only at h
  split_ifs at h with hlen
  exact ⟨hlen, (Option.some.inj h).symm⟩

/-! ## The loop

The search for the marker takes bytes until the register equals it. -/

section Parse

variable {accepted : Bool} {d : SpiData}

theorem packetSyncMarker_eq : packetSyncMarker = register Bus.ccsdsSync := by decide

/-- The register tells whether the bytes taken so far end with the marker. -/
theorem register_eq_marker_iff (p : Bytes) :
    register p = packetSyncMarker ↔ Bus.ccsdsSync <:+ p := by
  rw [packetSyncMarker_eq]
  exact register_eq_iff rfl (by decide)

/-- The handler's end, for a loop that ends in this way. -/
def Parsed.finished : Parsed → SpiData
  | .returned d => d
  | .left d => finish d

/-- The state in which the loop starts: the bytes are in memory, and the packet is freed. -/
def received (d : SpiData) (xfer : Xfer) (bytes : Bytes) : SpiData :=
  freeTx { d with rx := store d.rx xfer.rxBuf bytes, pending := none }

theorem complete_eq (bytes : Bytes) (xfer : Xfer) :
    complete accepted bytes xfer d = (parse accepted (received d xfer bytes)).finished := by
  unfold complete spiXferComplete received
  cases parse accepted _ <;> rfl

/-- Freeing the transmitted packet changes the queue's length only. -/
theorem freeTx_eq (d : SpiData) : ∃ len, freeTx d =
    { d with queue := { d.queue with len := len }, tx := none } := by
  obtain ⟨queue, sync, readLen, payloadLen, apid, readPtr, header, tx⟩ := d
  unfold freeTx
  cases tx with
  | none => exact ⟨queue.len, rfl⟩
  | some tx => exact ⟨_, rfl⟩

theorem parse_of_readLen (h : d.readLen = 0) : parse accepted d = .left d := by
  rw [parse, if_pos h]

/-- The state when the marker is found. -/
def atHeader (d : SpiData) (j : ℕ) : SpiData :=
  { d with
    sync := packetSyncMarker
    readLen := d.readLen - j
    readPtr := d.readPtr + j
    header := d.readPtr + j }

theorem atHeader_readSync (d : SpiData) (j : ℕ) :
    atHeader (readSync d) j = atHeader d (j + 1) := by
  have hptr : d.readPtr + 1 + j = d.readPtr + (j + 1) := by omega
  unfold atHeader readSync
  dsimp only
  rw [hptr, Nat.sub_sub, Nat.add_comm 1 j]

theorem sync_readSync {p : Bytes} (h : d.sync = register p) :
    (readSync d).sync = register (p ++ [d.rx d.readPtr]) := by
  rw [register_concat, ← h, readSync]

/-- The search takes the bytes up to the end of the first marker. -/
theorem parse_of_completes {p : Bytes} {j : ℕ} (hsync : d.sync = register p)
    (hp : ¬ Bus.ccsdsSync <:+ p) (hj : j ≤ d.readLen)
    (hc : Completes Bus.ccsdsSync p (bytesAt d.rx d.readPtr j)) :
    parse accepted d =
      if (atHeader d j).readLen < packetHeaderLen then
        .returned (requestMore accepted (atHeader d j) packetHeaderLen)
      else parse accepted (atHeader d j) := by
  induction j generalizing d p with
  | zero => exact absurd (by simpa using hc.1) hp
  | succ j ih =>
    have hne : d.sync ≠ packetSyncMarker := by
      rw [hsync]
      exact mt (register_eq_marker_iff p).mp hp
    have hsync' := sync_readSync hsync
    rw [bytesAt, completes_cons_iff hp] at hc
    rw [parse, if_neg (by omega), if_pos hne]
    by_cases hm : Bus.ccsdsSync <:+ p ++ [d.rx d.readPtr]
    · have hlen := congrArg List.length ((completes_nil_iff hm).mp hc)
      obtain rfl : j = 0 := by simpa using hlen
      have hfound : (readSync d).sync = packetSyncMarker := by
        rw [hsync']
        exact (register_eq_marker_iff _).mpr hm
      have hat : { readSync d with header := (readSync d).readPtr } = atHeader d 1 := by
        unfold atHeader
        rw [← hfound]
        rfl
      rw [if_pos hfound, hat]
    · have hnot : (readSync d).sync ≠ packetSyncMarker := by
        rw [hsync']
        exact mt (register_eq_marker_iff _).mp hm
      have hj' : j ≤ (readSync d).readLen := by
        unfold readSync
        dsimp only
        omega
      rw [if_neg hnot, ih hsync' hm hj' hc, atHeader_readSync]

/-- A search without a marker takes all bytes. -/
theorem parse_of_not_suffix {p : Bytes} (hsync : d.sync = register p)
    (hp : ∀ j ≤ d.readLen, ¬ Bus.ccsdsSync <:+ p ++ bytesAt d.rx d.readPtr j) :
    parse accepted d = .left { d with
      sync := register (p ++ bytesAt d.rx d.readPtr d.readLen)
      readLen := 0
      readPtr := d.readPtr + d.readLen } := by
  generalize hn : d.readLen = n at hp
  induction n generalizing d p with
  | zero =>
    rw [parse_of_readLen hn, bytesAt_zero, List.append_nil, ← hsync, Nat.add_zero, ← hn]
  | succ n ih =>
    have hne : d.sync ≠ packetSyncMarker := by
      rw [hsync]
      exact mt (register_eq_marker_iff p).mp (by simpa [bytesAt] using hp 0 (Nat.zero_le _))
    have hsync' := sync_readSync hsync
    have hnot : (readSync d).sync ≠ packetSyncMarker := by
      rw [hsync']
      exact mt (register_eq_marker_iff _).mp (hp 1 (by omega))
    have hp' : ∀ j ≤ n, ¬ Bus.ccsdsSync <:+
        (p ++ [d.rx d.readPtr]) ++ bytesAt d.rx (d.readPtr + 1) j := fun j hj => by
      rw [List.append_assoc, List.singleton_append]
      exact hp (j + 1) (by omega)
    have hlen : (readSync d).readLen = n := by
      unfold readSync
      dsimp only
      omega
    have hptr : d.readPtr + 1 + n = d.readPtr + (n + 1) := by omega
    rw [parse, if_neg (by omega), if_pos hne, if_neg hnot, ih hsync' hlen hp']
    unfold readSync
    dsimp only
    rw [List.append_assoc, List.singleton_append, hptr]
    rfl

/-- The header is complete: the loop asks for the rest of the payload, or has all of it, unless the
length is not valid. -/
theorem parse_header (hsync : d.sync = packetSyncMarker) (hpay : d.payloadLen = 0)
    (hlen : packetHeaderLen ≤ d.readLen) (hlt : d.readLen < 2 ^ 16) :
    parse accepted d =
      if ValidLen (headerPayloadLen d.rx d.header) then
        if d.readLen - packetHeaderLen < headerPayloadLen d.rx d.header then
          .returned (requestMore accepted
            { readHeader d with readLen := d.readLen - packetHeaderLen }
            (headerPayloadLen d.rx d.header))
        else .left { readHeader d with readPtr := d.readPtr + d.readLen, readLen := 0 }
      else .left { d with apid := headerApid d.rx d.header, payloadLen := 0 } := by
  have h6 : packetHeaderLen = 6 := rfl
  have hread : readHeader d = { readHeader d with readLen := d.readLen - packetHeaderLen } := by
    have hmod : (2 ^ 16 + d.readLen - packetHeaderLen) % 2 ^ 16 = d.readLen - packetHeaderLen := by
      omega
    unfold readHeader
    rw [hmod]
  have hpayload : (readHeader d).payloadLen = headerPayloadLen d.rx d.header := rfl
  have hrest : (readHeader d).readLen = d.readLen - packetHeaderLen := by rw [hread]
  rw [parse, if_neg (by omega), if_neg (by simpa using hsync), if_pos hpay, hpayload, hrest]
  split_ifs with hvalid hshort
  · rw [← hread]
  · have hptr : d.readPtr + packetHeaderLen + (d.readLen - packetHeaderLen) =
        d.readPtr + d.readLen := by omega
    have hpos : 0 < (readHeader d).payloadLen := hvalid.1
    have hsync' : (readHeader d).sync = packetSyncMarker := hsync
    rcases Nat.eq_zero_or_pos (d.readLen - packetHeaderLen) with hzero | hzero
    · have := hvalid.1
      omega
    rw [parse, if_neg (by rw [hrest]; omega), if_neg (by simpa using hsync'),
      if_neg (Nat.ne_of_gt hpos), parse_of_readLen rfl, hrest, ← hptr]
    rfl
  · rfl

/-- The payload is complete. -/
theorem parse_payload (hsync : d.sync = packetSyncMarker) (hpay : d.payloadLen ≠ 0)
    (hlen : d.readLen ≠ 0) :
    parse accepted d = .left { d with readPtr := d.readPtr + d.readLen, readLen := 0 } := by
  rw [parse, if_neg hlen, if_neg (by simpa using hsync), if_neg hpay, parse_of_readLen rfl]

end Parse

/-! ## What the loop leaves alone -/

section Outcome

/-- What a handler leaves that ends the transaction, or asks for one more transfer. -/
structure Outcome (accepted : Bool) (d d' : SpiData) : Prop where
  queue : d'.queue = d.queue
  tx : d'.tx = d.tx
  ends_or_asks : (d'.busy = false ∧ d'.xfers = d.xfers ∧ d'.pending = d.pending) ∨
    ∃ xfer, xfer.txBuf = d.tx.map Packet.data ∧ d'.busy = d.busy ∧ d'.xfers = d.xfers ++ [xfer] ∧
      d'.pending = if accepted then some xfer else d.pending

theorem Outcome.congr {accepted : Bool} {d m d' : SpiData} (h : Outcome accepted m d')
    (hqueue : m.queue = d.queue) (htx : m.tx = d.tx) (hxfers : m.xfers = d.xfers)
    (hpending : m.pending = d.pending) (hbusy : m.busy = d.busy) : Outcome accepted d d' := by
  obtain ⟨hq, ht, hout⟩ := h
  rw [htx, hxfers, hpending, hbusy] at hout
  exact ⟨hq.trans hqueue, ht.trans htx, hout⟩

theorem outcome_finish (accepted : Bool) (d : SpiData) : Outcome accepted d (finish d) := by
  unfold finish
  split_ifs
  · exact ⟨rfl, rfl, .inl ⟨rfl, rfl, rfl⟩⟩
  · exact ⟨rfl, rfl, .inl ⟨rfl, rfl, rfl⟩⟩

theorem outcome_requestMore (accepted : Bool) (d : SpiData) (len : ℕ) :
    Outcome accepted d (requestMore accepted d len) :=
  ⟨rfl, rfl, .inr ⟨_, rfl, rfl, rfl, rfl⟩⟩

/-- Whatever the loop reads, it leaves the queue alone. -/
theorem outcome_parse (accepted : Bool) (d : SpiData) :
    Outcome accepted d (parse accepted d).finished := by
  fun_induction parse accepted d with
  | case1 d hlen => exact outcome_finish accepted d
  | case2 d hlen hsync hfound d' hshort =>
    exact (outcome_requestMore accepted d' packetHeaderLen).congr rfl rfl rfl rfl rfl
  | case3 d hlen hsync hfound d' hwhole ih => exact ih.congr rfl rfl rfl rfl rfl
  | case4 d hlen hsync hnot ih => exact ih.congr rfl rfl rfl rfl rfl
  | case5 d hlen hsync hpay hvalid hshort =>
    exact (outcome_requestMore accepted (readHeader d) _).congr rfl rfl rfl rfl rfl
  | case6 d hlen hsync hpay hvalid hwhole ih => exact ih.congr rfl rfl rfl rfl rfl
  | case7 d hlen hsync hpay hvalid => exact (outcome_finish accepted _).congr rfl rfl rfl rfl rfl
  | case8 d hlen hsync hpay ih => exact ih.congr rfl rfl rfl rfl rfl

end Outcome

end ClickA.Driver
