import ClickA.Driver.Transfer

/-!
# The phases of a transaction

A transaction is one to three transfers. The first is searched for the marker; a second one brings
the rest of the header, if it was cut; the last brings the rest of the payload. What a completion
does in each phase is stated once here.

## Main definitions

* `Asks`, `Ends`: a handler asks for another transfer, or ends the transaction
* `Searching`, `AwaitsHeader`, `AwaitsPayload`: the phases

## Main results

* `complete_searching_whole`, `complete_awaitsHeader`, `complete_awaitsPayload`: a completion in
  each phase
-/

namespace ClickA.Driver

open Python (Bytes)
open Stream

variable {accepted : Bool} {d d' : SpiData} {xfer : Xfer} {bytes : Bytes}

/-! ## What a handler does -/

/-- The handler asks for another transfer. -/
structure Asks (accepted : Bool) (d d' : SpiData) (rxBuf len : ℕ) : Prop where
  rx : d'.rx = d.rx
  rxFifo : d'.rxFifo = d.rxFifo
  copies : d'.copies = d.copies
  busy : d'.busy = d.busy
  packets : d'.queue.packets = d.queue.packets
  tx : d'.tx = d.tx
  xfers : d'.xfers = d.xfers ++ [⟨d.tx.map Packet.data, rxBuf, len⟩]
  pending : d'.pending = if accepted then some ⟨d.tx.map Packet.data, rxBuf, len⟩ else d.pending

/-- The handler ends the transaction, and copies a packet to the fifo, if there is one. -/
structure Ends (d d' : SpiData) (packet : Option (ℕ × ℕ)) : Prop where
  rx : d'.rx = d.rx
  rxFifo : d'.rxFifo = d.rxFifo ++ packet.toList.flatMap fun p => packetAt d.rx p.1 p.2
  copies : d'.copies = d.copies ++ packet.toList
  busy : d'.busy = false
  packets : d'.queue.packets = d.queue.packets
  tx : d'.tx = d.tx
  xfers : d'.xfers = d.xfers
  pending : d'.pending = d.pending

/-- The packet that goes to the fifo: no no-op, and none without room. -/
def copied (d : SpiData) (apid header payloadLen : ℕ) : Option (ℕ × ℕ) :=
  if apid ≠ noopApid ∧ rxFifoLen - d.rxFifo.length ≥ packetOverhead + payloadLen then
    some (header, payloadLen)
  else none

theorem ends_finish_of_zero (h : d.payloadLen = 0) : Ends d (finish d) none := by
  unfold finish
  rw [if_neg (by omega)]
  exact ⟨rfl, by simp, by simp, rfl, rfl, rfl, rfl, rfl⟩

theorem ends_finish (h : 0 < d.payloadLen) :
    Ends d (finish d) (copied d d.apid d.header d.payloadLen) := by
  unfold finish copied
  by_cases hc : d.apid ≠ noopApid ∧
      rxFifoLen - d.rxFifo.length ≥ packetOverhead + d.payloadLen
  · rw [if_pos ⟨h, hc⟩, if_pos hc]
    exact ⟨rfl, by simp, by simp, rfl, rfl, rfl, rfl, rfl⟩
  · rw [if_neg (fun hand => hc hand.2), if_neg hc]
    exact ⟨rfl, by simp, by simp, rfl, rfl, rfl, rfl, rfl⟩

theorem asks_requestMore (accepted : Bool) (d : SpiData) (len : ℕ) :
    Asks accepted d (requestMore accepted d len) (d.readPtr + d.readLen) (len - d.readLen) :=
  ⟨rfl, rfl, rfl, rfl, rfl, rfl, rfl, rfl⟩

/-! ## Phases -/

/-- The first transfer is searched for the marker. -/
structure Searching (d : SpiData) (xfer : Xfer) : Prop where
  pending : d.pending = some xfer
  rxBuf : xfer.rxBuf = 0
  len_le : xfer.len ≤ packetTmMaxLen
  sync : d.sync = 0
  payloadLen : d.payloadLen = 0
  readPtr : d.readPtr = 0
  readLen : d.readLen = xfer.len

/-- The transfer brings the rest of a header. -/
structure AwaitsHeader (d : SpiData) (xfer : Xfer) (header : ℕ) : Prop where
  pending : d.pending = some xfer
  sync : d.sync = packetSyncMarker
  payloadLen : d.payloadLen = 0
  header_eq : d.header = header
  readPtr : d.readPtr = xfer.rxBuf
  readLen : d.readLen = packetHeaderLen

/-- The transfer brings the rest of a payload. -/
structure AwaitsPayload (d : SpiData) (xfer : Xfer) (header apid payloadLen : ℕ) : Prop where
  pending : d.pending = some xfer
  sync : d.sync = packetSyncMarker
  payloadLen_eq : d.payloadLen = payloadLen
  valid : ValidLen payloadLen
  apid_eq : d.apid = apid
  header_eq : d.header = header
  readLen : d.readLen = payloadLen

/-! ## Interrupts -/

/-- The length of the first transfer. -/
def firstLen (d : SpiData) : ℕ :=
  match d.queue.packets.head? with
  | some tx => tx.len
  | none => defaultReadLen

/-- An interrupt starts a transaction. -/
structure Starts (accepted : Bool) (d d' : SpiData) (xfer : Xfer) : Prop where
  rxBuf : xfer.rxBuf = 0
  len : xfer.len = firstLen d
  rx : d'.rx = d.rx
  rxFifo : d'.rxFifo = d.rxFifo
  copies : d'.copies = d.copies
  busy : d'.busy = true
  packets : d'.queue.packets = d.queue.packets.tail
  tx : d'.tx = d.queue.packets.head?
  xfers : d'.xfers = d.xfers ++ [xfer]
  pending : d'.pending = if accepted then some xfer else d.pending
  searching : firstLen d ≤ packetTmMaxLen → d'.pending = some xfer → Searching d' xfer

theorem starts_interruptHandler (hbusy : d.busy = false) :
    ∃ xfer, Starts accepted d (interruptHandler accepted d) xfer := by
  have hmod : firstLen d ≤ packetTmMaxLen → (0 + firstLen d) % 2 ^ 16 = firstLen d := by
    unfold packetTmMaxLen
    omega
  obtain ⟨⟨packets, len⟩, sync⟩ := d
  unfold interruptHandler
  rw [if_pos hbusy]
  cases packets with
  | nil =>
    exact ⟨⟨none, 0, defaultReadLen⟩, rfl, rfl, rfl, rfl, rfl, rfl, rfl, rfl, rfl, rfl,
      fun hmax hpending => ⟨hpending, rfl, hmax, rfl, rfl, rfl, hmod hmax⟩⟩
  | cons tx packets =>
    exact ⟨⟨some tx.data, 0, tx.len⟩, rfl, rfl, rfl, rfl, rfl, rfl, rfl, rfl, rfl, rfl,
      fun hmax hpending => ⟨hpending, rfl, hmax, rfl, rfl, rfl, hmod hmax⟩⟩

/-! ## Completions -/

section Complete

/-- Before the loop only the memory, the pending transfer and the transmitted packet change. -/
structure Received (d : SpiData) (xfer : Xfer) (bytes : Bytes) (m : SpiData) : Prop where
  rx : m.rx = store d.rx xfer.rxBuf bytes
  pending : m.pending = none
  tx : m.tx = none
  packets : m.queue.packets = d.queue.packets
  busy : m.busy = d.busy
  sync : m.sync = d.sync
  readLen : m.readLen = d.readLen
  payloadLen : m.payloadLen = d.payloadLen
  apid : m.apid = d.apid
  readPtr : m.readPtr = d.readPtr
  header : m.header = d.header
  rxFifo : m.rxFifo = d.rxFifo
  copies : m.copies = d.copies
  xfers : m.xfers = d.xfers

theorem received_received (d : SpiData) (xfer : Xfer) (bytes : Bytes) :
    Received d xfer bytes (received d xfer bytes) := by
  obtain ⟨len, h⟩ := freeTx_eq { d with rx := store d.rx xfer.rxBuf bytes, pending := none }
  unfold received
  rw [h]
  exact ⟨rfl, rfl, rfl, rfl, rfl, rfl, rfl, rfl, rfl, rfl, rfl, rfl, rfl, rfl⟩

/-- What the handler does with a complete header: `d` is the state in which the loop reads it. -/
structure HeaderRead (accepted : Bool) (d d' : SpiData) : Prop where
  invalid : ¬ ValidLen (headerPayloadLen d.rx d.header) → Ends d d' none
  short : ValidLen (headerPayloadLen d.rx d.header) →
    d.readLen - packetHeaderLen < headerPayloadLen d.rx d.header →
    Asks accepted d d' (d.readPtr + d.readLen)
        (headerPayloadLen d.rx d.header - (d.readLen - packetHeaderLen)) ∧
      (∀ xfer, d'.pending = some xfer → AwaitsPayload d' xfer d.header (headerApid d.rx d.header)
        (headerPayloadLen d.rx d.header))
  whole : ValidLen (headerPayloadLen d.rx d.header) →
    headerPayloadLen d.rx d.header ≤ d.readLen - packetHeaderLen →
    Ends d d' (copied d (headerApid d.rx d.header) d.header (headerPayloadLen d.rx d.header))

theorem headerRead_parse (hsync : d.sync = packetSyncMarker) (hpay : d.payloadLen = 0)
    (hlen : packetHeaderLen ≤ d.readLen) (hlt : d.readLen < 2 ^ 16) :
    HeaderRead accepted d (parse accepted d).finished := by
  rw [parse_header hsync hpay hlen hlt]
  constructor
  · intro hvalid
    rw [if_neg hvalid]
    have hends := ends_finish_of_zero
      (d := { d with apid := headerApid d.rx d.header, payloadLen := 0 }) rfl
    exact ⟨hends.rx, hends.rxFifo, hends.copies, hends.busy, hends.packets, hends.tx, hends.xfers,
      hends.pending⟩
  · intro hvalid hshort
    rw [if_pos hvalid, if_pos hshort]
    have hptr : d.readPtr + packetHeaderLen + (d.readLen - packetHeaderLen) =
        d.readPtr + d.readLen := by omega
    have hasks := asks_requestMore accepted
      { readHeader d with readLen := d.readLen - packetHeaderLen } (headerPayloadLen d.rx d.header)
    have hmod : (d.readLen - packetHeaderLen + (headerPayloadLen d.rx d.header -
        (d.readLen - packetHeaderLen))) % 2 ^ 16 = headerPayloadLen d.rx d.header := by
      have hle := hvalid.2
      unfold packetTmMaxLen at hle
      omega
    refine ⟨⟨hasks.rx, hasks.rxFifo, hasks.copies, hasks.busy, hasks.packets, hasks.tx, ?_, ?_⟩, ?_⟩
    · rw [← hptr]
      exact hasks.xfers
    · rw [← hptr]
      exact hasks.pending
    · intro xfer hxfer
      exact ⟨hxfer, hsync, rfl, hvalid, rfl, rfl, hmod⟩
  · intro hvalid hwhole
    rw [if_pos hvalid, if_neg (Nat.not_lt.mpr hwhole)]
    have hends := ends_finish (d := { readHeader d with
      readPtr := d.readPtr + d.readLen, readLen := 0 }) hvalid.1
    exact ⟨hends.rx, hends.rxFifo, hends.copies, hends.busy, hends.packets, hends.tx, hends.xfers,
      hends.pending⟩

/-- The first bytes of the memory are those received. -/
theorem bytesAt_received (hs : Searching d xfer) {j : ℕ} (hj : j ≤ bytes.length) :
    bytesAt (received d xfer bytes).rx 0 j = bytes.take j := by
  have hm := received_received d xfer bytes
  rw [← take_bytesAt _ 0 hj, hm.rx, hs.rxBuf, bytesAt_store]

theorem bytesAt_readPtr (hs : Searching d xfer) {j : ℕ} (hj : j ≤ bytes.length) :
    bytesAt (received d xfer bytes).rx (received d xfer bytes).readPtr j = bytes.take j := by
  have hm := received_received d xfer bytes
  rw [hm.readPtr, hs.readPtr, bytesAt_received hs hj]

theorem sync_received (hs : Searching d xfer) : (received d xfer bytes).sync = register [] :=
  (received_received d xfer bytes).sync.trans hs.sync

theorem readLen_received (bytes : Bytes) (hs : Searching d xfer) :
    (received d xfer bytes).readLen = xfer.len :=
  (received_received d xfer bytes).readLen.trans hs.readLen

/-- Without a marker nothing is copied. -/
theorem complete_searching_none (hs : Searching d xfer) (hb : bytes.length = xfer.len)
    (hnone : ∀ j ≤ xfer.len, ¬ Bus.ccsdsSync <:+ bytes.take j) :
    Ends (received d xfer bytes) (complete accepted bytes xfer d) none := by
  have hm := received_received d xfer bytes
  have hlen := readLen_received bytes hs
  have hp : ∀ j ≤ (received d xfer bytes).readLen, ¬ Bus.ccsdsSync <:+
      [] ++ bytesAt (received d xfer bytes).rx (received d xfer bytes).readPtr j := by
    intro j hj
    rw [List.nil_append, bytesAt_readPtr hs (by omega)]
    exact hnone j (by omega)
  rw [complete_eq, parse_of_not_suffix (sync_received hs) hp]
  have hends := ends_finish_of_zero (d := { received d xfer bytes with
    sync := register ([] ++ bytesAt (received d xfer bytes).rx (received d xfer bytes).readPtr
      (received d xfer bytes).readLen)
    readLen := 0
    readPtr := (received d xfer bytes).readPtr + (received d xfer bytes).readLen })
    (hm.payloadLen.trans hs.payloadLen)
  exact ⟨hends.rx, hends.rxFifo, hends.copies, hends.busy, hends.packets, hends.tx, hends.xfers,
    hends.pending⟩

variable {h : ℕ}

/-- The loop up to the marker. -/
theorem parse_searching (hs : Searching d xfer) (hb : bytes.length = xfer.len)
    (hle : h ≤ xfer.len) (hfirst : FirstEnd Bus.ccsdsSync (bytes.take h)) :
    parse accepted (received d xfer bytes) =
      if (atHeader (received d xfer bytes) h).readLen < packetHeaderLen then
        .returned (requestMore accepted (atHeader (received d xfer bytes) h) packetHeaderLen)
      else parse accepted (atHeader (received d xfer bytes) h) := by
  have hlen := readLen_received bytes hs
  refine parse_of_completes (sync_received hs) (by decide) (by omega) ?_
  rw [bytesAt_readPtr hs (by omega)]
  simpa only [Completes, FirstEnd, List.nil_append] using hfirst

/-- A header that is cut is asked for. -/
theorem complete_searching_split (hs : Searching d xfer) (hb : bytes.length = xfer.len)
    (hle : h ≤ xfer.len) (hfirst : FirstEnd Bus.ccsdsSync (bytes.take h))
    (hsplit : xfer.len < h + packetHeaderLen) :
    Asks accepted (received d xfer bytes) (complete accepted bytes xfer d) xfer.len
        (h + packetHeaderLen - xfer.len) ∧
      ∀ x, (complete accepted bytes xfer d).pending = some x →
        AwaitsHeader (complete accepted bytes xfer d) x h := by
  have hm := received_received d xfer bytes
  have h6 : packetHeaderLen = 6 := rfl
  have hptr : (received d xfer bytes).readPtr = 0 := hm.readPtr.trans hs.readPtr
  have hrest : (atHeader (received d xfer bytes) h).readLen = xfer.len - h := by
    unfold atHeader
    dsimp only
    rw [readLen_received bytes hs]
  have hpos : (atHeader (received d xfer bytes) h).readPtr +
      (atHeader (received d xfer bytes) h).readLen = xfer.len := by
    rw [hrest]
    unfold atHeader
    dsimp only
    rw [hptr]
    omega
  have hmod : (xfer.len - h + (packetHeaderLen - (xfer.len - h))) % 2 ^ 16 = packetHeaderLen := by
    omega
  have hasks := asks_requestMore accepted (atHeader (received d xfer bytes) h)
    packetHeaderLen
  rw [hpos, hrest, show packetHeaderLen - (xfer.len - h) = h + packetHeaderLen - xfer.len by omega]
    at hasks
  rw [complete_eq, parse_searching hs hb hle hfirst, if_pos (by rw [hrest]; omega)]
  refine ⟨⟨hasks.rx, hasks.rxFifo, hasks.copies, hasks.busy, hasks.packets, hasks.tx, hasks.xfers,
    hasks.pending⟩, fun x hx => ⟨hx, rfl, hm.payloadLen.trans hs.payloadLen, ?_, ?_, ?_⟩⟩
  · show (received d xfer bytes).readPtr + h = h
    rw [hptr, Nat.zero_add]
  · show (atHeader (received d xfer bytes) h).readPtr +
      (atHeader (received d xfer bytes) h).readLen = x.rxBuf
    have hpending := hasks.pending.symm.trans hx
    cases accepted with
    | false => exact absurd (hm.pending.symm.trans hpending) (by simp)
    | true =>
      obtain rfl := Option.some.inj hpending
      exact hpos
  · show ((atHeader (received d xfer bytes) h).readLen +
      (packetHeaderLen - (atHeader (received d xfer bytes) h).readLen)) % 2 ^ 16 = packetHeaderLen
    rw [hrest, hmod]

/-- A header that is whole is read. -/
theorem complete_searching_whole (hs : Searching d xfer) (hb : bytes.length = xfer.len)
    (hle : h + packetHeaderLen ≤ xfer.len) (hfirst : FirstEnd Bus.ccsdsSync (bytes.take h)) :
    HeaderRead accepted (atHeader (received d xfer bytes) h) (complete accepted bytes xfer d) := by
  have hm := received_received d xfer bytes
  have h6 : packetHeaderLen = 6 := rfl
  have hmax := hs.len_le
  unfold packetTmMaxLen at hmax
  have hrest : (atHeader (received d xfer bytes) h).readLen = xfer.len - h := by
    unfold atHeader
    dsimp only
    rw [readLen_received bytes hs]
  rw [complete_eq, parse_searching hs hb (by omega) hfirst, if_neg (by rw [hrest]; omega)]
  exact headerRead_parse rfl (hm.payloadLen.trans hs.payloadLen) (by rw [hrest]; omega)
    (by rw [hrest]; omega)

theorem complete_awaitsHeader (accepted : Bool) (bytes : Bytes) (hs : AwaitsHeader d xfer h) :
    HeaderRead accepted (received d xfer bytes) (complete accepted bytes xfer d) := by
  have hm := received_received d xfer bytes
  have hlen := hm.readLen.trans hs.readLen
  rw [complete_eq]
  refine headerRead_parse (hm.sync.trans hs.sync) (hm.payloadLen.trans hs.payloadLen) hlen.ge ?_
  rw [hlen]
  decide

theorem complete_awaitsPayload (accepted : Bool) (bytes : Bytes) {apid payloadLen : ℕ}
    (hs : AwaitsPayload d xfer h apid payloadLen) :
    Ends (received d xfer bytes) (complete accepted bytes xfer d)
      (copied (received d xfer bytes) apid h payloadLen) := by
  have hm := received_received d xfer bytes
  have hpay := hm.payloadLen.trans hs.payloadLen_eq
  have hpos := hs.valid.1
  have hlen := hm.readLen.trans hs.readLen
  rw [complete_eq, parse_payload (hm.sync.trans hs.sync) (by omega) (by omega)]
  have hends := ends_finish (d := { received d xfer bytes with
    readPtr := (received d xfer bytes).readPtr + (received d xfer bytes).readLen, readLen := 0 })
    (by rw [hpay]; exact hpos)
  rw [hpay, hm.apid.trans hs.apid_eq, hm.header.trans hs.header_eq] at hends
  exact ⟨hends.rx, hends.rxFifo, hends.copies, hends.busy, hends.packets, hends.tx, hends.xfers,
    hends.pending⟩

end Complete

end ClickA.Driver
