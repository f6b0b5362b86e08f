import ClickA.Driver.Phases

/-!
# The packet a transaction extracts

The other side presents a stream of bytes to the transfers of one transaction. What the driver
copies to the fifo is the packet of the stream, unless the first transfer ends inside its header:
then the rest of the header is asked for, and the payload lands too late in the buffer.

## Main definitions

* `serve`: the completions of a transaction, on a stream
* `Reception`: a transaction whose first transfer holds the marker of a packet
* `Reception.Extracted`: the fifo gets the packet

## Main results

* `served_of_whole`, `served_of_split`: what the fifo gets
* `extracted_iff`: when it gets the packet
-/

namespace ClickA.Driver

open Python (Bytes)
open Stream

/-- The completions of the transfers that are pending one after the other, each accepted, on a
stream of which the first bytes have been presented. -/
def serve (stream : ℕ → UInt8) : ℕ → ℕ → SpiData → SpiData
  | 0, _, d => d
  | n + 1, pos, d =>
    match d.pending with
    | some xfer =>
      serve stream n (pos + xfer.len) (complete true (bytesAt stream pos xfer.len) xfer d)
    | none => d

theorem serve_of_none {stream : ℕ → UInt8} {n pos : ℕ} {d : SpiData} (h : d.pending = none) :
    serve stream n pos d = d := by
  cases n with
  | zero => rfl
  | succ n => rw [serve, h]

theorem serve_of_some {stream : ℕ → UInt8} {n pos : ℕ} {d : SpiData} {xfer : Xfer}
    (h : d.pending = some xfer) : serve stream (n + 1) pos d =
      serve stream n (pos + xfer.len) (complete true (bytesAt stream pos xfer.len) xfer d) := by
  rw [serve, h]

/-- A transaction on a stream whose first marker ends at `header`, inside the first transfer. The
packet after it is no no-op and has a valid length, and there is room for it. -/
structure Reception where
  data : SpiData
  stream : ℕ → UInt8
  header : ℕ
  idle : data.busy = false
  quiet : data.pending = none
  firstLen_le : firstLen data ≤ packetTmMaxLen
  marker : FirstEnd Bus.ccsdsSync (bytesAt stream 0 header)
  inside : header ≤ firstLen data
  valid : ValidLen (headerPayloadLen stream header)
  apid : headerApid stream header ≠ noopApid
  room : packetOverhead + headerPayloadLen stream header ≤ rxFifoLen - data.rxFifo.length

namespace Reception

variable (r : Reception)

/-- The length of the payload. -/
def payloadLen : ℕ := headerPayloadLen r.stream r.header

/-- The payload. -/
def payload : Bytes := bytesAt r.stream (r.header + packetHeaderLen) r.payloadLen

/-- The packet, with its marker. -/
def packet : Bytes := packetAt r.stream r.header r.payloadLen

/-- The driver after the interrupt and the completions of at most three transfers. -/
def served : SpiData := serve r.stream 3 0 (interruptHandler true r.data)

/-- The transaction ends, and the fifo gets the packet. -/
def Extracted : Prop := r.served.pending = none ∧ r.served.rxFifo = r.data.rxFifo ++ r.packet

/-- The bytes of a header that is cut: those that the first transfer brings. -/
def late : ℕ :=
  if firstLen r.data < r.header + packetHeaderLen then firstLen r.data - r.header else 0

/-- What lies in the buffer before the payload of such a packet. -/
def stale : Bytes := bytesAt r.data.rx (r.header + packetHeaderLen) r.late

theorem syncLen_le_header : packetSyncLen ≤ r.header := by
  have h := r.marker.1.length_le
  rwa [length_bytesAt] at h

/-- A packet is the marker and the header, and the payload. -/
theorem packet_eq : r.packet =
    bytesAt r.stream (r.header - packetSyncLen) packetOverhead ++ r.payload := by
  have h4 := r.syncLen_le_header
  have hpos : r.header - packetSyncLen + packetOverhead = r.header + packetHeaderLen := by
    unfold packetOverhead
    omega
  rw [packet, packetAt, bytesAt_add, hpos]
  rfl

end Reception

theorem headerApid_congr {mem mem' : ℕ → UInt8} {i : ℕ}
    (h : ∀ j < packetHeaderLen, mem (i + j) = mem' (i + j)) :
    headerApid mem i = headerApid mem' i := by
  have h₀ : mem i = mem' i := h 0 (by decide)
  rw [headerApid, headerApid, h₀, h 1 (by decide)]

theorem headerPayloadLen_congr {mem mem' : ℕ → UInt8} {i : ℕ}
    (h : ∀ j < packetHeaderLen, mem (i + j) = mem' (i + j)) :
    headerPayloadLen mem i = headerPayloadLen mem' i := by
  rw [headerPayloadLen, headerPayloadLen, h 4 (by decide), h 5 (by decide)]

/-! ## The last two transfers -/

section Serve

variable (stream : ℕ → UInt8) (k pos : ℕ)
variable {d d' : SpiData} {xfer : Xfer} {header apid payloadLen : ℕ}

/-- The transfer that brings the rest of a payload is the last. -/
theorem serve_awaitsPayload (hs : AwaitsPayload d xfer header apid payloadLen)
    (hapid : apid ≠ noopApid)
    (hroom : packetOverhead + payloadLen ≤ rxFifoLen - d.rxFifo.length) :
    (serve stream (k + 1) pos d).pending = none ∧
      (serve stream (k + 1) pos d).rxFifo = d.rxFifo ++
        packetAt (store d.rx xfer.rxBuf (bytesAt stream pos xfer.len)) header payloadLen := by
  have hm := received_received d xfer (bytesAt stream pos xfer.len)
  have hends := complete_awaitsPayload true (bytesAt stream pos xfer.len) hs
  have hcopied : copied (received d xfer (bytesAt stream pos xfer.len)) apid header payloadLen =
      some (header, payloadLen) := by
    unfold copied
    rw [hm.rxFifo, if_pos ⟨hapid, hroom⟩]
  rw [hcopied] at hends
  have hpending := hends.pending.trans hm.pending
  rw [serve_of_some hs.pending, serve_of_none hpending]
  refine ⟨hpending, ?_⟩
  rw [hends.rxFifo, hm.rxFifo, hm.rx]
  simp

/-- The transfers after a header that has been read. -/
theorem serve_headerRead (hr : HeaderRead true d d') (hpending : d.pending = none)
    (hvalid : ValidLen (headerPayloadLen d.rx d.header))
    (hapid : headerApid d.rx d.header ≠ noopApid)
    (hroom : packetOverhead + headerPayloadLen d.rx d.header ≤ rxFifoLen - d.rxFifo.length) :
    (serve stream (k + 1) pos d').pending = none ∧
      (serve stream (k + 1) pos d').rxFifo = d.rxFifo ++
        packetAt
          (if d.readLen - packetHeaderLen < headerPayloadLen d.rx d.header then
            store d.rx (d.readPtr + d.readLen) (bytesAt stream pos
              (headerPayloadLen d.rx d.header - (d.readLen - packetHeaderLen)))
          else d.rx)
          d.header (headerPayloadLen d.rx d.header) := by
  split_ifs with hshort
  · obtain ⟨hasks, hawaits⟩ := hr.short hvalid hshort
    have hpend := hasks.pending
    rw [if_pos rfl] at hpend
    have hserve := serve_awaitsPayload stream k pos (hawaits _ hpend) hapid
      (by rw [hasks.rxFifo]; exact hroom)
    rw [hasks.rxFifo, hasks.rx] at hserve
    exact hserve
  · have hends := hr.whole hvalid (Nat.le_of_not_lt hshort)
    have hcopied : copied d (headerApid d.rx d.header) d.header (headerPayloadLen d.rx d.header) =
        some (d.header, headerPayloadLen d.rx d.header) := by
      unfold copied
      rw [if_pos ⟨hapid, hroom⟩]
    rw [hcopied] at hends
    have hpend := hends.pending.trans hpending
    rw [serve_of_none hpend]
    refine ⟨hpend, ?_⟩
    rw [hends.rxFifo]
    simp

end Serve

/-! ## The whole transaction -/

namespace Reception

variable (r : Reception)

/-- The memory after the first transfer. -/
def firstMem : ℕ → UInt8 := store r.data.rx 0 (bytesAt r.stream 0 (firstLen r.data))

theorem firstMem_eq : ∀ j < firstLen r.data, r.firstMem j = r.stream j := by
  intro j hj
  have hnone : ∀ j < 0, r.data.rx j = r.stream j := by simp
  exact store_extends hnone j (by omega)

/-- The first transfer. -/
theorem exists_starts : ∃ xfer, Starts true r.data (interruptHandler true r.data) xfer ∧
    (interruptHandler true r.data).pending = some xfer ∧
    Searching (interruptHandler true r.data) xfer ∧ xfer.len = firstLen r.data := by
  obtain ⟨xfer, hst⟩ : ∃ xfer, Starts true r.data (interruptHandler true r.data) xfer :=
    starts_interruptHandler r.idle
  have hpending : (interruptHandler true r.data).pending = some xfer := by
    rw [hst.pending]
    rfl
  exact ⟨xfer, hst, hpending, hst.searching r.firstLen_le hpending, hst.len⟩

theorem firstEnd_take {k : ℕ} (h : r.header ≤ k) :
    FirstEnd Bus.ccsdsSync ((bytesAt r.stream 0 k).take r.header) := by
  rw [take_bytesAt _ 0 h]
  exact r.marker

/-- A header in the first transfer: the fifo gets the packet. -/
theorem served_of_whole (hwhole : r.header + packetHeaderLen ≤ firstLen r.data) :
    r.served.pending = none ∧ r.served.rxFifo = r.data.rxFifo ++ r.packet := by
  obtain ⟨xfer, hst, hpending, hs, hlen⟩ := r.exists_starts
  have hlenb : (bytesAt r.stream 0 xfer.len).length = xfer.len := length_bytesAt ..
  have hm := received_received (interruptHandler true r.data) xfer (bytesAt r.stream 0 xfer.len)
  have hr : HeaderRead true _ _ := complete_searching_whole hs hlenb (by omega)
    (r.firstEnd_take (by omega))
  generalize hd : atHeader (received (interruptHandler true r.data) xfer
    (bytesAt r.stream 0 xfer.len)) r.header = d at hr
  have hrx : d.rx = r.firstMem := by
    rw [← hd]
    exact hm.rx.trans (by rw [hst.rx, hst.rxBuf, hlen]; rfl)
  have hheader : d.header = r.header := by
    rw [← hd]
    show _ + r.header = r.header
    rw [hm.readPtr, hs.readPtr, Nat.zero_add]
  have hreadLen : d.readLen = firstLen r.data - r.header := by
    rw [← hd]
    show _ - r.header = _
    rw [hm.readLen, hs.readLen, hlen]
  have hreadPtr : d.readPtr = r.header := by
    rw [← hd]
    show _ + r.header = r.header
    rw [hm.readPtr, hs.readPtr, Nat.zero_add]
  have hfifo : d.rxFifo = r.data.rxFifo := by
    rw [← hd]
    exact hm.rxFifo.trans hst.rxFifo
  have hnone : d.pending = none := by
    rw [← hd]
    exact hm.pending
  have hmatch : ∀ j < packetHeaderLen, d.rx (r.header + j) = r.stream (r.header + j) := by
    intro j hj
    rw [hrx]
    exact r.firstMem_eq _ (by omega)
  have hn : headerPayloadLen d.rx d.header = r.payloadLen := by
    rw [hheader]
    exact headerPayloadLen_congr hmatch
  have hapid : headerApid d.rx d.header = headerApid r.stream r.header := by
    rw [hheader]
    exact headerApid_congr hmatch
  have hserve := serve_headerRead r.stream 1 (0 + xfer.len) hr hnone
    (by rw [hn]; exact r.valid) (by rw [hapid]; exact r.apid) (by rw [hn, hfifo]; exact r.room)
  rw [served, serve_of_some hpending]
  refine ⟨hserve.1, hserve.2.trans ?_⟩
  have h4 := r.syncLen_le_header
  have hover : packetOverhead = packetSyncLen + packetHeaderLen := rfl
  have hend : d.readPtr + d.readLen = firstLen r.data := by omega
  rw [hfifo, hn, hheader, hend, hrx, hreadLen, Nat.zero_add, hlen, packet]
  congr 1
  refine bytesAt_congr fun j hj => ?_
  split_ifs with hshort
  · exact store_extends r.firstMem_eq _ (by omega)
  · exact r.firstMem_eq _ (by omega)

/-- The buffer after the three transfers of a header that is cut: `mem` is the memory before the
payload, and `firstLen + 6` where it lands. -/
theorem bytesAt_split {mem : ℕ → UInt8} (hsplit : firstLen r.data < r.header + packetHeaderLen)
    (hmem : ∀ j < r.header + packetHeaderLen, mem j = r.stream j)
    (hstale : ∀ j ≥ r.header + packetHeaderLen, mem j = r.data.rx j) :
    packetAt (store mem (firstLen r.data + packetHeaderLen) r.payload) r.header r.payloadLen =
      bytesAt r.stream (r.header - packetSyncLen) packetOverhead ++
        (r.stale ++ r.payload).take r.payloadLen := by
  have hin := r.inside
  have h4 := r.syncLen_le_header
  have hlate : r.late = firstLen r.data - r.header := if_pos hsplit
  have hover : packetOverhead = packetSyncLen + packetHeaderLen := rfl
  have hpos : r.header - packetSyncLen + packetOverhead = r.header + packetHeaderLen := by omega
  have hend : r.header + packetHeaderLen + r.late = firstLen r.data + packetHeaderLen := by omega
  have hlen : r.payload.length = r.payloadLen := length_bytesAt ..
  generalize hfinal : store mem (firstLen r.data + packetHeaderLen) r.payload = final
  have hhead : bytesAt final (r.header - packetSyncLen) packetOverhead =
      bytesAt r.stream (r.header - packetSyncLen) packetOverhead := by
    refine bytesAt_congr fun j hj => ?_
    rw [← hfinal, store_of_lt (by omega), hmem _ (by omega)]
  -- the bytes between are what was there before
  have hstales : bytesAt final (r.header + packetHeaderLen) r.late = r.stale := by
    refine bytesAt_congr fun j hj => ?_
    rw [← hfinal, store_of_lt (by omega), hstale _ (by omega)]
  have hpayload : bytesAt final (firstLen r.data + packetHeaderLen) r.payloadLen = r.payload := by
    rw [← hfinal, ← hlen, bytesAt_store]
  have htail : bytesAt final (r.header + packetHeaderLen) (r.late + r.payloadLen) =
      r.stale ++ r.payload := by
    rw [bytesAt_add, hstales, hend, hpayload]
  rw [packetAt, bytesAt_add, hhead, hpos, ← htail, take_bytesAt _ _ (Nat.le_add_left _ _)]

/-- A header that is cut: what the fifo gets has stale bytes before the payload. -/
theorem served_of_split (hsplit : firstLen r.data < r.header + packetHeaderLen) :
    r.served.pending = none ∧ r.served.rxFifo = r.data.rxFifo ++
      (bytesAt r.stream (r.header - packetSyncLen) packetOverhead ++
        (r.stale ++ r.payload).take r.payloadLen) := by
  obtain ⟨xfer, hst, hpending, hs, hlen⟩ := r.exists_starts
  have hin := r.inside
  have hlenb : (bytesAt r.stream 0 xfer.len).length = xfer.len := length_bytesAt ..
  have hm₀ := received_received (interruptHandler true r.data) xfer (bytesAt r.stream 0 xfer.len)
  obtain ⟨hasks, hawaits⟩ : Asks true _ _ _ _ ∧ _ := complete_searching_split hs hlenb (by omega)
    (r.firstEnd_take (by omega)) (by omega)
  generalize hd₁ : complete true (bytesAt r.stream 0 xfer.len) xfer
    (interruptHandler true r.data) = d₁ at hasks hawaits
  have hrx₁ : d₁.rx = r.firstMem := by
    rw [hasks.rx, hm₀.rx, hst.rx, hst.rxBuf, hlen]
    rfl
  have hfifo₁ : d₁.rxFifo = r.data.rxFifo := hasks.rxFifo.trans (hm₀.rxFifo.trans hst.rxFifo)
  obtain ⟨xfer₁, hpending₁, hbuf₁, hlen₁⟩ : ∃ x, d₁.pending = some x ∧
      x.rxBuf = firstLen r.data ∧ x.len = r.header + packetHeaderLen - firstLen r.data := by
    rw [hlen] at hasks
    exact ⟨_, hasks.pending, rfl, rfl⟩
  have hs₁ := hawaits _ hpending₁
  generalize hb₁ : bytesAt r.stream (0 + xfer.len) xfer₁.len = bytes₁
  have hm₁ := received_received d₁ xfer₁ bytes₁
  have hr := complete_awaitsHeader true bytes₁ hs₁
  generalize received d₁ xfer₁ bytes₁ = m at hm₁ hr
  have hrx : m.rx = store r.firstMem (firstLen r.data)
      (bytesAt r.stream (firstLen r.data) (r.header + packetHeaderLen - firstLen r.data)) := by
    rw [hm₁.rx, hrx₁, hbuf₁, ← hb₁, Nat.zero_add, hlen, hlen₁]
  have hmem : ∀ j < r.header + packetHeaderLen, m.rx j = r.stream j := by
    intro j hj
    rw [hrx]
    exact store_extends r.firstMem_eq _ (by omega)
  have hheader : m.header = r.header := hm₁.header.trans hs₁.header_eq
  have hreadLen : m.readLen = packetHeaderLen := hm₁.readLen.trans hs₁.readLen
  have hreadPtr : m.readPtr = firstLen r.data := hm₁.readPtr.trans (hs₁.readPtr.trans hbuf₁)
  have hfifo : m.rxFifo = r.data.rxFifo := hm₁.rxFifo.trans hfifo₁
  have hmatch : ∀ j < packetHeaderLen, m.rx (r.header + j) = r.stream (r.header + j) :=
    fun j hj => hmem _ (by omega)
  have hn : headerPayloadLen m.rx m.header = r.payloadLen := by
    rw [hheader]
    exact headerPayloadLen_congr hmatch
  have hapid : headerApid m.rx m.header = headerApid r.stream r.header := by
    rw [hheader]
    exact headerApid_congr hmatch
  have hserve := serve_headerRead r.stream 0 (0 + xfer.len + xfer₁.len) hr hm₁.pending
    (by rw [hn]; exact r.valid) (by rw [hapid]; exact r.apid) (by rw [hn, hfifo]; exact r.room)
  rw [served, serve_of_some hpending, hd₁, serve_of_some hpending₁, hb₁]
  refine ⟨hserve.1, hserve.2.trans ?_⟩
  have hpos : 0 < r.payloadLen := r.valid.1
  have hnext : 0 + xfer.len + xfer₁.len = r.header + packetHeaderLen := by omega
  rw [hfifo, hn, hheader, hreadLen, hreadPtr, Nat.sub_self, if_pos hpos, Nat.sub_zero, hnext]
  congr 1
  refine r.bytesAt_split hsplit hmem fun j hj => ?_
  rw [hrx, store_of_le (by rw [length_bytesAt]; omega), firstMem,
    store_of_le (by rw [length_bytesAt]; omega)]

theorem extracted_of_split_iff (hsplit : firstLen r.data < r.header + packetHeaderLen) :
    r.Extracted ↔ (r.stale ++ r.payload).take r.payloadLen = r.payload := by
  obtain ⟨hpending, hfifo⟩ := r.served_of_split hsplit
  rw [Extracted, and_iff_right hpending, hfifo, packet_eq, List.append_cancel_left_eq,
    List.append_cancel_left_eq]

/-- **The fifo gets the packet when the first transfer does not cut its header**, that is when it
ends at the marker or holds the six bytes after it, or when the stale bytes happen to be the right
ones. -/
theorem extracted_iff : r.Extracted ↔
    r.late = 0 ∨ (r.stale ++ r.payload).take r.payloadLen = r.payload := by
  have hin := r.inside
  rcases Nat.lt_or_ge (firstLen r.data) (r.header + packetHeaderLen) with hsplit | hwhole
  · rw [r.extracted_of_split_iff hsplit, or_iff_right_of_imp]
    intro hlate
    have hlen : r.payload.length = r.payloadLen := length_bytesAt ..
    rw [stale, hlate, bytesAt_zero, List.nil_append, ← hlen, List.take_length]
  · have hlate : r.late = 0 := if_neg (Nat.not_lt.mpr hwhole)
    exact iff_of_true (r.served_of_whole hwhole) (.inl hlate)

end Reception

/-- A stream of a packet with one byte of payload, after 121 zeros. -/
def cutStream (j : ℕ) : UInt8 :=
  (List.replicate 121 0 ++ (Bus.ccsdsSync ++ [0x00, 0x01, 0x00, 0x00, 0x00, 0x00, 0xAA]))[j]?.getD 0

/-- Three bytes of its header fall into the first transfer, of 128 bytes. -/
def cutReception : Reception where
  data := .init
  stream := cutStream
  header := 125
  idle := rfl
  quiet := rfl
  firstLen_le := by decide
  marker := by
    have hstream : bytesAt cutStream 0 125 = List.replicate 121 0 ++ Bus.ccsdsSync := by
      decide +kernel
    rw [hstream]
    refine firstEnd_append Bus.ccsdsSync_head fun hin => ?_
    exact absurd (List.eq_of_mem_replicate (hin.subset List.mem_cons_self)) (by decide)
  inside := by decide
  valid := by decide +kernel
  apid := by decide +kernel
  room := by decide +kernel

/-- The fifo gets a stale zero for the payload. -/
theorem not_extracted_cutReception : ¬ cutReception.Extracted := by
  rw [cutReception.extracted_of_split_iff (by decide)]
  decide +kernel

end ClickA.Driver
