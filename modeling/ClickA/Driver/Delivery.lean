import ClickA.Driver.Bounds

/-!
# The packets that readers are handed

What the driver copies to the fifo are whole packets, and the readers take the bytes of the fifo in
order, as many as they ask for. So the bytes that readers were handed, with those that are still in
the fifo, are always one packet after the other.

## Main definitions

* `RxPacket`: a packet as it lies in the fifo
* `handedOut`, `delivered`: what a read hands out, and what the reads of a run do
* `Holds`: what the receive buffer holds while a transfer is pending

## Main results

* `exists_rxPacket`: what is copied is a packet
* `delivered_run`: in every run the readers are handed whole packets
-/

namespace ClickA.Driver

open Python (Bytes)
open Stream

/-! ## Packets -/

/-- The bytes of a list, by their place. -/
def byteOf (l : Bytes) (i : ℕ) : UInt8 := l[i]?.getD 0

/-- A packet as it lies in the fifo: the marker, the header, and a payload of the length that the
header says. It is no no-op. -/
structure RxPacket where
  bytes : Bytes
  marker : bytes.take packetSyncLen = Bus.ccsdsSync
  valid : ValidLen (headerPayloadLen (byteOf bytes) packetSyncLen)
  length_eq : bytes.length = packetOverhead + headerPayloadLen (byteOf bytes) packetSyncLen
  apid : headerApid (byteOf bytes) packetSyncLen ≠ noopApid

/-- The payload length that the header of a packet says. -/
def RxPacket.payloadLen (p : RxPacket) : ℕ := headerPayloadLen (byteOf p.bytes) packetSyncLen

theorem byteOf_bytesAt {mem : ℕ → UInt8} {i k j : ℕ} (h : j < k) :
    byteOf (bytesAt mem i k) j = mem (i + j) := by
  have hj : j < (bytesAt mem i k).length := by rwa [length_bytesAt]
  rw [byteOf, List.getElem?_eq_getElem hj, Option.getD_some, getElem_bytesAt]

theorem headerApid_shift {mem mem' : ℕ → UInt8} {i i' : ℕ}
    (h : ∀ j < packetHeaderLen, mem (i + j) = mem' (i' + j)) :
    headerApid mem i = headerApid mem' i' := by
  have h₀ : mem i = mem' i' := h 0 (by decide)
  rw [headerApid, headerApid, h₀, h 1 (by decide)]

theorem headerPayloadLen_shift {mem mem' : ℕ → UInt8} {i i' : ℕ}
    (h : ∀ j < packetHeaderLen, mem (i + j) = mem' (i' + j)) :
    headerPayloadLen mem i = headerPayloadLen mem' i' := by
  rw [headerPayloadLen, headerPayloadLen, h 4 (by decide), h 5 (by decide)]

/-- The marker stands before a header. -/
structure Marked (mem : ℕ → UInt8) (header : ℕ) : Prop where
  le : packetSyncLen ≤ header
  bytesAt_eq : bytesAt mem (header - packetSyncLen) packetSyncLen = Bus.ccsdsSync

/-- What is copied from behind a marker is a packet. -/
theorem exists_rxPacket {mem : ℕ → UInt8} {header : ℕ} (hmarked : Marked mem header)
    (hvalid : ValidLen (headerPayloadLen mem header)) (hapid : headerApid mem header ≠ noopApid) :
    ∃ p : RxPacket, p.bytes = packetAt mem header (headerPayloadLen mem header) ∧
      p.payloadLen = headerPayloadLen mem header := by
  have h4 := hmarked.le
  generalize hbytes : packetAt mem header (headerPayloadLen mem header) = bytes
  have hshift : ∀ j < packetHeaderLen, mem (header + j) = byteOf bytes (packetSyncLen + j) := by
    intro j hj
    rw [← hbytes, packetAt, byteOf_bytesAt (by unfold packetOverhead; omega), ← Nat.add_assoc,
      Nat.sub_add_cancel h4]
  have hlen : headerPayloadLen mem header = headerPayloadLen (byteOf bytes) packetSyncLen :=
    headerPayloadLen_shift hshift
  have hapid' : headerApid mem header = headerApid (byteOf bytes) packetSyncLen :=
    headerApid_shift hshift
  refine ⟨⟨bytes, ?_, hlen ▸ hvalid, ?_, hapid' ▸ hapid⟩, rfl, hlen.symm⟩
  · rw [← hbytes, packetAt, take_bytesAt mem _ (by unfold packetOverhead; omega)]
    exact hmarked.bytesAt_eq
  · rw [← hlen, ← hbytes, packetAt, length_bytesAt]

/-! ## Reads -/

/-- What an event hands out to a reader. -/
def handedOut (d : SpiData) : Event → Bytes
  | .read len => d.rxFifo.take len
  | _ => []

/-- What the reads of a run hand out. -/
def delivered : SpiData → List Event → Bytes
  | _, [] => []
  | d, e :: es => handedOut d e ++
    match step d e with
    | some d' => delivered d' es
    | none => []

/-- What readers were handed before, and what is in the fifo, is one packet after the other. -/
def Whole (given : Bytes) (d : SpiData) : Prop :=
  ∃ ps : List RxPacket, given ++ d.rxFifo = ps.flatMap RxPacket.bytes ∧
    ps.map RxPacket.payloadLen = d.copies.map Prod.snd

/-! ## The receive buffer

While the rest of a header or of a payload is awaited, the marker is in the buffer, and so is the
header in the second case. What is received next lies behind them. -/

/-- What the receive buffer holds in the phase of a pending transfer. -/
def Holds (d : SpiData) (xfer : Xfer) : Prop :=
  Searching d xfer ∨
    (∃ h, AwaitsHeader d xfer h ∧ Marked d.rx h ∧ h ≤ xfer.rxBuf) ∨
    ∃ h, AwaitsPayload d xfer h (headerApid d.rx h) (headerPayloadLen d.rx h) ∧ Marked d.rx h ∧
      h + packetHeaderLen ≤ xfer.rxBuf

/-- Every pending transfer is in a phase, and the readers are handed whole packets. -/
structure Delivers (given : Bytes) (d : SpiData) : Prop where
  wf : Wf d
  holds : ∀ xfer, d.pending = some xfer → Holds d xfer
  whole : Whole given d

theorem delivers_init : Delivers [] .init where
  wf := wf_init
  holds xfer h := by simp [SpiData.init] at h
  whole := ⟨[], rfl, rfl⟩

section Steps

variable {accepted : Bool} {d d' : SpiData} {xfer : Xfer} {bytes given : Bytes} {h : ℕ}

/-- The first packet that waits fits the buffer. -/
theorem firstLen_le (hd : Wf d) : firstLen d ≤ packetTmMaxLen := by
  unfold firstLen
  cases hhead : d.queue.packets.head? with
  | none => decide
  | some tx => exact hd.queued tx (List.mem_of_head? hhead)

/-- A marker stays where it is when something is stored behind it. -/
theorem Marked.store (hm : Marked d.rx h) {i : ℕ} (hi : h ≤ i) :
    Marked (store d.rx i bytes) h := by
  have h4 := hm.le
  refine ⟨h4, ?_⟩
  rw [← hm.bytesAt_eq]
  exact bytesAt_congr fun j hj => store_of_lt (by omega)

/-- The marker that a first transfer brings. -/
theorem marked_of_firstEnd (hs : Searching d xfer) (hb : bytes.length = xfer.len)
    (hle : h ≤ xfer.len) (hfirst : FirstEnd Bus.ccsdsSync (bytes.take h)) :
    Marked (received d xfer bytes).rx h := by
  have h4 : packetSyncLen ≤ h := hfirst.1.length_le.trans (List.length_take_le h bytes)
  refine ⟨h4, ?_⟩
  have hleft : bytesAt (received d xfer bytes).rx 0 (h - packetSyncLen) ++
      bytesAt (received d xfer bytes).rx (h - packetSyncLen) packetSyncLen = bytes.take h := by
    have hsum : h - packetSyncLen + packetSyncLen = h := Nat.sub_add_cancel h4
    have hsplit := bytesAt_add (received d xfer bytes).rx 0 (h - packetSyncLen) packetSyncLen
    rw [Nat.zero_add, hsum, bytesAt_received hs (by omega)] at hsplit
    exact hsplit.symm
  obtain ⟨pre, hpre⟩ := hfirst.1
  exact (List.append_inj' (hleft.trans hpre.symm) (by rw [length_bytesAt]; rfl)).2

theorem Whole.congr (hd : Whole given d) (hfifo : d'.rxFifo = d.rxFifo)
    (hcopies : d'.copies = d.copies) : Whole given d' := by
  obtain ⟨ps, hps, hlen⟩ := hd
  exact ⟨ps, by rw [hfifo, hps], by rw [hcopies, hlen]⟩

/-- What is pending behind a handler that asks for a transfer is that transfer. -/
theorem Asks.eq_of_pending {rxBuf len : ℕ} (hasks : Asks accepted d d' rxBuf len)
    (hpending : d.pending = none) (hx : d'.pending = some xfer) :
    xfer = ⟨d.tx.map Packet.data, rxBuf, len⟩ := by
  have hsome := hasks.pending.symm.trans hx
  rw [hpending] at hsome
  split_ifs at hsome
  exact (Option.some.inj hsome).symm

/-- Nothing is pending behind one that ends the transaction. -/
theorem Ends.pending_ne {packet : Option (ℕ × ℕ)} (hends : Ends d d' packet)
    (hpending : d.pending = none) : d'.pending ≠ some xfer := by
  rw [hends.pending, hpending]
  exact (Option.some_ne_none xfer).symm

/-- A handler that ends the transaction copies a packet, or nothing. -/
theorem Whole.of_ends {packet : Option (ℕ × ℕ)} (hd : Whole given d) (hends : Ends d d' packet)
    (hpacket : ∀ c ∈ packet, ∃ p : RxPacket, p.bytes = packetAt d.rx c.1 c.2 ∧
      p.payloadLen = c.2) :
    Whole given d' := by
  obtain ⟨ps, hps, hlen⟩ := hd
  cases packet with
  | none =>
    refine ⟨ps, ?_, ?_⟩
    · rw [hends.rxFifo]
      simpa using hps
    · rw [hends.copies]
      simpa using hlen
  | some c =>
    obtain ⟨p, hp, hpay⟩ := hpacket c rfl
    refine ⟨ps ++ [p], ?_, ?_⟩
    · rw [hends.rxFifo, ← List.append_assoc, hps]
      simp [hp]
    · rw [hends.copies, List.map_append, hlen]
      simp [hpay]

/-- What a copy takes from behind a marker. -/
theorem exists_of_mem_copied (hm : Marked d.rx h) (hvalid : ValidLen (headerPayloadLen d.rx h))
    {c : ℕ × ℕ} (hc : c ∈ copied d (headerApid d.rx h) h (headerPayloadLen d.rx h)) :
    ∃ p : RxPacket, p.bytes = packetAt d.rx c.1 c.2 ∧ p.payloadLen = c.2 := by
  unfold copied at hc
  split_ifs at hc with hcond
  · obtain rfl := Option.some.inj hc
    exact exists_rxPacket hm hvalid hcond.1
  · simp at hc

/-- A header that is read: its packet is whole, or the rest of it is awaited. -/
theorem headerRead_delivers (hr : HeaderRead accepted d d') (hpending : d.pending = none)
    (hm : Marked d.rx d.header) (hptr : d.header ≤ d.readPtr) (hlen : packetHeaderLen ≤ d.readLen)
    (hd : Whole given d) :
    (∀ x, d'.pending = some x → Holds d' x) ∧ Whole given d' := by
  have hends {packet : Option (ℕ × ℕ)} (he : Ends d d' packet) (x : Xfer)
      (hx : d'.pending = some x) : Holds d' x := absurd hx (he.pending_ne hpending)
  by_cases hvalid : ValidLen (headerPayloadLen d.rx d.header)
  · rcases Nat.lt_or_ge (d.readLen - packetHeaderLen) (headerPayloadLen d.rx d.header)
      with hshort | hwhole
    · obtain ⟨hasks, hawaits⟩ := hr.short hvalid hshort
      refine ⟨fun x hx => .inr (.inr ⟨d.header, ?_, ?_, ?_⟩), ?_⟩
      · rw [hasks.rx]
        exact hawaits x hx
      · rw [hasks.rx]
        exact hm
      · rw [hasks.eq_of_pending hpending hx]
        dsimp only
        omega
      · exact hd.congr hasks.rxFifo hasks.copies
    · have he := hr.whole hvalid hwhole
      exact ⟨hends he, hd.of_ends he fun c hc => exists_of_mem_copied hm hvalid hc⟩
  · have he := hr.invalid hvalid
    exact ⟨hends he, hd.of_ends he (by simp)⟩

/-- A change of the queue or of the fifo leaves what the buffer holds. -/
theorem Holds.congr (hh : Holds d xfer) (hpending : d'.pending = d.pending) (hrx : d'.rx = d.rx)
    (hsync : d'.sync = d.sync) (hpay : d'.payloadLen = d.payloadLen) (hptr : d'.readPtr = d.readPtr)
    (hlen : d'.readLen = d.readLen) (hheader : d'.header = d.header) (hapid : d'.apid = d.apid) :
    Holds d' xfer := by
  rcases hh with hs | ⟨h, hs, hm, hpos⟩ | ⟨h, hs, hm, hpos⟩
  · exact .inl ⟨hpending.trans hs.pending, hs.rxBuf, hs.len_le, hsync.trans hs.sync,
      hpay.trans hs.payloadLen, hptr.trans hs.readPtr, hlen.trans hs.readLen⟩
  · exact .inr (.inl ⟨h, ⟨hpending.trans hs.pending, hsync.trans hs.sync,
      hpay.trans hs.payloadLen, hheader.trans hs.header_eq, hptr.trans hs.readPtr,
      hlen.trans hs.readLen⟩, hrx ▸ hm, hpos⟩)
  · exact .inr (.inr ⟨h, ⟨hpending.trans hs.pending, hsync.trans hs.sync,
      hpay.trans (hrx ▸ hs.payloadLen_eq), hrx ▸ hs.valid, hapid.trans (hrx ▸ hs.apid_eq),
      hheader.trans hs.header_eq, hlen.trans (hrx ▸ hs.readLen)⟩, hrx ▸ hm, hpos⟩)

/-- The end of a first transfer. -/
theorem searching_delivers (hd : Whole given d) (hs : Searching d xfer)
    (hb : bytes.length = xfer.len) :
    (∀ x, (complete accepted bytes xfer d).pending = some x →
      Holds (complete accepted bytes xfer d) x) ∧ Whole given (complete accepted bytes xfer d) := by
  have hm := received_received d xfer bytes
  have hd' : Whole given (received d xfer bytes) := hd.congr hm.rxFifo hm.copies
  have hptr : (received d xfer bytes).readPtr = 0 := hm.readPtr.trans hs.readPtr
  by_cases hfound : ∃ h ≤ xfer.len, FirstEnd Bus.ccsdsSync (bytes.take h)
  · obtain ⟨h, hle, hfirst⟩ := hfound
    have hmarked := marked_of_firstEnd hs hb hle hfirst
    rcases Nat.lt_or_ge xfer.len (h + packetHeaderLen) with hsplit | hwhole
    · obtain ⟨hasks, hawaits⟩ : Asks accepted _ _ _ _ ∧ _ :=
        complete_searching_split hs hb hle hfirst hsplit
      refine ⟨fun x hx => .inr (.inl ⟨h, hawaits x hx, ?_, ?_⟩), ?_⟩
      · rw [hasks.rx]
        exact hmarked
      · rw [hasks.eq_of_pending hm.pending hx]
        exact hle
      · exact hd'.congr hasks.rxFifo hasks.copies
    · have hr : HeaderRead accepted _ _ := complete_searching_whole hs hb hwhole hfirst
      have hheader : (atHeader (received d xfer bytes) h).header = h := by
        show (received d xfer bytes).readPtr + h = h
        rw [hptr, Nat.zero_add]
      have hreadPtr : (atHeader (received d xfer bytes) h).readPtr = h := hheader
      have hrest : (atHeader (received d xfer bytes) h).readLen = xfer.len - h := by
        show (received d xfer bytes).readLen - h = xfer.len - h
        rw [readLen_received bytes hs]
      refine headerRead_delivers hr hm.pending ?_ (by omega) (by omega) (hd'.congr rfl rfl)
      rw [hheader]
      exact hmarked
  · have hends : Ends (received d xfer bytes) (complete accepted bytes xfer d) none := by
      apply complete_searching_none hs hb
      intro j hj hsuffix
      obtain ⟨i, hi, hfirst⟩ := exists_firstEnd_take hsuffix
      exact hfound ⟨i, hi.trans hj, hfirst⟩
    exact ⟨fun x hx => absurd hx (hends.pending_ne hm.pending), hd'.of_ends hends (by simp)⟩

/-- The end of a transfer that brought the rest of a header. -/
theorem awaitsHeader_delivers (hd : Whole given d) (hs : AwaitsHeader d xfer h)
    (hmarked : Marked d.rx h) (hpos : h ≤ xfer.rxBuf) :
    (∀ x, (complete accepted bytes xfer d).pending = some x →
      Holds (complete accepted bytes xfer d) x) ∧ Whole given (complete accepted bytes xfer d) := by
  have hm := received_received d xfer bytes
  have hheader := hm.header.trans hs.header_eq
  have hptr := hm.readPtr.trans hs.readPtr
  have hlen := hm.readLen.trans hs.readLen
  refine headerRead_delivers (complete_awaitsHeader accepted bytes hs) hm.pending ?_ (by omega)
    hlen.ge (hd.congr hm.rxFifo hm.copies)
  rw [hheader, hm.rx]
  exact hmarked.store hpos

/-- The end of a transfer that brought the rest of a payload: the header is where it was. -/
theorem awaitsPayload_delivers (hd : Whole given d)
    (hs : AwaitsPayload d xfer h (headerApid d.rx h) (headerPayloadLen d.rx h))
    (hmarked : Marked d.rx h) (hpos : h + packetHeaderLen ≤ xfer.rxBuf) :
    (∀ x, (complete accepted bytes xfer d).pending = some x →
      Holds (complete accepted bytes xfer d) x) ∧ Whole given (complete accepted bytes xfer d) := by
  have hm := received_received d xfer bytes
  have hstore : ∀ j < packetHeaderLen, d.rx (h + j) = (received d xfer bytes).rx (h + j) := by
    intro j hj
    rw [hm.rx, store_of_lt (by omega)]
  have hends := complete_awaitsPayload accepted bytes hs
  rw [headerApid_shift hstore, headerPayloadLen_shift hstore] at hends
  have hmarked' : Marked (received d xfer bytes).rx h := by
    rw [hm.rx]
    exact hmarked.store (by omega)
  refine ⟨fun x hx => absurd hx (hends.pending_ne hm.pending),
    (hd.congr hm.rxFifo hm.copies).of_ends hends fun c hc => ?_⟩
  exact exists_of_mem_copied hmarked' (headerPayloadLen_shift hstore ▸ hs.valid) hc

end Steps

/-! ## Runs -/

section Runs

variable {d d' : SpiData} {e : Event} {given : Bytes}

/-- **Every step hands out what lies first in the fifo, and copies whole packets.** -/
theorem delivers_step (hd : Delivers given d) (h : step d e = some d') :
    Delivers (given ++ handedOut d e) d' := by
  suffices hrest : (∀ x, d'.pending = some x → Holds d' x) ∧ Whole (given ++ handedOut d e) d' from
    ⟨wf_step hd.wf h, hrest.1, hrest.2⟩
  have hnil : given ++ [] = given := List.append_nil given
  cases e with
  | write k buf =>
    obtain rfl := Option.some.inj h
    rw [show handedOut d (.write k buf) = [] from rfl, hnil]
    exact ⟨fun x hx => (hd.holds x hx).congr rfl rfl rfl rfl rfl rfl rfl rfl,
      hd.whole.congr rfl rfl⟩
  | interrupt accepted =>
    obtain rfl := Option.some.inj h
    rw [show handedOut d (.interrupt accepted) = [] from rfl, hnil]
    cases hbusy : d.busy with
    | true =>
      have hsame : interruptHandler accepted d = d := by
        unfold interruptHandler
        rw [if_neg (by simp [hbusy])]
      rw [hsame]
      exact ⟨hd.holds, hd.whole⟩
    | false =>
      obtain ⟨xfer, hstarts⟩ : ∃ xfer, Starts accepted d (interruptHandler accepted d) xfer :=
        starts_interruptHandler hbusy
      refine ⟨fun x hx => .inl ?_, hd.whole.congr hstarts.rxFifo hstarts.copies⟩
      have hsome := hstarts.pending.symm.trans hx
      rw [hd.wf.quiet hbusy] at hsome
      split_ifs at hsome
      obtain rfl := Option.some.inj hsome
      exact hstarts.searching (firstLen_le hd.wf) hx
  | complete accepted bytes =>
    obtain ⟨xfer, hpending, hb, rfl⟩ := step_complete h
    rw [show handedOut d (.complete accepted bytes) = [] from rfl, hnil]
    rcases hd.holds xfer hpending with hs | ⟨h, hs, hm, hpos⟩ | ⟨h, hs, hm, hpos⟩
    · exact searching_delivers hd.whole hs hb
    · exact awaitsHeader_delivers hd.whole hs hm hpos
    · exact awaitsPayload_delivers hd.whole hs hm hpos
  | read len =>
    obtain ⟨-, rfl⟩ := step_read h
    obtain ⟨ps, hps, hcount⟩ := hd.whole
    refine ⟨fun x hx => (hd.holds x hx).congr rfl rfl rfl rfl rfl rfl rfl rfl, ps, ?_, hcount⟩
    rw [← hps, List.append_assoc]
    exact congrArg (given ++ ·) (List.take_append_drop len d.rxFifo)

theorem delivers_run {es : List Event} (hd : Delivers given d) (h : run d es = some d') :
    Delivers (given ++ delivered d es) d' := by
  induction es generalizing d given with
  | nil =>
    obtain rfl := Option.some.inj h
    rw [delivered, List.append_nil]
    exact hd
  | cons e es ih =>
    rw [run_cons] at h
    obtain ⟨d₁, hstep, hrun⟩ := Option.bind_eq_some_iff.mp h
    have htail := ih (delivers_step hd hstep) hrun
    rw [List.append_assoc] at htail
    simpa only [delivered, hstep] using htail

/-- **In every run the readers are handed whole packets, one after the other.** -/
theorem delivered_run {es : List Event} (h : run .init es = some d) :
    ∃ ps : List RxPacket, delivered .init es ++ d.rxFifo = ps.flatMap RxPacket.bytes ∧
      ps.map RxPacket.payloadLen = d.copies.map Prod.snd := by
  have hd := (delivers_run delivers_init h).whole
  rwa [List.nil_append] at hd

/-- A first transfer with a packet of four bytes in it. -/
def arrival : Bytes :=
  Bus.ccsdsSync ++ [0x00, 0x07, 0xC0, 0x00, 0x00, 0x03, 0x01, 0x02, 0x03, 0x04] ++
    List.replicate 114 0

theorem run_arrival : run .init [.interrupt true, .complete true arrival] =
    some (complete true arrival ⟨none, 0, defaultReadLen⟩ (interruptHandler true .init)) := by
  have hfirst : step .init (.interrupt true) = some (interruptHandler true .init) := rfl
  have hsecond : step (interruptHandler true .init) (.complete true arrival) =
      some (complete true arrival ⟨none, 0, defaultReadLen⟩ (interruptHandler true .init)) :=
    step_of_pending rfl (by decide +kernel)
  rw [run_cons, hfirst, Option.bind_some, run_cons, hsecond, Option.bind_some, run_nil]

theorem delivered_run_arrival : ∃ d : SpiData,
    run .init [.interrupt true, .complete true arrival] = some d ∧
    ∃ ps : List RxPacket, delivered .init [.interrupt true, .complete true arrival] ++ d.rxFifo =
      ps.flatMap RxPacket.bytes ∧ ps.map RxPacket.payloadLen = d.copies.map Prod.snd :=
  ⟨_, run_arrival, delivered_run run_arrival⟩

end Runs

end ClickA.Driver
