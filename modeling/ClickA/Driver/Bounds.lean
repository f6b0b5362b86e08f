import ClickA.Driver.Phases

/-!
# The bounds of the receive buffer

The receive buffer has `packetTmMaxLen` bytes. The driver checks the payload length of a header, but
not where in the buffer the header lies: a transfer that asks for the rest of a header or a payload
can reach beyond the buffer.

## Main definitions

* `InBounds`: every transfer issued and every packet copied lies in the buffer
* `Fits`: a step does not reach beyond the buffer
* `Wf`: the invariant of the driver

## Main results

* `wf_step`: every step keeps the invariant
* `inBounds_step_iff`: a step keeps the bounds when it fits
* `inBounds_run_iff`, `inBounds_iff`: so does a run
-/

namespace ClickA.Driver

open Python (Bytes)
open Stream

/-- Every transfer issued lies in the receive buffer, and so does every packet copied from it. -/
structure InBounds (d : SpiData) : Prop where
  xfers : ∀ x ∈ d.xfers, x.rxBuf + x.len ≤ packetTmMaxLen
  copies : ∀ c ∈ d.copies, packetSyncLen ≤ c.1 ∧
    c.1 - packetSyncLen + (packetOverhead + c.2) ≤ packetTmMaxLen

/-- A packet that begins in the buffer ends in it, if its length is valid. -/
def PayloadFits (mem : ℕ → UInt8) (header pos : ℕ) : Prop :=
  ValidLen (headerPayloadLen mem header) →
    pos + packetHeaderLen + headerPayloadLen mem header ≤ packetTmMaxLen

/-- The step does not reach beyond the buffer: a first transfer holds no marker too near the end of
the buffer, for the rest of the header or for the payload, and after the rest of a header there is
room for the payload. -/
def Fits (d : SpiData) : Event → Prop
  | .complete _ bytes => ∀ xfer, d.pending = some xfer →
    if d.sync = packetSyncMarker then
      d.payloadLen = 0 → PayloadFits (store d.rx xfer.rxBuf bytes) d.header d.readPtr
    else ∀ h ≤ xfer.len, FirstEnd Bus.ccsdsSync (bytes.take h) →
      if xfer.len < h + packetHeaderLen then h + packetHeaderLen ≤ packetTmMaxLen
      else PayloadFits (store d.rx xfer.rxBuf bytes) h h
  | _ => True

/-- Every step of a run fits. -/
def FitsAll : SpiData → List Event → Prop
  | _, [] => True
  | d, e :: es => Fits d e ∧ ∀ d', step d e = some d' → FitsAll d' es

/-! ## The bounds after a handler -/

section Outcomes

variable {accepted : Bool} {d d' : SpiData} {xfer : Xfer} {rxBuf len : ℕ} {packet : Option (ℕ × ℕ)}

theorem inBounds_congr (hx : d'.xfers = d.xfers) (hc : d'.copies = d.copies) :
    InBounds d' ↔ InBounds d := by
  constructor
  · rintro ⟨hxs, hcs⟩
    exact ⟨hx ▸ hxs, hc ▸ hcs⟩
  · rintro ⟨hxs, hcs⟩
    exact ⟨hx ▸ hxs, hc ▸ hcs⟩

theorem inBounds_xfer_iff (hx : d'.xfers = d.xfers ++ [xfer]) (hc : d'.copies = d.copies) :
    InBounds d' ↔ InBounds d ∧ xfer.rxBuf + xfer.len ≤ packetTmMaxLen := by
  constructor
  · rintro ⟨hxs, hcs⟩
    rw [hx, List.forall_mem_append, List.forall_mem_singleton] at hxs
    exact ⟨⟨hxs.1, hc ▸ hcs⟩, hxs.2⟩
  · rintro ⟨⟨hxs, hcs⟩, hlen⟩
    refine ⟨?_, hc ▸ hcs⟩
    rw [hx, List.forall_mem_append, List.forall_mem_singleton]
    exact ⟨hxs, hlen⟩

/-- A handler that ends a transaction without a copy, or with one that lies in the buffer. -/
theorem inBounds_ends_iff (h : Ends d d' packet) (hp : ∀ c ∈ packet, packetSyncLen ≤ c.1 ∧
    c.1 - packetSyncLen + (packetOverhead + c.2) ≤ packetTmMaxLen) : InBounds d' ↔ InBounds d := by
  constructor
  · rintro ⟨hxs, hcs⟩
    rw [h.copies, List.forall_mem_append] at hcs
    exact ⟨h.xfers ▸ hxs, hcs.1⟩
  · rintro ⟨hxs, hcs⟩
    refine ⟨h.xfers ▸ hxs, ?_⟩
    rw [h.copies, List.forall_mem_append]
    exact ⟨hcs, by simpa using hp⟩

theorem mem_copied {apid header payloadLen : ℕ} {c : ℕ × ℕ}
    (h : c ∈ copied d apid header payloadLen) : c = (header, payloadLen) := by
  unfold copied at h
  split_ifs at h
  · exact (Option.some.inj h).symm
  · simp at h

/-- After a header the payload has to fit. -/
theorem inBounds_headerRead_iff (hr : HeaderRead accepted d d') (h4 : packetSyncLen ≤ d.header)
    (hptr : d.header ≤ d.readPtr) (hlen : packetHeaderLen ≤ d.readLen)
    (hend : packetHeaderLen < d.readLen → d.readPtr + d.readLen ≤ packetTmMaxLen) :
    InBounds d' ↔ InBounds d ∧ PayloadFits d.rx d.header d.readPtr := by
  unfold PayloadFits
  by_cases hvalid : ValidLen (headerPayloadLen d.rx d.header)
  · have hpos := hvalid.1
    rcases Nat.lt_or_ge (d.readLen - packetHeaderLen) (headerPayloadLen d.rx d.header)
      with hshort | hwhole
    · obtain ⟨hasks, -⟩ := hr.short hvalid hshort
      have hsum : d.readPtr + d.readLen +
          (headerPayloadLen d.rx d.header - (d.readLen - packetHeaderLen)) =
          d.readPtr + packetHeaderLen + headerPayloadLen d.rx d.header := by omega
      rw [inBounds_xfer_iff hasks.xfers hasks.copies, hsum]
      exact and_congr_right fun _ => ⟨fun hle _ => hle, fun hle => hle hvalid⟩
    · have hle := hend (by omega)
      have hover : packetOverhead = packetSyncLen + packetHeaderLen := rfl
      rw [inBounds_ends_iff (hr.whole hvalid hwhole), and_iff_left fun _ => by omega]
      intro c hc
      obtain rfl := mem_copied hc
      exact ⟨h4, by omega⟩
  · rw [inBounds_ends_iff (hr.invalid hvalid) (by simp), and_iff_left fun h => absurd h hvalid]

end Outcomes

/-! ## The invariant -/

/-- The phase of a pending transfer. -/
def Phase (d : SpiData) (xfer : Xfer) : Prop :=
  Searching d xfer ∨
    (∃ h, AwaitsHeader d xfer h ∧ packetSyncLen ≤ h ∧ h ≤ xfer.rxBuf ∧
      h + packetHeaderLen = xfer.rxBuf + xfer.len) ∨
    ∃ h apid n, AwaitsPayload d xfer h apid n ∧ packetSyncLen ≤ h ∧
      h + packetHeaderLen + n ≤ xfer.rxBuf + xfer.len

/-- The transfer that is pending, in its phase, and the packets that are queued. -/
structure Wf (d : SpiData) : Prop where
  queued : ∀ p ∈ d.queue.packets, p.len ≤ packetTmMaxLen
  quiet : d.busy = false → d.pending = none
  issued : ∀ x, d.pending = some x → x ∈ d.xfers
  phase : ∀ x, d.pending = some x → Phase d x

theorem wf_init : Wf .init := ⟨by simp [SpiData.init, TxQueue.empty], fun _ => rfl,
  by simp [SpiData.init], by simp [SpiData.init]⟩

theorem inBounds_init : InBounds .init := ⟨by simp [SpiData.init], by simp [SpiData.init]⟩

section Wf

variable {accepted : Bool} {d d' : SpiData} {xfer : Xfer} {rxBuf len : ℕ} {packet : Option (ℕ × ℕ)}

theorem Wf.busy (hd : Wf d) (h : d.pending = some xfer) : d.busy = true := by
  cases hbusy : d.busy with
  | false => exact absurd ((hd.quiet hbusy).symm.trans h) (by simp)
  | true => rfl

theorem wf_of_ends (h : Ends d d' packet) (hpending : d.pending = none)
    (hq : ∀ p ∈ d.queue.packets, p.len ≤ packetTmMaxLen) : Wf d' := by
  have hnone := h.pending.trans hpending
  refine ⟨h.packets ▸ hq, fun _ => hnone, fun x hx => ?_, fun x hx => ?_⟩
  · exact absurd (hnone.symm.trans hx) (by simp)
  · exact absurd (hnone.symm.trans hx) (by simp)

theorem wf_of_asks (h : Asks accepted d d' rxBuf len) (hpending : d.pending = none)
    (hbusy : d.busy = true) (hq : ∀ p ∈ d.queue.packets, p.len ≤ packetTmMaxLen)
    (hphase : ∀ x, d'.pending = some x → x.rxBuf = rxBuf → x.len = len → Phase d' x) : Wf d' := by
  have hsome : ∀ x, d'.pending = some x → x = ⟨d.tx.map Packet.data, rxBuf, len⟩ := by
    intro x hx
    rw [h.pending, hpending] at hx
    cases accepted with
    | false => simp at hx
    | true => exact (Option.some.inj hx).symm
  refine ⟨h.packets ▸ hq, fun hfalse => ?_, fun x hx => ?_, fun x hx => ?_⟩
  · exact absurd (hbusy.symm.trans (h.busy.symm.trans hfalse)) (by simp)
  · rw [h.xfers, hsome x hx]
    simp
  · have heq := hsome x hx
    exact hphase x hx (by rw [heq]) (by rw [heq])

theorem wf_of_headerRead (hr : HeaderRead accepted d d') (hpending : d.pending = none)
    (hbusy : d.busy = true) (hq : ∀ p ∈ d.queue.packets, p.len ≤ packetTmMaxLen)
    (h4 : packetSyncLen ≤ d.header) (hptr : d.header ≤ d.readPtr)
    (hlen : packetHeaderLen ≤ d.readLen) : Wf d' := by
  by_cases hvalid : ValidLen (headerPayloadLen d.rx d.header)
  · rcases Nat.lt_or_ge (d.readLen - packetHeaderLen) (headerPayloadLen d.rx d.header)
      with hshort | hwhole
    · obtain ⟨hasks, hawaits⟩ := hr.short hvalid hshort
      refine wf_of_asks hasks hpending hbusy hq fun x hx hbuf hxlen => .inr (.inr ?_)
      exact ⟨_, _, _, hawaits x hx, h4, by omega⟩
    · exact wf_of_ends (hr.whole hvalid hwhole) hpending hq
  · exact wf_of_ends (hr.invalid hvalid) hpending hq

end Wf

/-! ## Steps -/

/-- A change of the queue or of the fifo leaves the phase. -/
theorem Phase.congr {d d' : SpiData} {xfer : Xfer} (hp : Phase d xfer)
    (hpending : d'.pending = d.pending) (hsync : d'.sync = d.sync)
    (hpay : d'.payloadLen = d.payloadLen) (hptr : d'.readPtr = d.readPtr)
    (hlen : d'.readLen = d.readLen) (hheader : d'.header = d.header) (hapid : d'.apid = d.apid) :
    Phase d' xfer := by
  rcases hp with hs | ⟨h, hs, hpos⟩ | ⟨h, apid, n, hs, hpos⟩
  · exact .inl ⟨hpending.trans hs.pending, hs.rxBuf, hs.len_le, hsync.trans hs.sync,
      hpay.trans hs.payloadLen, hptr.trans hs.readPtr, hlen.trans hs.readLen⟩
  · exact .inr (.inl ⟨h, ⟨hpending.trans hs.pending, hsync.trans hs.sync,
      hpay.trans hs.payloadLen, hheader.trans hs.header_eq, hptr.trans hs.readPtr,
      hlen.trans hs.readLen⟩, hpos⟩)
  · exact .inr (.inr ⟨h, apid, n, ⟨hpending.trans hs.pending, hsync.trans hs.sync,
      hpay.trans hs.payloadLen_eq, hs.valid, hapid.trans hs.apid_eq, hheader.trans hs.header_eq,
      hlen.trans hs.readLen⟩, hpos⟩)

section Steps

variable {accepted : Bool} {bytes : Bytes} {d : SpiData} {xfer : Xfer}

/-- An interrupt starts a transfer of at most a buffer, when none is pending. -/
theorem interrupt_spec (accepted : Bool) (hd : Wf d) : Wf (interruptHandler accepted d) ∧
    (InBounds (interruptHandler accepted d) ↔ InBounds d) := by
  cases hbusy : d.busy with
  | true =>
    have hsame : interruptHandler accepted d = d := by
      unfold interruptHandler
      rw [if_neg (by simp [hbusy])]
    rw [hsame]
    exact ⟨hd, Iff.rfl⟩
  | false =>
    obtain ⟨xfer, hstarts⟩ : ∃ xfer, Starts accepted d (interruptHandler accepted d) xfer :=
      starts_interruptHandler hbusy
    have hnone := hd.quiet hbusy
    have hmax : firstLen d ≤ packetTmMaxLen := by
      unfold firstLen
      cases hhead : d.queue.packets.head? with
      | none => decide
      | some tx => exact hd.queued tx (List.mem_of_head? hhead)
    have hsome : ∀ x, (interruptHandler accepted d).pending = some x → x = xfer := by
      intro x hx
      rw [hstarts.pending, hnone] at hx
      cases accepted with
      | false => simp at hx
      | true => exact (Option.some.inj hx).symm
    constructor
    · refine ⟨fun p hp => ?_, fun hfalse => ?_, fun x hx => ?_, fun x hx => ?_⟩
      · rw [hstarts.packets] at hp
        exact hd.queued p (List.mem_of_mem_tail hp)
      · exact absurd (hstarts.busy.symm.trans hfalse) (by simp)
      · rw [hstarts.xfers, hsome x hx]
        exact List.mem_append_right _ (List.mem_singleton_self _)
      · obtain rfl := hsome x hx
        exact .inl (hstarts.searching hmax hx)
    · rw [inBounds_xfer_iff hstarts.xfers hstarts.copies, hstarts.rxBuf, hstarts.len, Nat.zero_add]
      exact and_iff_left hmax

theorem inBounds_received_iff (d : SpiData) (xfer : Xfer) (bytes : Bytes) :
    InBounds (received d xfer bytes) ↔ InBounds d :=
  inBounds_congr (received_received d xfer bytes).xfers (received_received d xfer bytes).copies

/-- The end of a transfer that brought a payload. -/
theorem awaitsPayload_spec {h apid n : ℕ} (hd : Wf d) (hs : AwaitsPayload d xfer h apid n)
    (h4 : packetSyncLen ≤ h) (hend : h + packetHeaderLen + n ≤ xfer.rxBuf + xfer.len) :
    Wf (complete accepted bytes xfer d) ∧
      (InBounds (complete accepted bytes xfer d) ↔
        InBounds d ∧ Fits d (.complete accepted bytes)) := by
  have hm := received_received d xfer bytes
  have hends := complete_awaitsPayload accepted bytes hs
  refine ⟨wf_of_ends hends hm.pending (hm.packets.symm ▸ hd.queued), ?_⟩
  have hfits : Fits d (.complete accepted bytes) := by
    intro x _
    rw [if_pos hs.sync]
    intro hzero
    have hpos := hs.valid.1
    have heq := hs.payloadLen_eq
    omega
  rw [and_iff_left hfits]
  have hover : packetOverhead = packetSyncLen + packetHeaderLen := rfl
  constructor
  · intro hb
    have hxs := hb.xfers
    have hcs := hb.copies
    rw [hends.xfers] at hxs
    rw [hends.copies, List.forall_mem_append] at hcs
    exact (inBounds_received_iff d xfer bytes).mp ⟨hxs, hcs.1⟩
  · intro hb
    have hxfer := hb.xfers xfer (hd.issued xfer hs.pending)
    refine (inBounds_ends_iff hends fun c hc => ?_).mpr
      ((inBounds_received_iff d xfer bytes).mpr hb)
    obtain rfl := mem_copied hc
    exact ⟨h4, by dsimp only; omega⟩

/-- The end of a transfer that brought the rest of a header. -/
theorem awaitsHeader_spec {h : ℕ} (hd : Wf d) (hs : AwaitsHeader d xfer h)
    (h4 : packetSyncLen ≤ h) (hpos : h ≤ xfer.rxBuf) :
    Wf (complete accepted bytes xfer d) ∧
      (InBounds (complete accepted bytes xfer d) ↔
        InBounds d ∧ Fits d (.complete accepted bytes)) := by
  have hm := received_received d xfer bytes
  have hr := complete_awaitsHeader accepted bytes hs
  have hheader := hm.header.trans hs.header_eq
  have hptr := hm.readPtr.trans hs.readPtr
  have hlen := hm.readLen.trans hs.readLen
  have hbusy := hm.busy.trans (hd.busy hs.pending)
  refine ⟨wf_of_headerRead hr hm.pending hbusy (hm.packets.symm ▸ hd.queued) (by omega) (by omega)
    hlen.ge, ?_⟩
  rw [inBounds_headerRead_iff hr (by omega) (by omega) hlen.ge (by omega),
    inBounds_received_iff]
  refine and_congr_right fun _ => ?_
  unfold Fits
  simp only [if_pos hs.sync, hm.rx, hm.header, hm.readPtr]
  constructor
  · intro hfits x hx _
    obtain rfl := Option.some.inj (hs.pending.symm.trans hx)
    exact hfits
  · intro hfits
    exact hfits xfer hs.pending hs.payloadLen

/-- What a step must fit in when a first transfer ends with its marker at `h`. -/
theorem fits_searching_iff {h : ℕ} (hs : Searching d xfer) (hle : h ≤ xfer.len)
    (hb : bytes.length = xfer.len) (hfirst : FirstEnd Bus.ccsdsSync (bytes.take h)) :
    Fits d (.complete accepted bytes) ↔
      if xfer.len < h + packetHeaderLen then h + packetHeaderLen ≤ packetTmMaxLen
      else PayloadFits (store d.rx xfer.rxBuf bytes) h h := by
  have hsync : d.sync ≠ packetSyncMarker := by
    rw [hs.sync]
    decide
  unfold Fits
  simp only [if_neg hsync]
  constructor
  · intro hfits
    exact hfits xfer hs.pending h hle hfirst
  · intro hfits x hx j hj hj'
    obtain rfl := Option.some.inj (hs.pending.symm.trans hx)
    have heq := FirstEnd.eq_of_append hj' hfirst
      ((List.take_append_drop j bytes).trans (List.take_append_drop h bytes).symm)
    have hlens := congrArg List.length heq
    simp only [List.length_take] at hlens
    obtain rfl : j = h := by omega
    exact hfits

/-- The end of a first transfer. -/
theorem searching_spec (hd : Wf d) (hs : Searching d xfer) (hb : bytes.length = xfer.len) :
    Wf (complete accepted bytes xfer d) ∧
      (InBounds (complete accepted bytes xfer d) ↔
        InBounds d ∧ Fits d (.complete accepted bytes)) := by
  have hm := received_received d xfer bytes
  have hq : ∀ p ∈ (received d xfer bytes).queue.packets, p.len ≤ packetTmMaxLen :=
    hm.packets.symm ▸ hd.queued
  have hbusy := hm.busy.trans (hd.busy hs.pending)
  have hlen := readLen_received bytes hs
  have hptr : (received d xfer bytes).readPtr = 0 := hm.readPtr.trans hs.readPtr
  by_cases hfound : ∃ h ≤ xfer.len, FirstEnd Bus.ccsdsSync (bytes.take h)
  · obtain ⟨h, hle, hfirst⟩ := hfound
    have h4 : packetSyncLen ≤ h :=
      hfirst.1.length_le.trans (List.length_take_le h bytes)
    rw [fits_searching_iff hs hle hb hfirst]
    rcases Nat.lt_or_ge xfer.len (h + packetHeaderLen) with hsplit | hwhole
    · obtain ⟨hasks, hawaits⟩ : Asks accepted _ _ _ _ ∧ _ :=
        complete_searching_split hs hb hle hfirst hsplit
      refine ⟨wf_of_asks hasks hm.pending hbusy hq fun x hx hbuf hxlen => .inr (.inl ?_), ?_⟩
      · exact ⟨h, hawaits x hx, h4, by omega, by omega⟩
      · rw [if_pos hsplit, inBounds_xfer_iff hasks.xfers hasks.copies, inBounds_received_iff,
          show xfer.len + (h + packetHeaderLen - xfer.len) = h + packetHeaderLen by omega]
    · have hr : HeaderRead accepted _ _ := complete_searching_whole hs hb hwhole hfirst
      have hat : (atHeader (received d xfer bytes) h).header = h := by
        show (received d xfer bytes).readPtr + h = h
        rw [hptr, Nat.zero_add]
      have hat' : (atHeader (received d xfer bytes) h).readPtr = h := hat
      have hrest : (atHeader (received d xfer bytes) h).readLen = xfer.len - h := by
        show (received d xfer bytes).readLen - h = xfer.len - h
        rw [hlen]
      have hmax := hs.len_le
      refine ⟨wf_of_headerRead hr hm.pending hbusy hq (by omega) (by omega) (by omega), ?_⟩
      rw [if_neg (Nat.not_lt.mpr hwhole),
        inBounds_headerRead_iff hr (by omega) (by omega) (by omega) (by omega), hat, hat']
      refine and_congr ?_ ?_
      · rw [← inBounds_received_iff d xfer bytes]
        exact inBounds_congr rfl rfl
      · show PayloadFits (received d xfer bytes).rx h h ↔ _
        rw [hm.rx]
  · have hends : Ends (received d xfer bytes) (complete accepted bytes xfer d) none := by
      apply complete_searching_none hs hb
      intro j hj hsuffix
      obtain ⟨i, hi, hfirst⟩ := exists_firstEnd_take hsuffix
      exact hfound ⟨i, hi.trans hj, hfirst⟩
    have hfits : Fits d (.complete accepted bytes) := by
      intro x hx
      obtain rfl := Option.some.inj (hs.pending.symm.trans hx)
      rw [if_neg (by rw [hs.sync]; decide)]
      exact fun h hle hfirst => absurd ⟨h, hle, hfirst⟩ hfound
    refine ⟨wf_of_ends hends hm.pending hq, ?_⟩
    rw [inBounds_ends_iff hends (by simp), inBounds_received_iff, and_iff_left hfits]

/-- The end of the pending transfer. -/
theorem complete_spec (hd : Wf d) (hpending : d.pending = some xfer)
    (hb : bytes.length = xfer.len) :
    Wf (complete accepted bytes xfer d) ∧
      (InBounds (complete accepted bytes xfer d) ↔
        InBounds d ∧ Fits d (.complete accepted bytes)) := by
  rcases hd.phase xfer hpending with hs | ⟨h, hs, h4, hpos, -⟩ | ⟨h, apid, n, hs, h4, hend⟩
  · exact searching_spec hd hs hb
  · exact awaitsHeader_spec hd hs h4 hpos
  · exact awaitsPayload_spec hd hs h4 hend

end Steps

theorem step_spec {d d' : SpiData} {e : Event} (hd : Wf d) (h : step d e = some d') :
    Wf d' ∧ (InBounds d' ↔ InBounds d ∧ Fits d e) := by
  cases e with
  | write k buf =>
    obtain rfl := Option.some.inj h
    refine ⟨⟨fun p hp => ?_, hd.quiet, hd.issued, fun x hx => ?_⟩, ?_⟩
    · exact (mem_packetWrite hp).elim (hd.queued p) id
    · exact (hd.phase x hx).congr rfl rfl rfl rfl rfl rfl rfl
    · show InBounds _ ↔ InBounds d ∧ True
      rw [and_true]
      exact inBounds_congr rfl rfl
  | interrupt accepted =>
    obtain rfl := Option.some.inj h
    obtain ⟨hwf, hbounds⟩ := interrupt_spec accepted hd
    exact ⟨hwf, hbounds.trans (and_true _).symm.to_iff⟩
  | complete accepted bytes =>
    obtain ⟨xfer, hpending, hb, rfl⟩ := step_complete h
    exact complete_spec hd hpending hb
  | read len =>
    obtain ⟨-, rfl⟩ := step_read h
    refine ⟨⟨hd.queued, hd.quiet, hd.issued, fun x hx => ?_⟩, ?_⟩
    · exact (hd.phase x hx).congr rfl rfl rfl rfl rfl rfl rfl
    · show InBounds _ ↔ InBounds d ∧ True
      rw [and_true]
      exact inBounds_congr rfl rfl

theorem wf_step {d d' : SpiData} {e : Event} (hd : Wf d) (h : step d e = some d') : Wf d' :=
  (step_spec hd h).1

theorem inBounds_step_iff {d d' : SpiData} {e : Event} (hd : Wf d) (h : step d e = some d') :
    InBounds d' ↔ InBounds d ∧ Fits d e := (step_spec hd h).2

/-- A run stays in bounds exactly when its steps fit. -/
theorem inBounds_run_iff {d d' : SpiData} {es : List Event} (hd : Wf d) (h : run d es = some d') :
    InBounds d' ↔ InBounds d ∧ FitsAll d es := by
  induction es generalizing d with
  | nil =>
    obtain rfl := Option.some.inj h
    exact (and_iff_left trivial).symm
  | cons e es ih =>
    rw [run_cons] at h
    obtain ⟨d₁, hstep, hrun⟩ := Option.bind_eq_some_iff.mp h
    rw [ih (wf_step hd hstep) hrun, inBounds_step_iff hd hstep, FitsAll, and_assoc]
    refine and_congr_right fun _ => and_congr_right fun _ =>
      ⟨fun hall d₂ h₂ => ?_, fun hall => hall _ hstep⟩
    obtain rfl := Option.some.inj (hstep.symm.trans h₂)
    exact hall

/-- **Every transfer and every packet stays in the buffer exactly when every step fits.** -/
theorem inBounds_iff {d : SpiData} {es : List Event} (h : run .init es = some d) :
    InBounds d ↔ FitsAll .init es := by
  rw [inBounds_run_iff wf_init h, and_iff_right inBounds_init]

/-- A first transfer that ends with the marker and the first three bytes of a header. -/
def cutHeader : Bytes := List.replicate 121 0 ++ Bus.ccsdsSync ++ [0x00, 0x07, 0xC0]

/-- The rest of the header is asked for, and then the payload, and another transaction begins. -/
def threeTransfers : List Event :=
  [.interrupt true, .complete true cutHeader, .complete true [0x00, 0x00, 0x03],
    .complete true [1, 2, 3, 4], .interrupt true]

theorem exists_run_threeTransfers : ∃ d, run .init threeTransfers = some d := by
  have hsearching : Searching (interruptHandler true .init) ⟨none, 0, defaultReadLen⟩ :=
    ⟨rfl, rfl, by decide, rfl, rfl, rfl, rfl⟩
  have hlen : cutHeader.length = defaultReadLen := by decide +kernel
  have hfirst : FirstEnd Bus.ccsdsSync (cutHeader.take 125) := by
    have htake : cutHeader.take 125 = List.replicate 121 0 ++ Bus.ccsdsSync := by decide +kernel
    rw [htake]
    refine firstEnd_append Bus.ccsdsSync_head fun hin => ?_
    exact absurd (List.eq_of_mem_replicate (hin.subset List.mem_cons_self)) (by decide)
  obtain ⟨hasks : Asks true _ _ _ _, hawaits⟩ :=
    complete_searching_split hsearching hlen (by decide) hfirst (by decide)
  have hrx := hasks.rx.trans (received_received _ _ _).rx
  generalize hd : complete true cutHeader _ _ = d at hasks hawaits hrx
  have hheader : AwaitsHeader d ⟨none, 128, 3⟩ 125 := hawaits _ hasks.pending
  have hread := complete_awaitsHeader true [0x00, 0x00, 0x03] hheader
  have hm := received_received d ⟨none, 128, 3⟩ [0x00, 0x00, 0x03]
  have hpayload : headerPayloadLen (received d ⟨none, 128, 3⟩ [0x00, 0x00, 0x03]).rx
      (received d ⟨none, 128, 3⟩ [0x00, 0x00, 0x03]).header = 4 := by
    rw [hm.rx, hm.header, hheader.header_eq, hrx]
    decide +kernel
  obtain ⟨hasks', -⟩ := hread.short (by rw [hpayload]; decide)
    (by rw [hpayload, hm.readLen, hheader.readLen]; decide)
  rw [hpayload] at hasks'
  rw [threeTransfers, run_cons, show step .init (.interrupt true) = some _ from rfl,
    Option.bind_some, run_cons, step_of_pending hsearching.pending hlen, Option.bind_some, hd,
    run_cons, step_of_pending hheader.pending rfl, Option.bind_some, run_cons,
    step_of_pending hasks'.pending (by rw [hm.readLen, hheader.readLen]; rfl), Option.bind_some]
  exact ⟨_, rfl⟩

theorem inBounds_iff_threeTransfers : ∃ d, run .init threeTransfers = some d ∧
    (InBounds d ↔ FitsAll .init threeTransfers) := by
  obtain ⟨d, hrun⟩ := exists_run_threeTransfers
  exact ⟨d, hrun, inBounds_iff hrun⟩

/-- A header at the end of a first transfer, of the longest packet there is room for. -/
def nearEnd : Bytes :=
  List.replicate 118 0 ++ Bus.ccsdsSync ++ [0x00, 0x01, 0x00, 0x00, 0x0F, 0xF9]

theorem not_fits_nearEnd : ¬ Fits (interruptHandler true .init) (.complete true nearEnd) := by
  intro hfits
  have hfirst : FirstEnd Bus.ccsdsSync (nearEnd.take 122) := by
    have htake : nearEnd.take 122 = List.replicate 118 0 ++ Bus.ccsdsSync := by decide +kernel
    rw [htake]
    refine firstEnd_append Bus.ccsdsSync_head fun hin => ?_
    exact absurd (List.eq_of_mem_replicate (hin.subset List.mem_cons_self)) (by decide)
  have hsync : (interruptHandler true .init).sync ≠ packetSyncMarker := by decide
  have hpayload := hfits _ rfl
  rw [if_neg hsync] at hpayload
  have hroom := hpayload 122 (by decide) hfirst
  rw [if_neg (by decide)] at hroom
  exact absurd (hroom (by decide +kernel)) (by decide +kernel)

/-- The payload of such a packet is received behind the buffer. -/
theorem not_inBounds_nearEnd :
    ¬ ∀ (es : List Event) (d : SpiData), run .init es = some d → InBounds d := by
  intro hall
  have hfirst : step .init (.interrupt true) = some (interruptHandler true .init) := rfl
  have hsecond : step (interruptHandler true .init) (.complete true nearEnd) =
      some (complete true nearEnd ⟨none, 0, defaultReadLen⟩ (interruptHandler true .init)) :=
    step_of_pending rfl (by decide +kernel)
  have hrun : run .init [.interrupt true, .complete true nearEnd] =
      some (complete true nearEnd ⟨none, 0, defaultReadLen⟩ (interruptHandler true .init)) := by
    rw [run_cons, hfirst, Option.bind_some, run_cons, hsecond, Option.bind_some, run_nil]
  obtain ⟨-, -, hfits⟩ := (inBounds_run_iff wf_init hrun).mp (hall _ _ hrun)
  exact not_fits_nearEnd (hfits _ rfl).1

end ClickA.Driver
