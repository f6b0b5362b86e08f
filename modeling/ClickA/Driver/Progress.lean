import ClickA.Driver.Bounds
import ClickA.Machine.Run

/-!
# The progress of the driver

While the driver is busy it ignores interrupts, and only the end of a transfer lets it go on. A
transfer that `spi_async` refuses never ends, and nothing clears `busy` then.

## Main definitions

* `NotWedged`: a busy driver has a transfer that is pending
* `Requests`: the handler of an event calls `spi_async`
* `Event.Granted`: `spi_async` accepts the transfer of an event

## Main results

* `notWedged_iff`: the driver is never wedged exactly when each transfer that is asked for is
  accepted
* `wedged_step`: a driver that is wedged stays so
* `length_add_stage_le`: a transaction takes at most three transfers
-/

namespace ClickA.Driver

open Python (Bytes)
open Stream

/-- A busy driver has a transfer that is pending. -/
def NotWedged (d : SpiData) : Prop := d.busy = true → d.pending.isSome = true

/-! ## Requests -/

/-- The header is valid, and says that the packet does not end at `pos`. -/
def PayloadCut (mem : ℕ → UInt8) (header pos : ℕ) : Prop :=
  ValidLen (headerPayloadLen mem header) ∧
    pos < header + packetHeaderLen + headerPayloadLen mem header

/-- The bytes of a transfer do not end the packet: a first transfer has a marker, behind which the
header or the payload is cut, or the rest of a header is valid. -/
def PacketCut (d : SpiData) (xfer : Xfer) (bytes : Bytes) : Prop :=
  if d.sync = packetSyncMarker then
    d.payloadLen = 0 ∧ ValidLen (headerPayloadLen (store d.rx xfer.rxBuf bytes) d.header)
  else ∃ h ≤ xfer.len, FirstEnd Bus.ccsdsSync (bytes.take h) ∧
    (xfer.len < h + packetHeaderLen ∨ PayloadCut (store d.rx xfer.rxBuf bytes) h xfer.len)

/-- The handler of an event calls `spi_async`: an interrupt finds the driver idle, or the bytes of a
transfer do not end the packet. -/
def Requests (d : SpiData) : Event → Prop
  | .interrupt _ => d.busy = false
  | .complete _ bytes => ∃ xfer, d.pending = some xfer ∧ PacketCut d xfer bytes
  | _ => False

/-- The answer of `spi_async`. -/
def Event.Granted : Event → Prop
  | .interrupt accepted => accepted = true
  | .complete accepted _ => accepted = true
  | _ => True

/-- A transfer that is asked for is accepted. -/
def Grants (d : SpiData) (e : Event) : Prop := Requests d e → e.Granted

section Complete

variable {accepted : Bool} {bytes : Bytes} {d d' : SpiData} {xfer : Xfer} {h rxBuf len : ℕ}

/-- What a handler leaves of a transaction: it waits for the transfer that it asks for, if that is
accepted, or the driver is idle. -/
structure Waits (accepted asks : Bool) (d' : SpiData) : Prop where
  busy : d'.busy = asks
  pending : d'.pending.isSome = (asks && accepted)

theorem waits_of_asks (ha : Asks accepted d d' rxBuf len) (hbusy : d.busy = true)
    (hpending : d.pending = none) : Waits accepted true d' := by
  refine ⟨ha.busy.trans hbusy, ?_⟩
  rw [ha.pending, hpending]
  cases accepted <;> rfl

theorem waits_of_ends {packet : Option (ℕ × ℕ)} (he : Ends d d' packet)
    (hpending : d.pending = none) : Waits accepted false d' := by
  refine ⟨he.busy, ?_⟩
  rw [he.pending, hpending]
  rfl

/-- A complete header is followed by a request, if the payload is cut. -/
theorem waits_of_headerRead (hr : HeaderRead accepted d d') (hbusy : d.busy = true)
    (hpending : d.pending = none) :
    ∃ asks, Waits accepted asks d' ∧ (asks = true ↔ ValidLen (headerPayloadLen d.rx d.header) ∧
      d.readLen - packetHeaderLen < headerPayloadLen d.rx d.header) := by
  by_cases hvalid : ValidLen (headerPayloadLen d.rx d.header)
  · rcases Nat.lt_or_ge (d.readLen - packetHeaderLen) (headerPayloadLen d.rx d.header)
      with hshort | hwhole
    · exact ⟨true, waits_of_asks (hr.short hvalid hshort).1 hbusy hpending,
        iff_of_true rfl ⟨hvalid, hshort⟩⟩
    · exact ⟨false, waits_of_ends (hr.whole hvalid hwhole) hpending,
        iff_of_false (by simp) fun hcut => Nat.not_lt.mpr hwhole hcut.2⟩
  · exact ⟨false, waits_of_ends (hr.invalid hvalid) hpending,
      iff_of_false (by simp) fun hcut => hvalid hcut.1⟩

/-- What is cut when a first transfer ends with its marker at `h`. -/
theorem packetCut_searching_iff (hs : Searching d xfer) (hle : h ≤ xfer.len)
    (hb : bytes.length = xfer.len) (hfirst : FirstEnd Bus.ccsdsSync (bytes.take h)) :
    PacketCut d xfer bytes ↔ xfer.len < h + packetHeaderLen ∨
      PayloadCut (store d.rx xfer.rxBuf bytes) h xfer.len := by
  have hsync : d.sync ≠ packetSyncMarker := by
    rw [hs.sync]
    decide
  unfold PacketCut
  rw [if_neg hsync]
  constructor
  · rintro ⟨j, hj, hj', hcut⟩
    have heq := FirstEnd.eq_of_append hj' hfirst
      ((List.take_append_drop j bytes).trans (List.take_append_drop h bytes).symm)
    have hlens := congrArg List.length heq
    simp only [List.length_take] at hlens
    obtain rfl : j = h := by omega
    exact hcut
  · exact fun hcut => ⟨h, hle, hfirst, hcut⟩

/-- A first transfer without a marker ends the transaction. -/
theorem ends_searching (accepted : Bool) (hs : Searching d xfer) (hb : bytes.length = xfer.len)
    (hfound : ¬ ∃ h ≤ xfer.len, FirstEnd Bus.ccsdsSync (bytes.take h)) :
    Ends (received d xfer bytes) (complete accepted bytes xfer d) none := by
  apply complete_searching_none hs hb
  intro j hj hsuffix
  -- a marker that ends at `j` may have one before it
  obtain ⟨i, hi, hfirst⟩ := exists_firstEnd_take hsuffix
  exact hfound ⟨i, hi.trans hj, hfirst⟩

/-- The end of a first transfer. -/
theorem waits_searching (hd : Wf d) (hs : Searching d xfer) (hb : bytes.length = xfer.len) :
    ∃ asks, Waits accepted asks (complete accepted bytes xfer d) ∧
      (asks = true ↔ PacketCut d xfer bytes) := by
  have hm := received_received d xfer bytes
  have hbusy := hm.busy.trans (hd.busy hs.pending)
  have hlen := readLen_received bytes hs
  by_cases hfound : ∃ h ≤ xfer.len, FirstEnd Bus.ccsdsSync (bytes.take h)
  · obtain ⟨h, hle, hfirst⟩ := hfound
    rw [packetCut_searching_iff hs hle hb hfirst]
    rcases Nat.lt_or_ge xfer.len (h + packetHeaderLen) with hsplit | hwhole
    · obtain ⟨hasks, -⟩ : Asks accepted _ _ _ _ ∧ _ :=
        complete_searching_split hs hb hle hfirst hsplit
      exact ⟨true, waits_of_asks hasks hbusy hm.pending, iff_of_true rfl (.inl hsplit)⟩
    · have hr : HeaderRead accepted _ _ := complete_searching_whole hs hb hwhole hfirst
      obtain ⟨asks, hwaits, hiff⟩ := waits_of_headerRead hr hbusy hm.pending
      refine ⟨asks, hwaits, hiff.trans ?_⟩
      have hat : (atHeader (received d xfer bytes) h).header = h := by
        show (received d xfer bytes).readPtr + h = h
        rw [hm.readPtr.trans hs.readPtr, Nat.zero_add]
      have hrest : (atHeader (received d xfer bytes) h).readLen = xfer.len - h := by
        show (received d xfer bytes).readLen - h = xfer.len - h
        rw [hlen]
      have hrx : (atHeader (received d xfer bytes) h).rx = store d.rx xfer.rxBuf bytes := hm.rx
      rw [hat, hrest, hrx, or_iff_right (Nat.not_lt.mpr hwhole)]
      unfold PayloadCut
      refine and_congr_right fun hvalid => ?_
      have hpos := hvalid.1
      omega
  · have hends := ends_searching accepted hs hb hfound
    refine ⟨false, waits_of_ends hends hm.pending, iff_of_false (by simp) fun hcut => hfound ?_⟩
    unfold PacketCut at hcut
    rw [if_neg (by rw [hs.sync]; decide)] at hcut
    obtain ⟨h, hle, hfirst, -⟩ := hcut
    exact ⟨h, hle, hfirst⟩

/-- **The end of a transfer is followed by another one if and only if the packet is cut.** -/
theorem waits_complete (hd : Wf d) (hpending : d.pending = some xfer)
    (hb : bytes.length = xfer.len) :
    ∃ asks, Waits accepted asks (complete accepted bytes xfer d) ∧
      (asks = true ↔ PacketCut d xfer bytes) := by
  have hm := received_received d xfer bytes
  have hbusy := hm.busy.trans (hd.busy hpending)
  rcases hd.phase xfer hpending with hs | ⟨h, hs, -⟩ | ⟨h, apid, n, hs, -⟩
  · exact waits_searching hd hs hb
  · obtain ⟨asks, hwaits, hiff⟩ := waits_of_headerRead (complete_awaitsHeader accepted bytes hs)
      hbusy hm.pending
    refine ⟨asks, hwaits, hiff.trans ?_⟩
    have hlen := hm.readLen.trans hs.readLen
    unfold PacketCut
    rw [if_pos hs.sync, hlen, hm.rx, hm.header, and_iff_right hs.payloadLen, and_iff_left_iff_imp]
    intro hvalid
    have hpos := hvalid.1
    omega
  · refine ⟨false, waits_of_ends (complete_awaitsPayload accepted bytes hs) hm.pending,
      iff_of_false (by simp) fun hcut => ?_⟩
    unfold PacketCut at hcut
    rw [if_pos hs.sync, hs.payloadLen_eq] at hcut
    exact Nat.ne_of_gt hs.valid.1 hcut.1

end Complete

/-! ## Steps -/

section Steps

variable {accepted : Bool} {d d' : SpiData} {e : Event}

theorem waits_interrupt (hd : Wf d) (hbusy : d.busy = false) :
    Waits accepted true (interruptHandler accepted d) := by
  obtain ⟨xfer, hstarts⟩ : ∃ xfer, Starts accepted d (interruptHandler accepted d) xfer :=
    starts_interruptHandler hbusy
  refine ⟨hstarts.busy, ?_⟩
  rw [hstarts.pending, hd.quiet hbusy]
  cases accepted <;> rfl

theorem notWedged_iff_of_waits {asks : Bool} (h : Waits accepted asks d') :
    NotWedged d' ↔ (asks = true → accepted = true) := by
  unfold NotWedged
  rw [h.busy, h.pending]
  cases asks <;> simp

/-- A step leaves the driver without a pending transfer exactly when it asks for one that is
refused. -/
theorem notWedged_step_iff (hd : Wf d) (hn : NotWedged d) (h : step d e = some d') :
    NotWedged d' ↔ Grants d e := by
  cases e with
  | write k buf =>
    obtain rfl := Option.some.inj h
    exact iff_of_true hn (fun hrequests => absurd hrequests id)
  | interrupt accepted =>
    obtain rfl := Option.some.inj h
    by_cases hbusy : d.busy = false
    · rw [notWedged_iff_of_waits (waits_interrupt hd hbusy)]
      exact ⟨fun hacc _ => hacc rfl, fun hgrants _ => hgrants hbusy⟩
    · rw [interruptHandler, if_neg hbusy]
      exact iff_of_true hn fun hrequests => absurd hrequests hbusy
  | complete accepted bytes =>
    obtain ⟨xfer, hpending, hb, rfl⟩ := step_complete h
    obtain ⟨asks, hwaits, hiff⟩ := waits_complete hd hpending hb
    rw [notWedged_iff_of_waits hwaits, hiff]
    constructor
    · rintro hacc ⟨x, hx, hcut⟩
      obtain rfl := Option.some.inj (hpending.symm.trans hx)
      exact hacc hcut
    · exact fun hgrants hcut => hgrants ⟨xfer, hpending, hcut⟩
  | read len =>
    obtain ⟨-, rfl⟩ := step_read h
    exact iff_of_true hn (fun hrequests => absurd hrequests id)

/-- A driver that is wedged stays so: no event but a write or a read changes it. -/
theorem wedged_step (hw : ¬ NotWedged d) (h : step d e = some d') : ¬ NotWedged d' := by
  obtain ⟨hbusy, hpending⟩ : d.busy = true ∧ d.pending = none := by
    simpa [NotWedged] using hw
  have hstays : d'.busy = true ∧ d'.pending = none := by
    cases e with
    | write k buf =>
      obtain rfl := Option.some.inj h
      exact ⟨hbusy, hpending⟩
    | interrupt accepted =>
      obtain rfl := Option.some.inj h
      rw [interruptHandler, if_neg (by simp [hbusy])]
      exact ⟨hbusy, hpending⟩
    | complete accepted bytes =>
      obtain ⟨xfer, hsome, -⟩ := step_complete h
      exact absurd (hpending.symm.trans hsome) (by simp)
    | read len =>
      obtain ⟨-, rfl⟩ := step_read h
      exact ⟨hbusy, hpending⟩
  simpa [NotWedged] using hstays

end Steps

/-! ## The end of a transaction

A driver that is not wedged is idle again after three transfers at most, and the next interrupt
starts a transfer. -/

/-- The transfers that a transaction can still take. -/
def stage (d : SpiData) : ℕ :=
  if d.busy = false then 0
  else if d.sync ≠ packetSyncMarker then 3
  else if d.payloadLen = 0 then 2 else 1

section Stage

variable {bytes : Bytes} {d d' : SpiData} {xfer : Xfer}

theorem stage_le (d : SpiData) : stage d ≤ 3 := by
  unfold stage
  split_ifs <;> omega

theorem stage_eq_zero_iff : stage d = 0 ↔ d.busy = false := by
  unfold stage
  by_cases hbusy : d.busy = false
  · simp [hbusy]
  · rw [if_neg hbusy]
    split_ifs <;> simp [hbusy]

theorem stage_of_ends {packet : Option (ℕ × ℕ)} (h : Ends d d' packet) : stage d' = 0 :=
  stage_eq_zero_iff.mpr h.busy

theorem stage_of_sync (h : d.sync = packetSyncMarker) : stage d ≤ 2 := by
  unfold stage
  split_ifs <;> first | omega | contradiction

/-- Behind a header at most the payload is missing. -/
theorem stage_of_headerRead (hr : HeaderRead true d d') : stage d' ≤ 1 := by
  by_cases hvalid : ValidLen (headerPayloadLen d.rx d.header)
  · rcases Nat.lt_or_ge (d.readLen - packetHeaderLen) (headerPayloadLen d.rx d.header)
      with hshort | hwhole
    · obtain ⟨hasks, hawaits⟩ := hr.short hvalid hshort
      have hs := hawaits _ (hasks.pending.trans (if_pos rfl))
      have hpos := hs.valid.1
      have hpay := hs.payloadLen_eq
      have hne : d'.payloadLen ≠ 0 := by
        rw [hpay]
        exact Nat.ne_of_gt hpos
      unfold stage
      rw [if_neg (not_not.mpr hs.sync), if_neg hne]
      split_ifs <;> omega
    · rw [stage_of_ends (hr.whole hvalid hwhole)]
      omega
  · rw [stage_of_ends (hr.invalid hvalid)]
    omega

/-- The end of a transfer brings the transaction nearer to its end. -/
theorem stage_complete_lt (hd : Wf d) (hpending : d.pending = some xfer)
    (hb : bytes.length = xfer.len) : stage (complete true bytes xfer d) < stage d := by
  have hbusy : ¬ d.busy = false := by simp [hd.busy hpending]
  rcases hd.phase xfer hpending with hs | ⟨h, hs, -⟩ | ⟨h, apid, n, hs, -⟩
  -- the three phases of a transaction, from the first transfer on
  · have hstage : stage d = 3 := by
      unfold stage
      rw [if_neg hbusy, if_pos (by rw [hs.sync]; decide)]
    rw [hstage]
    by_cases hfound : ∃ h ≤ xfer.len, FirstEnd Bus.ccsdsSync (bytes.take h)
    · obtain ⟨h, hle, hfirst⟩ := hfound
      rcases Nat.lt_or_ge xfer.len (h + packetHeaderLen) with hsplit | hwhole
      · obtain ⟨hasks, hawaits⟩ : Asks true _ _ _ _ ∧ _ :=
          complete_searching_split hs hb hle hfirst hsplit
        have hle' := stage_of_sync (hawaits _ (hasks.pending.trans (if_pos rfl))).sync
        omega
      · have hle' := stage_of_headerRead (complete_searching_whole hs hb hwhole hfirst)
        omega
    · have hends := ends_searching true hs hb hfound
      rw [stage_of_ends hends]
      omega
  · have hstage : stage d = 2 := by
      unfold stage
      rw [if_neg hbusy, if_neg (not_not.mpr hs.sync), if_pos hs.payloadLen]
    have hle := stage_of_headerRead (complete_awaitsHeader true bytes hs)
    omega
  · rw [stage_of_ends (complete_awaitsPayload true bytes hs)]
    exact Nat.pos_of_ne_zero (mt stage_eq_zero_iff.mp hbusy)

/-- **A transaction takes at most three transfers**, when `spi_async` accepts them. -/
theorem length_add_stage_le {es : List Event} (hd : Wf d)
    (hes : ∀ e ∈ es, ∃ bytes, e = .complete true bytes) (h : run d es = some d') :
    es.length + stage d' ≤ stage d := by
  induction es generalizing d with
  | nil =>
    obtain rfl := Option.some.inj h
    exact (Nat.zero_add _).le
  | cons e es ih =>
    rw [run_cons] at h
    obtain ⟨d₁, hstep, hrun⟩ := Option.bind_eq_some_iff.mp h
    have hrest := ih (wf_step hd hstep) (fun e' he' => hes e' (List.mem_cons_of_mem _ he')) hrun
    obtain ⟨bytes, rfl⟩ := hes e List.mem_cons_self
    obtain ⟨xfer, hpending, hb, rfl⟩ := step_complete hstep
    have hlt := stage_complete_lt hd hpending hb
    rw [List.length_cons]
    omega

end Stage

/-! ## Runs -/

/-- **In every state of a run a busy driver has a pending transfer, if and only if each transfer
that a handler asks for is accepted.** -/
theorem notWedged_iff {es : List Event} (hrun : (Machine.run step .init es).isSome = true) :
    Machine.Always step NotWedged .init es ↔ Machine.Along step Grants .init es := by
  have hinit : Wf .init ∧ NotWedged .init := ⟨wf_init, fun hbusy => absurd hbusy (by simp
    [SpiData.init])⟩
  refine Machine.always_iff_along (fun d (hd : Wf d ∧ NotWedged d) => hd.2) ?_ ?_ hinit hrun
  · rintro d e d' ⟨hd, hn⟩ hgrants h
    exact ⟨wf_step hd h, (notWedged_step_iff hd hn h).mpr hgrants⟩
  · rintro d e d' ⟨hd, hn⟩ hgrants h hn'
    exact hgrants ((notWedged_step_iff hd hn h).mp hn')

theorem machineRun_eq (d : SpiData) (es : List Event) : Machine.run step d es = run d es := by
  induction es generalizing d with
  | nil => rfl
  | cons e es ih =>
    rw [Machine.run, run_cons]
    exact congrArg (step d e).bind (funext ih)

/-- The transfers of a packet that comes in three parts are accepted. -/
theorem notWedged_iff_threeTransfers : Machine.Always step NotWedged .init threeTransfers ↔
    Machine.Along step Grants .init threeTransfers := by
  obtain ⟨d, hrun⟩ := exists_run_threeTransfers
  rw [← machineRun_eq] at hrun
  exact notWedged_iff (Option.isSome_of_eq_some hrun)

/-- The first transfer is refused. -/
theorem not_notWedged_refused : ¬ Machine.Always step NotWedged .init [.interrupt false] := by
  rintro ⟨-, hthen⟩
  have hlast : NotWedged (interruptHandler false .init) := hthen _ rfl
  exact absurd (hlast rfl) (by simp [interruptHandler, spiDataInit, spiXfer, SpiData.init,
    TxQueue.empty])

end ClickA.Driver
