import ClickA.Housekeeping.PeriodicChecks

/-!
# Housekeeping and its own restarts

Command handlers send heartbeats, periods and commands under the process id that they have then. A
message may be read after its sender has been replaced. The heartbeat of a process id that is not
known any more is reported, but its period is not expected. The check of the system has no handler
for what it raises either.

## Main definitions

* `Heartbeat`, `Control`: messages of command handlers
* `System`, `Action`, `System.step`: housekeeping with the messages to it, and what happens to it
* `System.Valid`, `Valid`: what may happen
* `Survives`: nothing is raised, and timeouts are changed only as they should be
* `Undisturbed`: each period is read while its sender has not been replaced, and each check of the
  system goes through

## Main results

* `survives_iff`: when housekeeping survives a run
-/

namespace ClickA.Housekeeping

open Python Options

/-- What a command handler sends on the control socket: its new period, or the payload of a
`CMD_PL_SET_HK`. -/
inductive Content
  | period (newPeriod : ℕ)
  | setHk (payload : Bytes)
deriving DecidableEq, Repr

/-- The message with it. -/
def Content.encode (pid : ℕ) : Content → Except Exn Bytes
  | .period newPeriod => do
    let payload ← pack (native [.I]) [.int newPeriod]
    HKControlPacket.encode pid hkControlCh payload
  | .setHk payload => do
    match ← unpack (network [.s 6]) payload with
    | [.str setHkPayload] => HKControlPacket.encode pid cmdPlSetHk setHkPayload
    | _ => .error .structError

/-- A heartbeat: who sent it, under which process id, and when. -/
structure Heartbeat where
  sender : ℕ
  pid : ℕ
  time : Float
  raw : Bytes
  encoded : HeartbeatPacket.encode pid time = .ok raw

/-- A control message. -/
structure Control where
  sender : ℕ
  pid : ℕ
  content : Content
  raw : Bytes
  encoded : content.encode pid = .ok raw

/-- The message may change the timeout of the watchdog that gives an alert. -/
def Control.Concerns (m : Control) (alert : Alert) : Prop :=
  match m.content with
  | .period _ => alert = .missingCh m.sender
  | .setHk _ => True

/-- Housekeeping between two statements, the process ids that there have been, and the messages that
were sent and not read yet. -/
structure System where
  hk : Housekeeper
  used : List ℕ
  place : ℕ := 0
  heartbeats : List Heartbeat := []
  controls : List Control := []

/-- Housekeeping starts. -/
def System.start (hk : Housekeeper) : System := { hk, used := hk.services }

/-- Another thread does something, a command handler sends, or housekeeping runs its next statement.
A message is read in any order. -/
inductive Action
  | rings (alarm : Alarm)
  | sendsHeartbeat (m : Heartbeat)
  | sendsControl (m : Control)
  | runs (st : Statement)
  | readsHeartbeat (k : ℕ)
  | readsControl (k : ℕ)

namespace System

variable (report : Err → Bytes)

/-- Housekeeping runs a statement. -/
def exec (s : System) (st : Statement) : Except Err System :=
  match st.run report s.hk with
  | .ok _ hk =>
    .ok { s with hk, used := hk.services ++ s.used, place := (s.place + 1) % Statement.count }
  | .error e _ => .error e

def step (s : System) : Action → Except Err System
  | .rings alarm => .ok { s with hk := alarm.ring s.hk }
  | .sendsHeartbeat m => .ok { s with heartbeats := s.heartbeats ++ [m] }
  | .sendsControl m => .ok { s with controls := s.controls ++ [m] }
  | .runs st => s.exec report st
  | .readsHeartbeat k =>
    { s with heartbeats := s.heartbeats.eraseIdx k }.exec report
      (.chHeartbeat (s.heartbeats[k]?.map Heartbeat.raw))
  | .readsControl k =>
    { s with controls := s.controls.eraseIdx k }.exec report
      (.control (s.controls[k]?.map Control.raw))

/-- The service manager gives process ids that are not zero and were never used, and the load
balancer sends heartbeats. What command handlers sent is read by actions of its own. -/
def Admits (s : System) : Statement → Prop
  | .missingCh pid => pid ≠ 0 ∧ pid ∉ s.used
  | .missingLb pids => (∀ i < commandHandlersCount, pids i ≠ 0 ∧ pids i ∉ s.used) ∧
      ((List.range commandHandlersCount).map pids).Nodup
  | .lbHeartbeat message =>
      ∀ raw ∈ message, ∃ origin time, HeartbeatPacket.encode origin time = .ok raw
  | .patHealth message | .chHeartbeat message | .control message => message = none
  | .fpgaCheck | .sysCheck .. | .missingPat | .missingFpga | .fpgaAnswer | .sendPackets => True

/-- The FPGA server answers with the registers of its telemetry, command handlers send under the
process ids that they have, and the statements come in their order. -/
def Valid (s : System) : Action → Prop
  | .rings (.fpgaAnswer answer) => IsTelemetry answer
  | .rings _ => True
  | .sendsHeartbeat m => s.hk.services[m.sender]? = some m.pid
  | .sendsControl m => s.hk.services[m.sender]? = some m.pid
  | .runs st => st.place = s.place ∧ s.Admits st
  | .readsHeartbeat _ => (Statement.chHeartbeat none).place = s.place
  | .readsControl _ => (Statement.control none).place = s.place

/-- A timeout is changed only by a message of the command handler that is watched, or by
`CMD_PL_SET_HK`. -/
def Intended (s : System) (a : Action) (s' : System) : Prop :=
  ∀ alert, SameTimeout alert s.hk s'.hk ∨
    ∃ k m, a = .readsControl k ∧ s.controls[k]? = some m ∧ m.Concerns alert

/-- The sender of a period that is read still has its process id, and a check of the system goes
through. -/
def Undisturbed (s : System) : Action → Prop
  | .readsControl k => ∀ m newPeriod, s.controls[k]? = some m → m.content = .period newPeriod →
      s.hk.services[m.sender]? = some m.pid
  | .runs (.sysCheck _ psutil) => s.hk.Checkable psutil
  | _ => True

end System

/-- Each action of a run may happen. -/
def Valid (report : Err → Bytes) : System → List Action → Prop
  | _, [] => True
  | s, a :: as => s.Valid a ∧ ∀ s', s.step report a = .ok s' → Valid report s' as

/-- Nothing is raised in a run, and timeouts are changed only as they should be. -/
def Survives (report : Err → Bytes) : System → List Action → Prop
  | _, [] => True
  | s, a :: as => ∃ s', s.step report a = .ok s' ∧ s.Intended a s' ∧ Survives report s' as

/-- Each period is read while its sender has not been replaced, and each check of the system goes
through. -/
def Undisturbed (report : Err → Bytes) : System → List Action → Prop
  | _, [] => True
  | s, a :: as => s.Undisturbed a ∧ ∀ s', s.step report a = .ok s' → Undisturbed report s' as

variable {report : Err → Bytes} {h h' : Housekeeper} {pids : ℕ → ℕ} {s s' : System} {a : Action}
  {as : List Action} {st : Statement}

/-! ## Statements -/

theorem unmoved_expire (halive : Alive h) {inst : ℕ} (hinst : inst < commandHandlersCount) :
    Unmoved h (expire inst h) := by
  obtain ⟨⟨timeout, function, timer⟩, hobject, hfunction, hstarted⟩ := halive.watchdogs inst hinst
  obtain rfl : function = .missingCh inst := hfunction
  simp only [expire, hobject]
  split
  · have hset : Alive (h.setWatchdog inst
        { timeout, function := .missingCh inst, timer := some .over }) :=
      halive.setWatchdog hobject rfl (by simp)
    refine ⟨⟨hset.toRegistered.of_eq rfl rfl rfl, hset.current, hset.patHealthWd,
      hset.lbHeartbeatWd, hset.checkTimers, ?_, hset.fits⟩, rfl,
      SameTimeout.setWatchdog hobject rfl⟩
    intro i hi
    rcases List.mem_append.mp hi with hi | hi
    · exact halive.queue i hi
    · rw [List.mem_singleton.mp hi]
      exact hinst
  · exact Unmoved.refl halive

/-- A callback of a check sets its flag, or starts the next timer. -/
theorem Unmoved.setCheckTimer (halive : Alive h) (c : Check) {t : ResetTimer}
    (hstarted : t.timer ≠ none) : Unmoved h (h.setCheckTimer c t) := by
  cases c with
  | fpga =>
    exact ⟨halive.of_eq (halive.toRegistered.of_eq rfl rfl rfl) rfl rfl halive.patHealthWd
      halive.lbHeartbeatWd ⟨hstarted, halive.checkTimers.2⟩ rfl halive.fits, rfl,
      fun alert => .refl alert h⟩
  | sys =>
    exact ⟨halive.of_eq (halive.toRegistered.of_eq rfl rfl rfl) rfl rfl halive.patHealthWd
      halive.lbHeartbeatWd ⟨halive.checkTimers.1, hstarted⟩ rfl halive.fits, rfl,
      fun alert => .refl alert h⟩

theorem unmoved_check (halive : Alive h) (c : Check) (i : ℕ) :
    Unmoved h ((Alarm.check c i).ring h) := by
  have hstarted : (h.checkTimer c).timer ≠ none := by
    cases c with
    | fpga => exact halive.checkTimers.1
    | sys => exact halive.checkTimers.2
  rw [Alarm.ring]
  split
  · next t halert =>
    have hphase : (h.checkTimer c).setPhase i .alerted = t := by
      rw [ResetTimer.alert] at halert
      split at halert
      · exact Option.some.inj halert
      · cases halert
    have hset : Unmoved h (h.setCheckTimer c t) :=
      .setCheckTimer halive c (by rwa [← hphase, ResetTimer.timer_setPhase])
    refine hset.trans (Unmoved.of_vital hset.alive ?_)
    cases c <;> rfl
  · exact Unmoved.refl halive

/-- An alarm is kept for a later statement. -/
theorem unmoved_ring (halive : Alive h) (alarm : Alarm)
    (hanswer : ∀ answer, alarm = .fpgaAnswer answer → IsTelemetry answer) :
    Unmoved h (alarm.ring h) := by
  cases alarm with
  | ch inst => exact unmoved_expire halive inst.isLt
  | fpga =>
    rw [Alarm.ring]
    split
    · exact Unmoved.of_vital halive rfl
    · exact Unmoved.refl halive
  | pat =>
    rw [Alarm.ring]
    split
    · exact ⟨halive.of_eq (halive.toRegistered.of_eq rfl rfl rfl) rfl rfl
        (by simp [Housekeeper.setPatHealthWd]) halive.lbHeartbeatWd halive.checkTimers rfl
        halive.fits, rfl, SameTimeout.setPatHealthWd rfl⟩
    · exact Unmoved.refl halive
  | lb =>
    rw [Alarm.ring]
    split
    · exact ⟨halive.of_eq (halive.toRegistered.of_eq rfl rfl rfl) rfl rfl halive.patHealthWd
        (by simp [Housekeeper.setLbHeartbeatWd]) halive.checkTimers rfl halive.fits, rfl,
        SameTimeout.setLbHeartbeatWd rfl⟩
    · exact Unmoved.refl halive
  | fpgaAnswer answer =>
    rw [Alarm.ring]
    split
    · obtain ⟨hperiods, hanswers⟩ := halive.fits
      have hqueue : ∀ a ∈ h.fpgaQueue ++ [answer], IsTelemetry a := by
        intro a ha
        rcases List.mem_append.mp ha with ha | ha
        · exact hanswers a ha
        · rw [List.mem_singleton.mp ha]
          exact hanswer answer rfl
      exact ⟨halive.of_eq (halive.toRegistered.of_eq rfl rfl rfl) rfl rfl halive.patHealthWd
        halive.lbHeartbeatWd halive.checkTimers rfl ⟨hperiods, hqueue⟩, rfl,
        fun alert => .refl alert h⟩
    · exact Unmoved.refl halive
  | check c i => exact unmoved_check halive c i
  | again c i =>
    rw [Alarm.ring]
    split
    · next t hrestart =>
      rw [ResetTimer.restart] at hrestart
      split at hrestart
      · refine .setCheckTimer halive c ?_
        rw [← Option.some.inj hrestart]
        simp [ResetTimer.start]
      · cases hrestart
    · exact Unmoved.refl halive

theorem ensures_sendPackets (halive : Alive h) : Ensures sendPackets (fun _ h' => Unmoved h h') h :=
  Unmoved.of_vital halive rfl

/-- Each statement that reads no message of a command handler ends normally. -/
theorem ensures_run (report : Err → Bytes) (halive : Alive s.hk) (hused : s.hk.services ⊆ s.used)
    (hadmits : s.Admits st) (hundisturbed : s.Undisturbed (.runs st)) :
    Ensures (st.run report) (fun _ h' => Restarted {pid | pid ∉ s.used} s.hk h') s.hk := by
  cases st with
  | fpgaCheck => exact (ensures_handleFpgaCheck halive).imp fun _ _ hunmoved => hunmoved.restarted
  | sysCheck bootIds psutil =>
    obtain ⟨h', hok, hlogged⟩ := handleSysCheck_eq report bootIds halive hundisturbed
    exact (wp_of_ok hok).mpr (hlogged.unmoved halive).restarted
  | fpgaAnswer =>
    exact (ensures_handleFpgaAnswer halive).imp fun _ _ hunmoved => hunmoved.restarted
  | missingCh pid =>
    obtain ⟨hzero, hfresh⟩ := hadmits
    refine (ensures_handleMissingCh halive hzero fun hmem => hfresh (hused hmem)).imp ?_
    rintro _ h' ⟨halive', hservices, htimeouts⟩
    refine ⟨halive', fun i p hp => (hservices i p hp).imp_right ?_, htimeouts⟩
    rintro rfl
    exact hfresh
  | missingPat => exact (ensures_handleMissingPat halive).imp fun _ _ hunmoved => hunmoved.restarted
  | missingFpga => exact (ensures_handleMissingFpga halive).imp fun _ _ hunmoved =>
      hunmoved.restarted
  | missingLb pids =>
    obtain ⟨hfresh, hnodup⟩ := hadmits
    have hzero : ∀ i < commandHandlersCount, pids i ≠ 0 := fun i hi => (hfresh i hi).1
    have hapart : Apart pids s.hk.services := by
      refine ⟨fun i j hi hj hsame => ?_, fun i j hij hj hsame => ?_⟩
      · exact List.inj_on_of_nodup_map hnodup (List.mem_range.mpr hi) (List.mem_range.mpr hj) hsame
      · exact (hfresh i (hij.trans hj)).2 (hused (List.mem_of_getElem? hsame))
    refine (ensures_handleMissingLb halive hzero hapart).imp ?_
    rintro _ h' ⟨halive', hservices, htimeouts⟩
    refine ⟨halive', fun i p hp => (hservices i p hp).imp_right ?_, htimeouts⟩
    rintro ⟨j, rfl⟩
    exact (hfresh j j.isLt).2
  | patHealth message =>
    obtain rfl : message = none := hadmits
    exact (Unmoved.refl halive).restarted
  | lbHeartbeat message =>
    cases message with
    | none => exact (Unmoved.refl halive).restarted
    | some raw =>
      obtain ⟨origin, time, hencode⟩ := hadmits raw rfl
      obtain ⟨time', hdecode⟩ := HeartbeatPacket.decode_encode hencode
      exact (ensures_handleLbHeartbeat halive hdecode).imp fun _ _ hunmoved => hunmoved.restarted
  | chHeartbeat message =>
    obtain rfl : message = none := hadmits
    exact (Unmoved.refl halive).restarted
  | control message =>
    obtain rfl : message = none := hadmits
    exact (Unmoved.refl halive).restarted
  | sendPackets => exact (ensures_sendPackets halive).imp fun _ _ hunmoved => hunmoved.restarted

/-- A heartbeat of a command handler is read. -/
theorem ensures_chHeartbeat (report : Err → Bytes) (halive : Alive h) (m : Option Heartbeat) :
    Ensures ((Statement.chHeartbeat (m.map Heartbeat.raw)).run report)
      (fun _ h' => Unmoved h h') h := by
  cases m with
  | none => exact Unmoved.refl halive
  | some m =>
    obtain ⟨time, hdecode⟩ := HeartbeatPacket.decode_encode m.encoded
    exact ensures_handleHeartbeat halive hdecode

/-! ### Control messages -/

/-- A period comes with its sender's process id. -/
theorem handleControl_period {m : Control} {newPeriod : ℕ}
    (hcontent : m.content = .period newPeriod) :
    ∃ payload, pack (native [.I]) [.int newPeriod] = .ok payload ∧
      handleControl m.raw = handleChPeriod m.pid payload := by
  have hencode := m.encoded
  rw [hcontent, Content.encode] at hencode
  obtain ⟨payload, hpayload, hencode⟩ := bind_eq_ok.mp hencode
  refine ⟨payload, hpayload, ?_⟩
  rw [handleControl, HKControlPacket.decode_encode hencode]
  rfl

/-- A command comes with its six bytes. -/
theorem handleControl_setHk {m : Control} {payload : Bytes}
    (hcontent : m.content = .setHk payload) :
    ∃ command, command.length = 6 ∧ handleControl m.raw = handleHkCommand command := by
  have hencode := m.encoded
  rw [hcontent, Content.encode] at hencode
  obtain ⟨values, hunpack, hencode⟩ := bind_eq_ok.mp hencode
  have hlen : payload.length = calcsize (network [.s 6]) := length_of_unpack hunpack
  have hvalues : unpack (network [.s 6]) payload = .ok [.str (payload.take 6)] := by
    rw [unpack, if_pos hlen]
    rfl
  obtain rfl := Except.ok.inj (hvalues.symm.trans hunpack)
  refine ⟨payload.take 6, by rw [List.length_take, hlen]; decide, ?_⟩
  rw [handleControl, HKControlPacket.decode_encode hencode]
  rfl

/-! ## Runs -/

/-- What every reachable state has: the process ids of the messages were used, and one that is still
in use is their sender's. -/
structure Sound (s : System) : Prop where
  alive : Alive s.hk
  used : s.hk.services ⊆ s.used
  controls : ∀ m ∈ s.controls, m.pid ∈ s.used ∧
    ∀ i : ℕ, s.hk.services[i]? = some m.pid → i = m.sender

/-- Messages are sent and read, and process ids are given that were never used. -/
theorem Sound.of_restarted {controls : List Control} {place : ℕ} {heartbeats : List Heartbeat}
    (hsound : Sound s) (hcontrols : controls ⊆ s.controls) (halive : Alive h')
    (hservices : ∀ i pid : ℕ, h'.services[i]? = some pid →
      s.hk.services[i]? = some pid ∨ pid ∉ s.used) :
    Sound { hk := h', used := h'.services ++ s.used, place, heartbeats, controls } where
  alive := halive
  used := List.subset_append_left ..
  controls m hm := by
    obtain ⟨hused, hsender⟩ := hsound.controls m (hcontrols hm)
    refine ⟨List.mem_append_right _ hused, fun i hi => ?_⟩
    rcases hservices i m.pid hi with hold | hnew
    · exact hsender i hold
    · exact absurd hused hnew

/-- The watchdog of a process id that is in use is its sender's. -/
theorem Sound.mem_chPids_iff (hsound : Sound s) {m : Control} (hm : m ∈ s.controls) :
    m.pid ∈ s.hk.chPids ↔ s.hk.services[m.sender]? = some m.pid := by
  rw [hsound.alive.current]
  constructor
  · intro hmem
    obtain ⟨i, hi⟩ := List.mem_iff_getElem?.mp hmem
    obtain rfl := (hsound.controls m hm).2 i hi
    exact hi
  · exact fun hpid => List.mem_of_getElem? hpid

theorem exec_of_ok {hk : Housekeeper} (hok : st.run report s.hk = .ok () hk) :
    s.exec report st = .ok { s with
      hk, used := hk.services ++ s.used, place := (s.place + 1) % Statement.count } := by
  rw [System.exec, hok]

theorem exec_of_ensures {Q : Unit → Housekeeper → Prop} (hrun : Ensures (st.run report) Q s.hk) :
    ∃ hk, s.exec report st = .ok { s with
      hk, used := hk.services ++ s.used, place := (s.place + 1) % Statement.count } ∧ Q () hk := by
  obtain ⟨_, hk, hok, hq⟩ := ensures_iff.mp hrun
  exact ⟨hk, exec_of_ok hok, hq⟩

theorem exec_of_raises (hrun : Raises (st.run report) s.hk) :
    ¬ ∃ s', s.exec report st = .ok s' := by
  obtain ⟨e, hk, herror, -⟩ := Wp.exists_error hrun
  rw [System.exec, herror]
  simp

/-- A statement that reads no control message ends normally, and leaves the timeouts as they
were. -/
theorem Sound.exec {heartbeats : List Heartbeat} (hsound : Sound s)
    (hrun : Ensures (st.run report)
      (fun _ h' => Restarted {pid | pid ∉ s.used} s.hk h') s.hk) :
    ∃ s', ({ s with heartbeats } : System).exec report st = .ok s' ∧
      (∀ alert, SameTimeout alert s.hk s'.hk) ∧ Sound s' := by
  obtain ⟨hk, hexec, hrestarted⟩ := exec_of_ensures (s := { s with heartbeats }) hrun
  exact ⟨_, hexec, hrestarted.timeouts,
    hsound.of_restarted (List.Subset.refl _) hrestarted.alive hrestarted.services⟩

/-- A control message is read, whose sender still has its process id if it is a period. -/
theorem Sound.readsControl {k : ℕ} (hsound : Sound s)
    (hundisturbed : s.Undisturbed (.readsControl k)) :
    ∃ s', s.step report (.readsControl k) = .ok s' ∧ s.Intended (.readsControl k) s' ∧
      Sound s' := by
  have hrun : Ensures ((Statement.control (s.controls[k]?.map Control.raw)).run report)
      (fun _ h' => Read s.hk h' ∧ ∀ alert, SameTimeout alert s.hk h' ∨
        ∃ m, s.controls[k]? = some m ∧ m.Concerns alert) s.hk := by
    cases hm : s.controls[k]? with
    | none => exact ⟨⟨hsound.alive, rfl⟩, fun alert => .inl (.refl alert _)⟩
    | some m =>
      show Ensures (handleControl m.raw) _ _
      cases hcontent : m.content with
      | period newPeriod =>
        obtain ⟨payload, hpayload, hhandle⟩ := handleControl_period hcontent
        have hpid : s.hk.chPids[m.sender]? = some m.pid := by
          rw [hsound.alive.current]
          exact hundisturbed m newPeriod hm hcontent
        rw [hhandle]
        refine (ensures_handleChPeriod hsound.alive hpayload hpid).imp ?_
        intro _ h' hread
        refine ⟨hread.toRead, fun alert => ?_⟩
        by_cases hown : alert = .missingCh m.sender
        · exact .inr ⟨m, rfl, by rwa [Control.Concerns, hcontent]⟩
        · exact .inl (hread.others alert hown)
      | setHk payload =>
        obtain ⟨command, hlen, hhandle⟩ := handleControl_setHk hcontent
        rw [hhandle]
        refine (ensures_handleHkCommand hsound.alive hlen).imp ?_
        rintro _ h' ⟨hread, -⟩
        exact ⟨hread, fun alert => .inr ⟨m, rfl, by rw [Control.Concerns, hcontent]; trivial⟩⟩
  obtain ⟨hk, hexec, hread, htimeouts⟩ :=
    exec_of_ensures (s := { s with controls := s.controls.eraseIdx k }) hrun
  refine ⟨_, hexec, fun alert => ?_, hsound.of_restarted (List.eraseIdx_subset ..) hread.alive ?_⟩
  · rcases htimeouts alert with hsame | ⟨m, hm, hconcerns⟩
    · exact .inl hsame
    · exact .inr ⟨k, m, rfl, hm, hconcerns⟩
  · intro i pid hpid
    rw [hread.services] at hpid
    exact .inl hpid

/-- Nothing else is raised, and no other timeout is changed. -/
theorem Sound.step (hsound : Sound s) (hvalid : s.Valid a) (hundisturbed : s.Undisturbed a) :
    ∃ s', s.step report a = .ok s' ∧ s.Intended a s' ∧ Sound s' := by
  cases a with
  | rings alarm =>
    have hanswer : ∀ answer, alarm = .fpgaAnswer answer → IsTelemetry answer := by
      rintro answer rfl
      exact hvalid
    have hunmoved := unmoved_ring hsound.alive alarm hanswer
    refine ⟨_, rfl, fun alert => .inl (hunmoved.timeouts alert), hunmoved.alive, ?_, ?_⟩
    · show (alarm.ring s.hk).services ⊆ s.used
      rw [hunmoved.services]
      exact hsound.used
    · intro m hm
      obtain ⟨hused, hsender⟩ := hsound.controls m hm
      refine ⟨hused, fun i hi => hsender i ?_⟩
      rw [← hunmoved.services]
      exact hi
  | sendsHeartbeat m =>
    exact ⟨_, rfl, fun alert => .inl (.refl alert _), hsound.alive, hsound.used, hsound.controls⟩
  | sendsControl m =>
    refine ⟨_, rfl, fun alert => .inl (.refl alert _), hsound.alive, hsound.used, fun m' hm' => ?_⟩
    rcases List.mem_append.mp hm' with hm' | hm'
    · exact hsound.controls m' hm'
    · obtain rfl := List.mem_singleton.mp hm'
      have hpid : s.hk.services[m'.sender]? = some m'.pid := hvalid
      refine ⟨hsound.used (List.mem_of_getElem? hpid), fun i hi => ?_⟩
      have hi' : s.hk.services[i]? = some m'.pid := hi
      rw [← hsound.alive.current] at hpid hi'
      exact hsound.alive.inj hi' hpid
  | runs st =>
    obtain ⟨s', hexec, htimeouts, hsound'⟩ :=
      hsound.exec (ensures_run report hsound.alive hsound.used hvalid.2 hundisturbed)
    exact ⟨s', hexec, fun alert => .inl (htimeouts alert), hsound'⟩
  | readsHeartbeat k =>
    have hrun := ensures_chHeartbeat report hsound.alive s.heartbeats[k]?
    obtain ⟨s', hexec, htimeouts, hsound'⟩ :=
      hsound.exec (hrun.imp fun _ _ hunmoved => hunmoved.restarted)
    exact ⟨s', hexec, fun alert => .inl (htimeouts alert), hsound'⟩
  | readsControl k => exact hsound.readsControl hundisturbed

/-- A period whose sender was replaced is raised for, and so is a check that does not go through. -/
theorem Sound.not_step (hsound : Sound s) (hundisturbed : ¬ s.Undisturbed a) :
    ¬ ∃ s', s.step report a = .ok s' := by
  cases a with
  | readsControl k =>
    simp only [System.Undisturbed, not_forall] at hundisturbed
    obtain ⟨m, newPeriod, hm, hcontent, hreplaced⟩ := hundisturbed
    have hmem : m ∈ s.controls := List.mem_of_getElem? hm
    rw [← hsound.mem_chPids_iff hmem] at hreplaced
    obtain ⟨payload, hpayload, hhandle⟩ := handleControl_period hcontent
    apply exec_of_raises (s := { s with controls := s.controls.eraseIdx k })
    rw [hm]
    show Raises (handleControl m.raw) s.hk
    rw [hhandle]
    exact raises_handleChPeriod hsound.alive hpayload hreplaced
  | rings alarm => exact absurd trivial hundisturbed
  | sendsHeartbeat m => exact absurd trivial hundisturbed
  | sendsControl m => exact absurd trivial hundisturbed
  | runs st =>
    cases st with
    | sysCheck bootIds psutil =>
      exact exec_of_raises (raises_handleSysCheck hsound.alive hundisturbed)
    | _ => exact absurd trivial hundisturbed
  | readsHeartbeat k => exact absurd trivial hundisturbed

/-- Housekeeping survives a run from where it is if nothing disturbs it. -/
theorem Sound.survives (hsound : Sound s) (hvalid : Valid report s as) :
    Survives report s as ↔ Undisturbed report s as := by
  induction as generalizing s with
  | nil => exact Iff.rfl
  | cons a as ih =>
    obtain ⟨hnow, hlater⟩ := hvalid
    by_cases hundisturbed : s.Undisturbed a
    · obtain ⟨s', hstep, hintended, hsound'⟩ :
        ∃ s', s.step report a = .ok s' ∧ s.Intended a s' ∧ Sound s' :=
        hsound.step hnow hundisturbed
      have hrest := ih hsound' (hlater s' hstep)
      constructor
      · rintro ⟨s'', hstep', -, hsurvives⟩
        obtain rfl := Except.ok.inj (hstep.symm.trans hstep')
        refine ⟨hundisturbed, fun s'' hstep'' => ?_⟩
        obtain rfl := Except.ok.inj (hstep.symm.trans hstep'')
        exact hrest.mp hsurvives
      · rintro ⟨-, hrestUndisturbed⟩
        exact ⟨s', hstep, hintended, hrest.mpr (hrestUndisturbed s' hstep)⟩
    · refine iff_of_false ?_ fun h => hundisturbed h.1
      rintro ⟨s', hstep, -⟩
      exact hsound.not_step hundisturbed ⟨s', hstep⟩

theorem Sound.of_startup (hstart : startup pids = .ok h)
    (hnodup : ((List.range commandHandlersCount).map pids).Nodup) : Sound (System.start h) := by
  have hstable := Stable.of_startup hstart hnodup
  have hothers : h.patHealthWd.timer ≠ none ∧
      (h.fpgaCheckTimer.timer ≠ none ∧ h.sysCheckTimer.timer ≠ none) ∧ h.missingChQueue = [] ∧
        h.checked = ([hkFpgaCheckPd, hkSysCheckPd, hkLbCheckPd, hkPatCheckPd], []) := by
    unfold startup at hstart
    dsimp only at hstart
    split at hstart
    · exact absurd hstart (by simp)
    · rw [← Except.ok.inj hstart]
      simp [ResetTimer.start, Housekeeper.checked]
  obtain ⟨hpat, htimers, hqueue, hchecked⟩ := hothers
  have halive : Alive h := by
    refine ⟨hstable.toRegistered, hstable.current, hpat, hstable.lbHeartbeatWd, htimers, ?_, ?_⟩
    · rw [hqueue]
      exact fun inst hinst => absurd hinst List.not_mem_nil
    · rw [hchecked]
      exact ⟨by decide, fun answer hanswer => absurd hanswer List.not_mem_nil⟩
  exact ⟨halive, List.Subset.refl _, fun m hm => absurd hm List.not_mem_nil⟩

theorem valid_cons (hstep : s.step report a = .ok s') (hnow : s.Valid a)
    (hlater : Valid report s' as) : Valid report s (a :: as) := by
  refine ⟨hnow, fun s'' hstep' => ?_⟩
  obtain rfl := Except.ok.inj (hstep.symm.trans hstep')
  exact hlater

/-- **Housekeeping survives a run, if each period is read while its sender has not been replaced and
each check of the system goes through, and only then**: no statement raises, and the timeout of a
watchdog is changed only by a message of the command handler that is watched, or by
`CMD_PL_SET_HK`. -/
theorem survives_iff (hstart : startup pids = .ok h)
    (hnodup : ((List.range commandHandlersCount).map pids).Nodup)
    (hvalid : Valid report (System.start h) as) :
    Survives report (System.start h) as ↔ Undisturbed report (System.start h) as :=
  (Sound.of_startup hstart hnodup).survives hvalid

/-- `psutil` finds no process of the payload. -/
def sshdOnly : Readings where
  diskUsed := 2 ^ 30
  diskFree := 2 ^ 33
  vmemTotal := 2 ^ 30
  vmemAvailable := 2 ^ 29
  vmemUsed := 2 ^ 28
  processes := [⟨ascii "sshd", [ascii "/usr/sbin/sshd"], 0, 0⟩]

/-! ### A run -/

/-- Actions that may happen and go through, from one state to another. -/
inductive Path (report : Err → Bytes) : System → List Action → System → Prop
  | nil (s : System) : Path report s [] s
  | cons {s s₁ s' : System} {a : Action} {as : List Action} (hvalid : s.Valid a)
      (hstep : s.step report a = .ok s₁) (hrest : Path report s₁ as s') : Path report s (a :: as) s'

theorem Path.valid {as' : List Action} (hpath : Path report s as s')
    (hlater : Valid report s' as') : Valid report s (as ++ as') := by
  induction hpath with
  | nil => exact hlater
  | cons hvalid hstep _ ih => exact valid_cons hstep hvalid (ih hlater)

theorem Path.undisturbed {as' : List Action} (hpath : Path report s as s')
    (hundisturbed : Undisturbed report s (as ++ as')) : Undisturbed report s' as' := by
  induction hpath with
  | nil => exact hundisturbed
  | cons _ hstep _ ih => exact ih (hundisturbed.2 _ hstep)

/-- A statement has nothing to do. -/
def Statement.Idle (h : Housekeeper) : Statement → Prop
  | fpgaCheck => h.fpgaCheckFlag = false
  | sysCheck .. => h.sysCheckFlag = false
  | missingCh _ => h.missingChQueue = []
  | missingPat => h.missingPatFlag = false
  | missingFpga => h.missingFpgaFlag = false
  | missingLb _ => h.missingLbFlag = false
  | fpgaAnswer => h.fpgaQueue = []
  | patHealth message | lbHeartbeat message | chHeartbeat message | control message =>
    message = none
  | sendPackets => False

theorem Statement.run_of_idle (hidle : st.Idle h) : st.run report h = .ok () h := by
  have hskip {c : Prop} [Decidable c] (x : Stmt Unit) (hc : ¬ c) :
      (if c then x else pure ()) h = .ok () h := by
    rw [if_neg hc]
    rfl
  cases st with
  | fpgaCheck => exact hskip _ (ne_true_of_eq_false hidle)
  | sysCheck bootIds psutil => exact hskip _ (ne_true_of_eq_false hidle)
  | missingCh pid =>
    have hqueue : h.missingChQueue = [] := hidle
    show handleMissingCh report _ h = _
    rw [handleMissingCh, bind_get, hqueue]
    rfl
  | missingPat => exact hskip _ (ne_true_of_eq_false hidle)
  | missingFpga => exact hskip _ (ne_true_of_eq_false hidle)
  | missingLb pids => exact hskip _ (ne_true_of_eq_false hidle)
  | fpgaAnswer =>
    have hqueue : h.fpgaQueue = [] := hidle
    show handleFpgaAnswer h = _
    rw [handleFpgaAnswer, bind_get, hqueue]
    rfl
  | patHealth message =>
    obtain rfl : message = none := hidle
    rfl
  | lbHeartbeat message =>
    obtain rfl : message = none := hidle
    rfl
  | chHeartbeat message =>
    obtain rfl : message = none := hidle
    rfl
  | control message =>
    obtain rfl : message = none := hidle
    rfl
  | sendPackets => exact hidle.elim

/-- Statements that have nothing to do are passed, one after the other. -/
theorem exists_path_of_idle (report : Err → Bytes) (sts : List Statement) (s : System)
    (hidle : ∀ st ∈ sts, st.Idle s.hk) (hplace : s.place + sts.length < Statement.count)
    (hplaces : sts.map Statement.place = List.range' s.place sts.length)
    (hadmits : ∀ st ∈ sts, ∀ s' : System, s'.used ⊆ s.hk.services ++ s.used → s'.Admits st) :
    ∃ s', Path report s (sts.map Action.runs) s' ∧ s'.hk = s.hk ∧ s'.controls = s.controls ∧
      s'.place = s.place + sts.length ∧ s'.used ⊆ s.hk.services ++ s.used := by
  induction sts generalizing s with
  | nil => exact ⟨s, .nil s, rfl, rfl, rfl, List.subset_append_right _ _⟩
  | cons st sts ih =>
    obtain ⟨hnow, hlater⟩ := List.forall_mem_cons.mp hidle
    obtain ⟨hthis, hadmits⟩ := List.forall_mem_cons.mp hadmits
    rw [List.length_cons] at hplace
    rw [List.map_cons, List.length_cons, List.range'_succ] at hplaces
    obtain ⟨hfirst, hrest⟩ := List.cons.inj hplaces
    generalize hs₁ : ({ s with
      used := s.hk.services ++ s.used, place := s.place + 1 } : System) = s₁
    have hstep : s.step report (.runs st) = .ok s₁ := by
      have hmod : (s.place + 1) % Statement.count = s.place + 1 := Nat.mod_eq_of_lt (by omega)
      rw [← hs₁, ← hmod]
      exact exec_of_ok (Statement.run_of_idle hnow)
    obtain ⟨hhk, hused, hplace₁, hcontrols⟩ : s₁.hk = s.hk ∧ s₁.used = s.hk.services ++ s.used ∧
        s₁.place = s.place + 1 ∧ s₁.controls = s.controls := by
      rw [← hs₁]
      exact ⟨rfl, rfl, rfl, rfl⟩
    have hsubset : s₁.hk.services ++ s₁.used ⊆ s.hk.services ++ s.used := by
      rw [hhk, hused]
      exact List.append_subset.mpr ⟨List.subset_append_left _ _, List.Subset.refl _⟩
    obtain ⟨s', hpath, hhk', hcontrols', hplace', hused'⟩ := ih s₁ (hhk ▸ hlater)
      (by omega) (hplace₁ ▸ hrest) fun st hst s' hs' =>
        hadmits st hst s' (List.Subset.trans hs' hsubset)
    refine ⟨s', .cons ⟨hfirst, hthis s (List.subset_append_right _ _)⟩ hstep hpath,
      hhk'.trans hhk, hcontrols'.trans hcontrols, ?_,
      List.Subset.trans hused' hsubset⟩
    rw [hplace', hplace₁, List.length_cons]
    omega

theorem Path.append {as' : List Action} {s'' : System} (hpath : Path report s as s')
    (hpath' : Path report s' as' s'') : Path report s (as ++ as') s'' := by
  induction hpath with
  | nil => exact hpath'
  | cons hvalid hstep _ ih => exact .cons hvalid hstep (ih hpath')

/-- The statements before the restart of a command handler, and those behind it. -/
def beforeRestart : List Statement := [.fpgaCheck, .sysCheck (some 4) (.ok sshdOnly)]

def behindRestart : List Statement :=
  [.missingPat, .missingFpga, .missingLb fun i => 104 + i, .fpgaAnswer, .patHealth none,
    .lbHeartbeat none, .chHeartbeat none]

/-- The first command handler is restarted behind the sending of a message. -/
def restartBehind (m : Control) : List Action :=
  [.sendsControl m, .rings (.ch ⟨0, by decide⟩)] ++ (beforeRestart.map .runs ++
    .runs (.missingCh 103) :: behindRestart.map .runs)

/-- Other services get process ids behind all that were used. -/
theorem admits_behindRestart {used : List ℕ} (hused : ∀ pid ∈ used, pid < 104) :
    ∀ st ∈ behindRestart, ∀ s' : System, s'.used ⊆ used → s'.Admits st := by
  have hothers : ∀ s' : System, s'.used ⊆ used → s'.Admits (.missingLb fun i => 104 + i) := by
    intro s' hs'
    refine ⟨fun i _ => ⟨show 104 + i ≠ 0 by omega, fun hmem => ?_⟩, by decide⟩
    have hlt : 104 + i < 104 := hused _ (hs' hmem)
    omega
  simp only [behindRestart, List.forall_mem_cons]
  exact ⟨fun _ _ => trivial, fun _ _ => trivial, hothers, fun _ _ => trivial, fun _ _ => rfl,
    fun _ _ => nofun, fun _ _ => rfl, List.forall_mem_nil _⟩

/-- The command handler that was missing gets another process id. -/
theorem exists_step_missingCh (report : Err → Bytes)
    (hstart : startup (fun i => 100 + i) = .ok h)
    (hhk : s.hk = (Alarm.ch ⟨0, by decide⟩).ring h) (hused : s.used ⊆ [100, 101, 102])
    (hplace : s.place = 2) : ∃ s', s.step report (.runs (.missingCh 103)) = .ok s' ∧
      s'.hk.services = [103, 101, 102] ∧ (∀ st ∈ behindRestart, st.Idle s'.hk) ∧
        s'.used ⊆ [103, 101, 102, 100] ∧ s'.place = 3 ∧ s'.controls = s.controls := by
  obtain ⟨hk, hrun, hservices, hidle⟩ : ∃ hk, (Statement.missingCh 103).run report s.hk =
      .ok () hk ∧ hk.services = [103, 101, 102] ∧ ∀ st ∈ behindRestart, st.Idle hk := by
    obtain rfl := Except.ok.inj hstart
    rw [hhk]
    refine ⟨_, rfl, rfl, ?_⟩
    simp only [behindRestart, List.forall_mem_cons]
    exact ⟨rfl, rfl, rfl, rfl, rfl, rfl, rfl, List.forall_mem_nil _⟩
  refine ⟨_, exec_of_ok hrun, hservices, hidle, ?_, ?_, rfl⟩
  · show hk.services ++ s.used ⊆ _
    rw [hservices]
    exact List.append_subset.mpr ⟨by decide, List.Subset.trans hused (by decide)⟩
  · show (s.place + 1) % Statement.count = 3
    rw [hplace]
    rfl

theorem exists_path_restartBehind (report : Err → Bytes) (m : Control)
    (hstart : startup (fun i => 100 + i) = .ok h)
    (hsender : [100, 101, 102][m.sender]? = some m.pid) : ∃ s',
      Path report (System.start h) (restartBehind m) s' ∧ s'.place = 10 ∧ s'.controls = [m] ∧
        s'.hk.services = [103, 101, 102] := by
  generalize hs₁ : ({ System.start h with
    hk := (Alarm.ch ⟨0, by decide⟩).ring h, controls := [m] } : System) = s₁
  obtain ⟨hhk, hservices, hused, hflags, hplace, hcontrols⟩ :
      s₁.hk = (Alarm.ch ⟨0, by decide⟩).ring h ∧ s₁.hk.services = [100, 101, 102] ∧
        s₁.used = [100, 101, 102] ∧ (∀ st ∈ beforeRestart, st.Idle s₁.hk) ∧ s₁.place = 0 ∧
          s₁.controls = [m] := by
    obtain rfl := Except.ok.inj hstart
    rw [← hs₁]
    exact ⟨rfl, rfl, rfl, List.forall_mem_cons.mpr ⟨rfl, List.forall_mem_singleton.mpr rfl⟩, rfl,
      rfl⟩
  have hsent : Path report (System.start h) [.sendsControl m, .rings (.ch ⟨0, by decide⟩)] s₁ := by
    obtain rfl := Except.ok.inj hstart
    rw [← hs₁]
    exact .cons hsender rfl (.cons trivial rfl (.nil _))
  obtain ⟨s₂, hbefore, hhk₂, hcontrols₂, hplace₂, hused₂⟩ := exists_path_of_idle report
    beforeRestart s₁ hflags (by rw [hplace]; decide) (by rw [hplace]; rfl)
      (List.forall_mem_cons.mpr ⟨fun _ _ => trivial, List.forall_mem_singleton.mpr
        fun _ _ => trivial⟩)
  rw [hplace] at hplace₂
  rw [hservices, hused] at hused₂
  replace hused₂ : s₂.used ⊆ [100, 101, 102] := List.Subset.trans hused₂ (by decide)
  obtain ⟨s₃, hstep, hservices₃, hidle, hused₃, hplace₃, hcontrols₃⟩ :=
    exists_step_missingCh report hstart (hhk₂.trans hhk) hused₂ hplace₂
  have hbelow : ∀ pid ∈ s₃.hk.services ++ s₃.used, pid < 104 := by
    rw [hservices₃, List.forall_mem_append]
    exact ⟨by decide, fun pid hmem => (by decide : ∀ pid ∈ [103, 101, 102, 100], pid < 104) pid
      (hused₃ hmem)⟩
  obtain ⟨s₄, hbehind, hhk₄, hcontrols₄, hplace₄, -⟩ := exists_path_of_idle report behindRestart s₃
    hidle (by rw [hplace₃]; decide) (by rw [hplace₃]; rfl) (admits_behindRestart hbelow)
  have hfresh : 103 ≠ 0 ∧ 103 ∉ s₂.used :=
    ⟨by decide, fun hmem => absurd (hused₂ hmem) (by decide)⟩
  refine ⟨s₄, hsent.append (hbefore.append (.cons ⟨?_, hfresh⟩ hstep hbehind)), ?_, ?_, ?_⟩
  · rw [hplace₂]
    rfl
  · rw [hplace₄, hplace₃]
    rfl
  · rw [hcontrols₄, hcontrols₃, hcontrols₂, hcontrols]
  · rw [hhk₄, hservices₃]

/-- The message is read then, and the check of the system is due in the next iteration. -/
def readAndCheck : List Action :=
  [.readsControl 0, .rings (.check .sys 0), .runs .sendPackets, .runs .fpgaCheck,
    .runs (.sysCheck (some 4) (.ok sshdOnly))]

theorem place_of_exec (hexec : s.exec report st = .ok s') :
    s'.place = (s.place + 1) % Statement.count := by
  rw [System.exec] at hexec
  split at hexec
  · rw [← Except.ok.inj hexec]
  · cases hexec

theorem valid_readAndCheck (hplace : s.place = 10) : Valid report s readAndCheck := by
  have hnext (s₁ : System) {s₂ : System} (st : Statement) {place : ℕ}
      (hplace : s₁.place = place) (hexec : s₁.exec report st = .ok s₂) :
      s₂.place = (place + 1) % 12 := by
    rw [place_of_exec hexec, hplace]
    rfl
  refine ⟨hplace.symm, fun s₁ hread => ?_⟩
  have hplace₁ : s₁.place = 11 :=
    hnext { s with controls := s.controls.eraseIdx 0 } _ hplace hread
  refine ⟨trivial, fun s₂ hring => ?_⟩
  have hplace₂ : s₂.place = 11 := by
    rw [← Except.ok.inj hring]
    exact hplace₁
  refine ⟨⟨hplace₂.symm, trivial⟩, fun s₃ hsend => ?_⟩
  have hplace₃ : s₃.place = 0 := hnext s₂ .sendPackets hplace₂ hsend
  refine ⟨⟨hplace₃.symm, trivial⟩, fun s₄ hcheck => ?_⟩
  have hplace₄ : s₄.place = 1 := hnext s₃ .fpgaCheck hplace₃ hcheck
  exact ⟨⟨hplace₄.symm, trivial⟩, fun _ _ => trivial⟩

/-- The period of the second command handler is read in time. -/
theorem survives_iff_other : ∃ h, startup (fun i => 100 + i) = .ok h ∧ ∃ m : Control,
    m.sender = 1 ∧ m.pid = 101 ∧ m.content = .period 150 ∧
      (Survives (fun _ => []) (System.start h) (restartBehind m ++ readAndCheck) ↔
        Undisturbed (fun _ => []) (System.start h) (restartBehind m ++ readAndCheck)) := by
  obtain ⟨h, hstart⟩ : ∃ h, startup (fun i => 100 + i) = .ok h := ⟨_, rfl⟩
  refine ⟨h, hstart, ⟨1, 101, .period 150, _, rfl⟩, rfl, rfl, rfl, ?_⟩
  obtain ⟨s, hpath, hplace, -⟩ := exists_path_restartBehind (fun _ => [])
    ⟨1, 101, .period 150, _, rfl⟩ hstart rfl
  exact survives_iff hstart (by decide) (hpath.valid (valid_readAndCheck hplace))

/-- The first command handler sends its period and is restarted, and the period is read then. -/
theorem not_survives_replaced : ¬ ∀ (report : Err → Bytes) (pids : ℕ → ℕ) (h : Housekeeper)
    (as : List Action), startup pids = .ok h →
      ((List.range commandHandlersCount).map pids).Nodup → Valid report (System.start h) as →
        Survives report (System.start h) as := by
  intro hclaim
  obtain ⟨h, hstart⟩ : ∃ h, startup (fun i => 100 + i) = .ok h := ⟨_, rfl⟩
  let m : Control := ⟨0, 100, .period 150, _, rfl⟩
  have hnodup : ((List.range commandHandlersCount).map fun i => 100 + i).Nodup := by decide
  obtain ⟨s, hpath, hplace, hcontrols, hservices⟩ :=
    exists_path_restartBehind (fun _ => []) m hstart rfl
  have hvalid := hpath.valid (valid_readAndCheck hplace)
  have hundisturbed := ((Sound.of_startup hstart hnodup).survives hvalid).mp
    (hclaim _ _ h _ hstart hnodup hvalid)
  -- by then the process id of the message is no longer in use
  have hpid : s.hk.services[0]? = some 100 :=
    (hpath.undisturbed hundisturbed).1 m 150 (by rw [hcontrols]; rfl) rfl
  rw [hservices] at hpid
  exact absurd hpid (by decide)

end ClickA.Housekeeping
