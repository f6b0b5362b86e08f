import ClickA.Fpga.Map
import ClickA.Python.Text
import ClickA.Python.While
import ClickA.Stream.Written

/-!
# The warm-up of a downlink

`CMD_PL_DWNLINK_MODE` of `commandhandler.py` begins with the temperatures of the payload. When
their average is below zero, the heaters are switched on, and the loop waits until it is not; then
they are switched off. After twenty minutes each turn reports.

The numbers are those of any type with the operations that the code uses, without laws.

## Main definitions

* `Surroundings`, `Session`: the answers from outside, and the state
* `warmUp`: the warm-up
* `WarmsUp`: it ends normally with the heaters off, and switches them on only if it is cold

## Main results

* `warmUp_ends`, `warmUp_raises`: when it ends, and when it raises
* `warmsUp_iff`: it does what it should when no turn is later than twenty minutes
-/

namespace ClickA.Commands.DwnlinkMode

open Python Fpga Stream

/-- A message to housekeeping. -/
inductive HkMessage (K : Type)
  | heartbeat (time : K)
  | log (payload : Bytes)
  | chPeriod (newPeriod : ℕ)

/-- What is outside: the answer to the `n`-th read of a register, the `n`-th reading of the clock,
and numbers as texts. -/
structure Surroundings (K : Type) where
  answer : ℕ → ℕ → K
  clock : ℕ → K
  str : K → Bytes

/-- The reads of the FPGA and the readings of the clock so far, the registers written, the messages
sent, and `counter_heartbeat`. -/
structure Session (K : Type) where
  reads : ℕ := 0
  clocks : ℕ := 0
  writes : List (ℕ × ℤ) := []
  sent : List (HkMessage K) := []
  counterHeartbeat : ℕ := 0

section WarmUp

variable {K : Type}

abbrev Step (K α : Type) := EStateM Exn (Session K) α

/-! ## Statements -/

/-- `time.time()`. -/
def time (env : Surroundings K) : Step K K := fun s =>
  .ok (env.clock s.clocks) { s with clocks := s.clocks + 1 }

/-- `fpga.read_reg`, which is answered. -/
def readAnswer (env : Surroundings K) (reg : ℕ) : Step K K := fun s =>
  .ok (env.answer s.reads reg) { s with reads := s.reads + 1 }

/-- `fpga.write_reg`, which is answered. -/
def write (reg : ℕ) (value : ℤ) : Step K Unit :=
  modify fun s => { s with writes := s.writes ++ [(reg, value)] }

/-- `send_heartbeat`, with its result as the new counter. -/
def sendHeartbeat (currentTime : K) : Step K Unit :=
  modify fun s => { s with
    sent := s.sent ++ [.heartbeat currentTime], counterHeartbeat := s.counterHeartbeat + 1 }

/-- The heaters are switched off. -/
def heatersOff : Step K Unit := do
  write po3 15
  write he1 15
  write he2 15

/-- `log_to_hk`. -/
def logToHk (payload : Bytes) : Step K Unit :=
  modify fun s => { s with sent := s.sent ++ [.log payload] }

/-- `set_hk_ch_period`. -/
def setHkChPeriod (newPeriod : ℕ) : Step K Unit :=
  modify fun s => { s with sent := s.sent ++ [.chPeriod newPeriod] }

theorem time_eq (env : Surroundings K) (s : Session K) :
    time env s = .ok (env.clock s.clocks) { s with clocks := s.clocks + 1 } := rfl

theorem write_eq (reg : ℕ) (value : ℤ) (s : Session K) :
    write reg value s = .ok ⟨⟩ { s with writes := s.writes ++ [(reg, value)] } := rfl

theorem heatersOff_eq (s : Session K) : heatersOff s =
    .ok ⟨⟩ { s with writes := s.writes ++ [(po3, 15), (he1, 15), (he2, 15)] } := by
  unfold heatersOff
  rw [bind_of_ok (write_eq _ _ _), bind_of_ok (write_eq _ _ _), write_eq]
  simp only [List.append_assoc, List.cons_append, List.nil_append]

theorem sendHeartbeat_eq (currentTime : K) (s : Session K) :
    sendHeartbeat currentTime s = .ok ⟨⟩ { s with
      sent := s.sent ++ [.heartbeat currentTime]
      counterHeartbeat := s.counterHeartbeat + 1 } := rfl

theorem logToHk_eq (payload : Bytes) (s : Session K) :
    logToHk payload s = .ok ⟨⟩ { s with sent := s.sent ++ [.log payload] } := rfl

theorem setHkChPeriod_eq (newPeriod : ℕ) (s : Session K) :
    setHkChPeriod newPeriod s = .ok ⟨⟩ { s with sent := s.sent ++ [.chPeriod newPeriod] } := rfl

variable [Add K] [OfNat K 0]

/-- `sum([fpga.read_reg(reg) for reg in mmap.TEMPERATURE_BLOCK])`. -/
def sumTemps (env : Surroundings K) : Step K K := do
  return (← temperatureBlock.mapM (readAnswer env)).foldl (· + ·) 0

/-- The sum of six reads, behind `base` others. -/
def total (env : Surroundings K) (base : ℕ) : K :=
  0 + env.answer base 200 + env.answer (base + 1) 201 + env.answer (base + 2) 202 +
    env.answer (base + 3) 203 + env.answer (base + 4) 204 + env.answer (base + 5) 205

theorem sumTemps_eq (env : Surroundings K) (s : Session K) :
    sumTemps env s = .ok (total env s.reads) { s with reads := s.reads + 6 } := rfl

variable [Sub K] [Div K] [LT K] [DecidableLT K] [OfNat K 6] [OfNat K 1200]

/-- The text of a report is divided by 6: `%` and `/` bind equally. -/
def report (env : Surroundings K) : Step K Unit := do
  let _ ← sumTemps env
  throw .typeError

/-- A turn of the loop. -/
def warmUpTurn (env : Surroundings K) (beginTime : K) (_temps : K) : Step K K := do
  let temps := (← sumTemps env) / 6
  sendHeartbeat (← time env)
  if (← time env) - beginTime > 1200 then report env
  return temps

/-- The warm-up before the loop: the first average, and the time that the turns are compared
with. -/
def prepare (env : Surroundings K) : Step K (K × K) := do
  let startTime ← time env
  sendHeartbeat startTime
  logToHk (ascii "ACK CMD PL_DWNLINK_MODE with start time: " ++ env.str startTime)
  let temps := (← sumTemps env) / 6
  -- what is printed is read again
  let _ ← sumTemps env
  if temps < 0 then
    write po3 85
    write he1 85
    write he2 85
  else logToHk (ascii "Avg payload temperature is above 0C")
  let tempSleepTime := 15
  setHkChPeriod (2 * tempSleepTime)
  sendHeartbeat (← time env)
  return (temps, ← time env)

/-- The warm-up. It returns `false` when the fuel is used up. -/
def warmUp (env : Surroundings K) (fuel : ℕ) : Step K Bool := do
  let (temps, beginTime) ← prepare env
  match ← whileLoop (· < 0) (warmUpTurn env beginTime) fuel temps with
  | none => return false
  | some _ =>
    heatersOff
    return true

/-! ## Turns -/

/-- The average that six reads make, behind `base` others. -/
def average (env : Surroundings K) (base : ℕ) : K := total env base / 6

/-- The averages of a warm-up that begins behind `base` reads: the first one, and those of the
turns. -/
def averageOf (env : Surroundings K) (base : ℕ) : ℕ → K
  | 0 => average env base
  | k + 1 => average env (base + 12 + 6 * k)

/-- The state behind a turn that measures, and sends a heartbeat. -/
def turned (env : Surroundings K) (s : Session K) : Session K :=
  { s with
    reads := s.reads + 6
    clocks := s.clocks + 2
    sent := s.sent ++ [.heartbeat (env.clock s.clocks)]
    counterHeartbeat := s.counterHeartbeat + 1 }

variable {env : Surroundings K} {beginTime temps : K} {s : Session K}

theorem warmUpTurn_eq (env : Surroundings K) (beginTime temps : K) (s : Session K) :
    warmUpTurn env beginTime temps s =
      if env.clock (s.clocks + 1) - beginTime > 1200 then
        (report env >>= fun _ => pure (average env s.reads)) (turned env s)
      else .ok (average env s.reads) (turned env s) := by
  unfold warmUpTurn
  rw [bind_of_ok (sumTemps_eq env s), bind_of_ok (time_eq env _),
    bind_of_ok (sendHeartbeat_eq _ _), bind_of_ok (time_eq env _)]
  dsimp only
  split_ifs
  · rfl
  · rfl

/-- A turn in time goes on with the average that it measures. -/
theorem warmUpTurn_of_not (h : ¬ env.clock (s.clocks + 1) - beginTime > 1200) :
    warmUpTurn env beginTime temps s = .ok (average env s.reads) (turned env s) := by
  rw [warmUpTurn_eq, if_neg h]

/-- A late turn raises. -/
theorem warmUpTurn_of_gt (h : env.clock (s.clocks + 1) - beginTime > 1200) :
    Wp (warmUpTurn env beginTime temps) (fun _ _ => False)
      (fun e s' => e = .typeError ∧ s'.writes = s.writes) s := by
  rw [Wp, warmUpTurn_eq, if_pos h]
  exact ⟨rfl, rfl⟩

/-! ## The warm-up -/

/-- The state in which the loop begins: the heaters are on if it is cold. -/
def begun (env : Surroundings K) (s : Session K) : Session K where
  reads := s.reads + 12
  clocks := s.clocks + 3
  writes := s.writes ++
    if average env s.reads < 0 then [(po3, 85), (he1, 85), (he2, 85)] else []
  sent := s.sent ++ [.heartbeat (env.clock s.clocks),
      .log (ascii "ACK CMD PL_DWNLINK_MODE with start time: " ++ env.str (env.clock s.clocks))] ++
    (if average env s.reads < 0 then []
      else [.log (ascii "Avg payload temperature is above 0C")]) ++
    [.chPeriod 30, .heartbeat (env.clock (s.clocks + 1))]
  counterHeartbeat := s.counterHeartbeat + 2

omit [Sub K] [OfNat K 1200] in
theorem prepare_eq (env : Surroundings K) (s : Session K) :
    prepare env s = .ok (average env s.reads, env.clock (s.clocks + 2)) (begun env s) := by
  have havg : total env s.reads / 6 = average env s.reads := rfl
  unfold prepare begun
  rw [bind_of_ok (time_eq env s), bind_of_ok (sendHeartbeat_eq _ _), bind_of_ok (logToHk_eq _ _),
    bind_of_ok (sumTemps_eq env _), bind_of_ok (sumTemps_eq env _)]
  dsimp only
  rw [havg]
  by_cases hcold : average env s.reads < 0
  · rw [if_pos hcold, if_pos hcold, if_pos hcold, bind_of_ok (write_eq _ _ _),
      bind_of_ok (write_eq _ _ _), bind_of_ok (write_eq _ _ _), bind_of_ok (setHkChPeriod_eq _ _),
      bind_of_ok (time_eq env _), bind_of_ok (sendHeartbeat_eq _ _), bind_of_ok (time_eq env _)]
    simp only [List.append_assoc, List.cons_append, List.nil_append, List.append_nil]
    rfl
  · rw [if_neg hcold, if_neg hcold, if_neg hcold, bind_of_ok (logToHk_eq _ _),
      bind_of_ok (setHkChPeriod_eq _ _), bind_of_ok (time_eq env _),
      bind_of_ok (sendHeartbeat_eq _ _), bind_of_ok (time_eq env _)]
    simp only [List.append_assoc, List.cons_append, List.nil_append, List.append_nil]
    rfl

/-! ## Runs -/

/-- The warm-up ends normally, and the heaters are off then; they are switched on only if the first
average is below zero. -/
def WarmsUp (env : Surroundings K) (s : Session K) : Prop :=
  ∃ fuel s' writes, warmUp env fuel s = .ok true s' ∧
    (∀ reg ∈ [po3, he1, he2], written s'.writes reg = some 15) ∧
    s'.writes = s.writes ++ writes ∧
    ∀ reg ∈ [po3, he1, he2], (reg, 85) ∈ writes → averageOf env s.reads 0 < 0

/-- The state of the loop behind `k` turns. -/
structure Behind (env : Surroundings K) (s : Session K) (k : ℕ) (temps : K) (s' : Session K) :
    Prop where
  temps : temps = averageOf env s.reads k
  reads : s'.reads = s.reads + 12 + 6 * k
  clocks : s'.clocks = s.clocks + 3 + 2 * k
  writes : s'.writes = (begun env s).writes

omit [Sub K] [OfNat K 1200] in
theorem behind_begun (env : Surroundings K) (s : Session K) :
    Behind env s 0 (average env s.reads) (begun env s) := ⟨rfl, rfl, rfl, rfl⟩

/-- The turn behind `k` others is late. -/
def Late (env : Surroundings K) (s : Session K) (k : ℕ) : Prop :=
  env.clock (s.clocks + 4 + 2 * k) - env.clock (s.clocks + 2) > 1200

variable {k : ℕ} {s' : Session K}

theorem Behind.late_iff (h : Behind env s k temps s') :
    env.clock (s'.clocks + 1) - env.clock (s.clocks + 2) > 1200 ↔ Late env s k := by
  have hclock : s'.clocks + 1 = s.clocks + 4 + 2 * k := by
    rw [h.clocks]
    omega
  rw [hclock, Late]

/-- A turn that is not late. -/
theorem Behind.turn (h : Behind env s k temps s') (hlate : ¬ Late env s k) :
    Ensures (warmUpTurn env (env.clock (s.clocks + 2)) temps) (Behind env s (k + 1)) s' := by
  rw [Ensures, wp_of_ok (warmUpTurn_of_not (mt h.late_iff.mp hlate))]
  refine ⟨?_, ?_, ?_, h.writes⟩
  · rw [h.reads, averageOf]
  · show s'.reads + 6 = _
    rw [h.reads]
    omega
  · show s'.clocks + 2 = _
    rw [h.clocks]
    omega

/-- The warm-up ends when it gets warm and no turn before is late. -/
theorem warmUp_ends {n : ℕ} (hcold : ∀ k < n, averageOf env s.reads k < 0)
    (hwarm : ¬ averageOf env s.reads n < 0) (hlate : ∀ k < n, ¬ Late env s k) :
    Ensures (warmUp env (n + 1)) (fun r s' => r = true ∧ s'.writes = (begun env s).writes ++
      [(po3, 15), (he1, 15), (he2, 15)]) s := by
  have hloop : Ensures (whileLoop (· < 0) (warmUpTurn env (env.clock (s.clocks + 2))) (n + 1)
      (average env s.reads)) (fun r s' => ∃ temps, r = some temps ∧ Behind env s n temps s')
      (begun env s) := ensures_whileLoop (I := Behind env s)
    (fun k hk a s' h => ⟨h.temps ▸ hcold k hk, h.turn (hlate k hk)⟩)
    (fun a s' h => h.temps ▸ hwarm) (behind_begun env s)
  unfold warmUp
  rw [Ensures, wp_bind, wp_of_ok (prepare_eq env s)]
  refine hloop.bind ?_
  rintro r s' ⟨temps, rfl, h⟩
  show Ensures (heatersOff >>= fun _ => pure true) _ s'
  rw [Ensures, wp_bind, wp_of_ok (heatersOff_eq s'), wp_pure, h.writes]
  exact ⟨rfl, rfl⟩

/-- The warm-up raises when a turn is late. -/
theorem warmUp_raises {n : ℕ} (hcold : ∀ k ≤ n, averageOf env s.reads k < 0)
    (hlate : ∀ k < n, ¬ Late env s k) (hn : Late env s n) (fuel : ℕ) :
    Wp (warmUp env fuel) (fun r _ => r = false) (fun e s' => e = .typeError ∧
      s'.writes = s.writes ++ [(po3, 85), (he1, 85), (he2, 85)]) s := by
  have hfirst : average env s.reads < 0 := hcold 0 (Nat.zero_le n)
  have hwrites : (begun env s).writes = s.writes ++ [(po3, 85), (he1, 85), (he2, 85)] := by
    rw [begun, if_pos hfirst]
  have hloop : Wp (whileLoop (· < 0) (warmUpTurn env (env.clock (s.clocks + 2))) fuel
      (average env s.reads)) (fun r _ => r = none) (fun e s' => e = .typeError ∧
      s'.writes = (begun env s).writes) (begun env s) := wp_whileLoop_of_raises (I := Behind env s)
    (fun k hk a s' h => ⟨h.temps ▸ hcold k hk.le, h.turn (hlate k hk)⟩)
    (fun a s' h => ⟨h.temps ▸ hcold n le_rfl, h.writes ▸ warmUpTurn_of_gt (h.late_iff.mpr hn)⟩)
    (behind_begun env s) fuel
  unfold warmUp
  rw [wp_bind, wp_of_ok (prepare_eq env s), ← hwrites]
  dsimp only
  rw [wp_bind]
  refine hloop.mono ?_ fun _ _ he => he
  rintro r s' rfl
  rfl

/-- What is written last when the heaters are switched off. -/
theorem written_heatersOff (log : List (ℕ × ℤ)) :
    ∀ reg ∈ [po3, he1, he2], written (log ++ [(po3, 15), (he1, 15), (he2, 15)]) reg = some 15 := by
  intro reg hreg
  rw [written_append]
  simp only [List.mem_cons, List.not_mem_nil, or_false] at hreg
  rcases hreg with rfl | rfl | rfl
  · rfl
  · rfl
  · rfl

-- from here on a run is known by the lemmas above only
attribute [local irreducible] warmUp

/-- A warm-up that raises does not end normally. -/
theorem not_ends_of_late {n fuel : ℕ} (hcold : ∀ k ≤ n, averageOf env s.reads k < 0)
    (hlate : ∀ k < n, ¬ Late env s k) (hn : Late env s n) : warmUp env fuel s ≠ .ok true s' := by
  intro hrun
  have hraises : Wp (warmUp env fuel) _ _ s := warmUp_raises hcold hlate hn fuel
  rw [wp_of_ok hrun] at hraises
  cases hraises

/-- **When it gets warm at last, the warm-up ends with the heaters off if and only if no turn that
is still cold is late.** -/
theorem warmsUp_iff (env : Surroundings K) (s : Session K)
    (hwarm : ∃ k, ¬ averageOf env s.reads k < 0) :
    WarmsUp env s ↔ ∀ k, (∀ j ≤ k, averageOf env s.reads j < 0) → ¬ Late env s k := by
  constructor
  · rintro ⟨fuel, s', writes, hrun, -⟩ k hcold hlate
    obtain ⟨n, hle, hn, hmin⟩ : ∃ n ≤ k, Late env s n ∧ ∀ j < n, ¬ Late env s j := by
      classical
      have hex : ∃ n, Late env s n := ⟨k, hlate⟩
      exact ⟨Nat.find hex, Nat.find_min' hex hlate, Nat.find_spec hex, fun j => Nat.find_min hex⟩
    exact not_ends_of_late (fun j hj => hcold j (hj.trans hle)) hmin hn hrun
  · intro hlate
    have hfirst : ∀ j < Nat.find hwarm, averageOf env s.reads j < 0 := fun j hj =>
      not_not.mp (Nat.find_min hwarm hj)
    have hends := warmUp_ends hfirst (Nat.find_spec hwarm) fun k hk =>
      hlate k fun j hj => hfirst j (lt_of_le_of_lt hj hk)
    obtain ⟨r, s', hrun, rfl, hwrites⟩ := ensures_iff.mp hends
    rw [begun, List.append_assoc] at hwrites
    refine ⟨_, s', _, hrun, ?_, hwrites, ?_⟩
    · rw [hwrites, ← List.append_assoc]
      exact written_heatersOff _
    · intro reg hreg hmem
      by_contra hnot
      rw [averageOf] at hnot
      rw [if_neg hnot, List.nil_append] at hmem
      simp only [List.mem_cons, Prod.mk.injEq, List.not_mem_nil, or_false] at hmem
      omega

end WarmUp

/-- A payload that is warm behind the first turn. -/
def quickly : Surroundings ℚ where
  answer n _ := if n < 12 then -10 else 5
  clock n := n
  str _ := []

theorem warmsUp_iff_quickly : WarmsUp quickly {} ↔
    ∀ k, (∀ j ≤ k, averageOf quickly 0 j < 0) → ¬ Late quickly {} k :=
  warmsUp_iff quickly {} ⟨1, by decide +kernel⟩

/-- A payload that is cold for more than twenty minutes, and then warm. -/
def slowly : Surroundings ℚ where
  answer n _ := if n < 1000 then -10 else 5
  clock n := 8 * n
  str _ := []

/-- The heaters stay on. -/
theorem not_warmsUp_slowly : (∃ k, ¬ averageOf slowly 0 k < 0) ∧ ¬ WarmsUp slowly {} := by
  have hcold : ∀ k ≤ 75, averageOf slowly 0 k < 0 := by decide +kernel
  have hlate : ∀ k < 75, ¬ Late slowly {} k := by
    unfold Late
    decide +kernel
  have hn : Late slowly {} 75 := by
    unfold Late
    decide +kernel
  refine ⟨⟨200, by decide +kernel⟩, ?_⟩
  rintro ⟨fuel, s', writes, hrun, -⟩
  exact not_ends_of_late (s := {}) hcold hlate hn hrun

end ClickA.Commands.DwnlinkMode
