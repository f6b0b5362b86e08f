import ClickA.Cpp.Convert
import ClickA.Fpga.Map
import ClickA.Stream.Written
import Mathlib.Data.Rat.Floor

/-!
# Seed alignment

`seed_align` of `tx_packet.py` scans eight set points of the laser's temperature, measures the power
behind the amplifier at each, and settles on one at which the power is between two thresholds. The
powers are exact numbers here, and so are the thresholds.

## Main definitions

* `seedAlign`: the alignment, with the registers that it writes
* `powerAt`: the power that is measured at a set point of the scan
* `Inside`: the power is between the thresholds of the mode
* `Aligned`: the set point is in the window, and has a power between the thresholds, if there is one

## Main results

* `setPoint_seedAlign`: the set point that is written last
* `aligned_seedAlign_iff`: when it is aligned
-/

namespace ClickA.Optical

open Fpga Stream

/-! ## The alignment -/

/-- `PPM4_THRESHOLDS` and `CW_THRESHOLDS`, with the values of the payload only: the higher one, and
the lower one. -/
def ppm4Thresholds : ℚ × ℚ := (-21 / 10, -3)
def cwThresholds : ℚ × ℚ := (9 / 2, 18 / 5)

/-- The client of the FPGA, as the alignment uses it: the registers written so far, and the number
of powers that were read. -/
structure SeedClient where
  writes : List (ℕ × ℤ)
  readings : ℕ

def SeedClient.writeReg (fpga : SeedClient) (reg : ℕ) (value : ℤ) : SeedClient :=
  { fpga with writes := fpga.writes ++ [(reg, value)] }

def window : ℕ := 4
def avg : ℕ := 3

/-- A turn of the scan, with the answers of the FPGA to the readings of the power. -/
def scanTurn (power : ℕ → ℚ) (s : SeedClient × List ℚ) (i : ℤ) : SeedClient × List ℚ :=
  let fpga := (s.1.writeReg ltsA (i / 256)).writeReg ltsB (i % 256)
  let avgInputPower := ((List.range avg).map fun x => power (fpga.readings + x)).sum / avg
  ({ fpga with readings := fpga.readings + avg }, s.2 ++ [avgInputPower])

/-- The loop for `pwr_index`, which is a power. -/
def pwrIndex (cw : Bool) (powerInputs : List ℚ) : Option ℚ :=
  powerInputs.foldl (fun pwrIndex pwr =>
    if ppm4Thresholds.1 > pwr ∧ pwr > ppm4Thresholds.2 ∧ ¬ cw then some pwr
    else if cwThresholds.1 > pwr ∧ pwr > cwThresholds.2 ∧ cw then some pwr
    else pwrIndex) none

/-- `new_tec`: the set point of the first power that equals the chosen one, or a number made of the
thresholds. -/
def newTec (totalTec : ℤ) (cw : Bool) (powerInputs : List ℚ) : ℚ :=
  match pwrIndex cw powerInputs with
  | some pwr => ((totalTec + powerInputs.idxOf pwr - window : ℤ) : ℚ)
  | none => ppm4Thresholds.1 * 256 + ppm4Thresholds.2

/-- The two registers of a set point: `abs(int(_ // 256))` and `abs(int(_ % 256))`. -/
def registersOf (newTec : ℚ) : ℤ × ℤ :=
  (|Cpp.trunc (⌊newTec / 256⌋ : ℚ)|, |Cpp.trunc (newTec - 256 * ⌊newTec / 256⌋)|)

/-- `seed_align`: the client behind it, and the two values it returns. -/
def seedAlign (power : ℕ → ℚ) (defaultSettings : ℤ × ℤ × ℤ × ℤ) (cw : Bool) (fpga : SeedClient) :
    SeedClient × ℤ × ℤ :=
  let fpga := ((fpga.writeReg po2 85).writeReg po1 85).writeReg po4 85
  let (tecMsb, tecLsb, ldMsb, ldLsb) := defaultSettings
  let totalTec := tecMsb * 256 + tecLsb
  let fpga := (((fpga.writeReg 1 tecMsb).writeReg 2 tecLsb).writeReg 3 ldMsb).writeReg 4 ldLsb
  let fpga := if cw then fpga else fpga.writeReg data 131
  let (fpga, powerInputs) :=
    ((List.range (2 * window)).map fun k : ℕ => totalTec - window + k).foldl (scanTurn power)
      (fpga, [])
  let (tecMsb, tecLsb) := registersOf (newTec totalTec cw powerInputs)
  ((fpga.writeReg ltsA tecMsb).writeReg ltsB tecLsb, tecMsb, tecLsb)

/-! ## The scan -/

section Scan

variable {power : ℕ → ℚ} {cw : Bool}

/-- The power that is measured at a set point of the scan, when `base` powers were read before. -/
def powerAt (power : ℕ → ℚ) (base k : ℕ) : ℚ :=
  (power (base + 3 * k) + power (base + 3 * k + 1) + power (base + 3 * k + 2)) / 3

theorem scan_eq (power : ℕ → ℚ) (fpga : SeedClient) (start : ℤ) (n : ℕ) :
    let s := ((List.range n).map fun k : ℕ => start + k).foldl (scanTurn power) (fpga, [])
    s.1.readings = fpga.readings + 3 * n ∧
      s.2 = (List.range n).map (powerAt power fpga.readings) := by
  induction n with
  | zero => exact ⟨rfl, rfl⟩
  | succ n ih =>
    obtain ⟨hreadings, hpowers⟩ := ih
    dsimp only
    rw [List.range_succ, List.map_append, List.foldl_append, List.map_append]
    refine ⟨?_, ?_⟩
    · show _ + avg = _
      rw [SeedClient.writeReg, SeedClient.writeReg, hreadings, avg]
      omega
    · show _ ++ [_] = _
      rw [hpowers]
      congr 2
      simp only [SeedClient.writeReg, hreadings, avg, powerAt, List.range_succ, List.range_zero,
        List.nil_append, List.map_append, List.map_cons, List.map_nil, List.sum_append,
        List.sum_cons, List.sum_nil, add_zero]
      norm_num

/-- The power is between the thresholds of the mode. -/
def Inside (cw : Bool) (pwr : ℚ) : Prop :=
  (if cw then cwThresholds.1 else ppm4Thresholds.1) > pwr ∧
    pwr > if cw then cwThresholds.2 else ppm4Thresholds.2

instance (cw : Bool) (pwr : ℚ) : Decidable (Inside cw pwr) :=
  inferInstanceAs (Decidable (_ ∧ _))

theorem pwrIndex_concat (l : List ℚ) (p : ℚ) :
    pwrIndex cw (l ++ [p]) = if Inside cw p then some p else pwrIndex cw l := by
  rw [pwrIndex, List.foldl_append, ← pwrIndex]
  unfold Inside
  cases cw
  · simp only [List.foldl_cons, List.foldl_nil, Bool.false_eq_true, not_false_eq_true, and_true,
      and_false, if_false]
  · simp only [List.foldl_cons, List.foldl_nil, not_true_eq_false, and_true, and_false, if_true,
      if_false]

/-- Without a power between the thresholds nothing is found. -/
theorem pwrIndex_eq_none_iff {l : List ℚ} : pwrIndex cw l = none ↔ ∀ p ∈ l, ¬ Inside cw p := by
  induction l using List.reverseRecOn with
  | nil => simp [pwrIndex]
  | append_singleton l p ih =>
    rw [pwrIndex_concat, List.forall_mem_append, List.forall_mem_singleton, ← ih]
    by_cases hp : Inside cw p
    · simp [hp]
    · simp [hp]

/-- What is found is one of the powers, and between the thresholds. -/
theorem mem_of_pwrIndex {l : List ℚ} {pwr : ℚ} (h : pwrIndex cw l = some pwr) :
    pwr ∈ l ∧ Inside cw pwr := by
  induction l using List.reverseRecOn with
  | nil => cases h
  | append_singleton l p ih =>
    rw [pwrIndex_concat] at h
    split_ifs at h with hp
    · obtain rfl := Option.some.inj h
      exact ⟨List.mem_append_right _ (List.mem_singleton_self _), hp⟩
    · exact ⟨List.mem_append_left _ (ih h).1, (ih h).2⟩

end Scan

/-! ## The set point -/

/-- The set point that was last written. -/
def setPoint (writes : List (ℕ × ℤ)) : Option ℤ := do
  return (← written writes ltsA) * 256 + (← written writes ltsB)

/-- A set point of the scan is written as it is. -/
theorem registersOf_intCast {n : ℤ} (h : 0 ≤ n) :
    (registersOf n).1 * 256 + (registersOf n).2 = n := by
  have hfloor : ⌊(n : ℚ) / 256⌋ = n / 256 := Rat.floor_intCast_div_natCast n 256
  have hrest : (n : ℚ) - 256 * ((n / 256 : ℤ) : ℚ) = ((n % 256 : ℤ) : ℚ) := by
    rw [Int.emod_def]
    push_cast
    rfl
  have hmsb : 0 ≤ n / 256 := Int.ediv_nonneg h (by decide)
  have hlsb : 0 ≤ n % 256 := Int.emod_nonneg n (by decide)
  unfold registersOf
  rw [hfloor, hrest, Cpp.trunc_intCast, Cpp.trunc_intCast, abs_of_nonneg hmsb, abs_of_nonneg hlsb]
  exact Int.ediv_mul_add_emod n 256

/-- The number made of the thresholds is no set point of the scan. -/
theorem registersOf_thresholds :
    registersOf (ppm4Thresholds.1 * 256 + ppm4Thresholds.2) = (3, 227) := by
  have hfloor : ⌊((-21 / 10 : ℚ) * 256 + -3) / 256⌋ = -3 := by
    rw [Int.floor_eq_iff]
    norm_num
  have hrest : Cpp.trunc ((-21 / 10 : ℚ) * 256 + -3 - 256 * ((-3 : ℤ) : ℚ)) = 227 := by
    unfold Cpp.trunc
    rw [if_pos (by norm_num), Int.floor_eq_iff]
    norm_num
  unfold registersOf ppm4Thresholds
  dsimp only
  rw [hfloor, hrest, Cpp.trunc_intCast]
  rfl

section SetPoint

variable {power : ℕ → ℚ} {cw : Bool} {fpga : SeedClient}

/-- The total of a setting. -/
def totalTec (settings : ℤ × ℤ × ℤ × ℤ) : ℤ := settings.1 * 256 + settings.2.1

/-- The powers of the scan. -/
def powers (power : ℕ → ℚ) (base : ℕ) : List ℚ := (List.range (2 * window)).map (powerAt power base)

/-- The set point that is written last. -/
theorem setPoint_seedAlign (power : ℕ → ℚ) (settings : ℤ × ℤ × ℤ × ℤ) (cw : Bool)
    (fpga : SeedClient) :
    let registers := registersOf (newTec (totalTec settings) cw (powers power fpga.readings))
    setPoint (seedAlign power settings cw fpga).1.writes =
      some (registers.1 * 256 + registers.2) := by
  obtain ⟨tecMsb, tecLsb, ldMsb, ldLsb⟩ := settings
  unfold seedAlign
  dsimp only
  generalize hclient : (if cw = true then _ else _ : SeedClient) = client
  have hreadings : client.readings = fpga.readings := by
    rw [← hclient]
    cases cw
    · rfl
    · rfl
  obtain ⟨-, hpowers⟩ := scan_eq power client (tecMsb * 256 + tecLsb - window) (2 * window)
  rw [hreadings, ← powers] at hpowers
  generalize ((List.range (2 * window)).map _).foldl (scanTurn power) (client, []) = s at hpowers ⊢
  obtain ⟨scanned, inputs⟩ := s
  obtain rfl : inputs = powers power fpga.readings := hpowers
  have hne : ltsB ≠ ltsA := by decide
  simp only [setPoint, SeedClient.writeReg, written_concat, if_neg hne, if_true]
  rfl

/-- The set point is in the window, and has a power between the thresholds if one of the window
has. -/
structure Aligned (power : ℕ → ℚ) (base : ℕ) (totalTec : ℤ) (cw : Bool) (point : ℤ) : Prop where
  low : totalTec - 4 ≤ point
  high : point ≤ totalTec + 3
  inside : (∃ k < 8, Inside cw (powerAt power base k)) →
    ∃ k : ℕ, k < 8 ∧ point = totalTec - 4 + k ∧ Inside cw (powerAt power base k)

/-- A power that is found belongs to its set point. -/
theorem newTec_of_inside (total : ℤ) {base : ℕ} (h : ∃ k < 8, Inside cw (powerAt power base k)) :
    ∃ k : ℕ, k < 8 ∧ newTec total cw (powers power base) = ((total - 4 + k : ℤ) : ℚ) ∧
      Inside cw (powerAt power base k) := by
  unfold newTec
  cases hindex : pwrIndex cw (powers power base) with
  | none =>
    obtain ⟨k, hk, hinside⟩ := h
    exact absurd hinside (pwrIndex_eq_none_iff.mp hindex _
      (List.mem_map_of_mem (List.mem_range.mpr hk)))
  | some pwr =>
    obtain ⟨hmem, hinside⟩ := mem_of_pwrIndex hindex
    have hlt := List.idxOf_lt_length_of_mem hmem
    have hget : powerAt power base ((powers power base).idxOf pwr) = pwr := by
      have hat := List.getElem_idxOf hlt
      simpa only [powers, List.getElem_map, List.getElem_range] using hat
    refine ⟨(powers power base).idxOf pwr, ?_, ?_, hget.symm ▸ hinside⟩
    · rw [powers, List.length_map, List.length_range] at hlt
      exact hlt
    · have hwindow : window = 4 := rfl
      dsimp only
      rw [hwindow]
      congr 1
      omega

theorem newTec_of_not {total : ℤ} {base : ℕ} (h : ¬ ∃ k < 8, Inside cw (powerAt power base k)) :
    newTec total cw (powers power base) = ppm4Thresholds.1 * 256 + ppm4Thresholds.2 := by
  have hnone : pwrIndex cw (powers power base) = none := by
    refine pwrIndex_eq_none_iff.mpr fun p hp hinside => h ?_
    obtain ⟨k, hk, rfl⟩ := List.mem_map.mp hp
    exact ⟨k, List.mem_range.mp hk, hinside⟩
  rw [newTec, hnone]

/-- **The set point that is written last is aligned if and only if a power of the scan is between
the thresholds, or the number made of the thresholds happens to be in the window.** -/
theorem aligned_seedAlign_iff (power : ℕ → ℚ) (settings : ℤ × ℤ × ℤ × ℤ) (cw : Bool)
    (fpga : SeedClient)
    (hlow : 4 ≤ totalTec settings) (hhigh : totalTec settings ≤ 65531) :
    (∃ point, setPoint (seedAlign power settings cw fpga).1.writes = some point ∧
      Aligned power fpga.readings (totalTec settings) cw point) ↔
    (∃ k < 8, Inside cw (powerAt power fpga.readings k)) ∨
      (992 ≤ totalTec settings ∧ totalTec settings ≤ 999) := by
  have hpoint := setPoint_seedAlign power settings cw fpga
  dsimp only at hpoint
  rw [hpoint]
  -- without a power inside, the thresholds themselves are taken for a set point
  by_cases hinside : ∃ k < 8, Inside cw (powerAt power fpga.readings k)
  · refine iff_of_true ⟨_, rfl, ?_⟩ (.inl hinside)
    obtain ⟨k, hk, hnew, hpower⟩ := newTec_of_inside (totalTec settings) hinside
    rw [hnew, registersOf_intCast (by omega)]
    exact ⟨by omega, by omega, fun _ => ⟨k, hk, rfl, hpower⟩⟩
  · rw [or_iff_right hinside, newTec_of_not hinside, registersOf_thresholds]
    constructor
    · rintro ⟨point, hsome, haligned⟩
      obtain rfl := Option.some.inj hsome
      have hmin := haligned.low
      have hmax := haligned.high
      omega
    · rintro ⟨hmin, hmax⟩
      exact ⟨_, rfl, by omega, by omega, fun hex => absurd hex hinside⟩

/-- The default setting, with a power of -2.5 at each set point. -/
theorem aligned_default :
    (∃ point, setPoint (seedAlign (fun _ => -5 / 2) (5, 114, 14, 33) false ⟨[], 0⟩).1.writes =
        some point ∧ Aligned (fun _ => -5 / 2) 0 (totalTec (5, 114, 14, 33)) false point) ↔
    (∃ k < 8, Inside false (powerAt (fun _ => -5 / 2) 0 k)) ∨
      (992 ≤ totalTec (5, 114, 14, 33) ∧ totalTec (5, 114, 14, 33) ≤ 999) :=
  aligned_seedAlign_iff (fun _ => -5 / 2) (5, 114, 14, 33) false ⟨[], 0⟩ (by decide) (by decide)

/-- The default setting, with a power of -10 at each set point. -/
theorem not_aligned_dark :
    ¬ ∃ point, setPoint (seedAlign (fun _ => -10) (5, 114, 14, 33) false ⟨[], 0⟩).1.writes =
      some point ∧ Aligned (fun _ => -10) 0 (totalTec (5, 114, 14, 33)) false point := by
  have hdark : ¬ ∃ k < 8, Inside false (powerAt (fun _ => -10) 0 k) := by
    rintro ⟨k, -, hinside⟩
    have hpower : powerAt (fun _ => -10) 0 k = -10 := by
      unfold powerAt
      norm_num
    rw [hpower] at hinside
    exact absurd hinside (by unfold Inside ppm4Thresholds; norm_num)
  have hpoint := setPoint_seedAlign (fun _ => -10) (5, 114, 14, 33) false ⟨[], 0⟩
  dsimp only at hpoint
  rw [hpoint, newTec_of_not hdark, registersOf_thresholds]
  rintro ⟨point, hsome, haligned⟩
  obtain rfl := Option.some.inj hsome
  exact absurd haligned.low (by decide)

end SetPoint

end ClickA.Optical
