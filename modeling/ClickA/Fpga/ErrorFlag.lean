import ClickA.Fpga.Raw

/-!
# The error flag of an answer

The FPGA echoes the address of each register of a transfer. The server adds up the echoes that
differ, but the answer has one bit for the sum: an even number of wrong echoes is not reported.

## Main definitions

* `wrongEcho`, `mismatches`: the wrong echoes of a transfer
* `ErrorsReported`: the answer reports an error exactly when some echo is wrong

## Main results

* `count_results`: the server counts the wrong echoes
* `errorsReported_iff`: errors are reported when the range of the request is answered, and the
  number of wrong echoes is odd or zero
-/

namespace ClickA.Fpga

open Python Options

/-! ## Echoes -/

/-- The `k`-th word of a transfer comes back, two bytes later, with another address. -/
def wrongEcho (dataIn dataOut : Bytes) (k : ℕ) : Bool := dataIn[2 * k]? != dataOut[2 * k + 2]?

/-- The number of wrong echoes of a transfer of `n` words. -/
def mismatches (n : ℕ) (dataIn dataOut : Bytes) : ℕ :=
  (List.range n).countP (wrongEcho dataIn dataOut)

section Echoes

theorem getElem?_everyOther {α : Type} (l : List α) (k : ℕ) : (everyOther l)[k]? = l[2 * k]? := by
  induction l using everyOther.induct generalizing k with
  | case1 => rfl
  | case2 a =>
    cases k with
    | zero => rfl
    | succ k => simp [everyOther, Nat.mul_succ]
  | case3 a b l ih =>
    rw [everyOther]
    cases k with
    | zero => rfl
    | succ k =>
      rw [List.getElem?_cons_succ, ih, Nat.mul_succ, List.getElem?_cons_succ,
        List.getElem?_cons_succ]

/-- The flags of a transfer are those of its words. -/
theorem results_fst {dataIn dataOut : Bytes} {n : ℕ} (hin : dataIn.length = 2 * n)
    (hout : dataOut.length = 2 * n + 2) :
    (results dataIn dataOut).1 = (List.range n).map (wrongEcho dataIn dataOut) := by
  apply List.ext_getElem?
  intro k
  unfold results
  rw [List.getElem?_zipWith, getElem?_everyOther, getElem?_everyOther, List.getElem?_drop,
    List.getElem?_map]
  rcases Nat.lt_or_ge k n with hk | hk
  · have hin' : dataIn[2 * k]? = some dataIn[2 * k] := List.getElem?_eq_getElem (by omega)
    have hout' : dataOut[2 * k + 2]? = some dataOut[2 * k + 2] :=
      List.getElem?_eq_getElem (by omega)
    rw [List.getElem?_range hk, Nat.add_comm 2, hin', hout', Option.map_some, wrongEcho, hin',
      hout']
    rfl
  · rw [List.getElem?_eq_none (by omega : dataIn.length ≤ 2 * k),
      List.getElem?_eq_none (by rw [List.length_range]; exact hk : (List.range n).length ≤ k)]
    rfl

/-- The server counts the wrong echoes. -/
theorem count_results {dataIn dataOut : Bytes} {n : ℕ} (hin : dataIn.length = 2 * n)
    (hout : dataOut.length = 2 * n + 2) :
    (results dataIn dataOut).1.count true = mismatches n dataIn dataOut := by
  rw [results_fst hin hout]
  unfold mismatches List.count
  rw [List.countP_map]
  exact List.countP_congr fun k _ => by simp

/-- Some echo is wrong when their number is not zero. -/
theorem mismatches_pos_iff {n : ℕ} {dataIn dataOut : Bytes} :
    0 < mismatches n dataIn dataOut ↔ ∃ k < n, wrongEcho dataIn dataOut k = true := by
  unfold mismatches
  rw [List.countP_pos_iff]
  simp only [List.mem_range]

end Echoes

/-! ## Errors are reported -/

/-- A transfer and an answer, from which the client reads an error exactly when some echo of the
transfer is wrong. -/
def Reported (env : Env) (req : FPGAMapRequestPacket) (w w' : World) : Prop :=
  ∃ dataIn answer pck, w'.xfers = w.xfers ++ [dataIn ++ [0, 0]] ∧
    w'.answers = w.answers ++ [answer] ∧ FPGAMapAnswerPacket.decode answer = .ok pck ∧
    (pck.error = 1 ↔ ∃ k < registerNumber req, wrongEcho dataIn (env.replyTo w dataIn) k = true)

/-- Every request of registers of the FPGA is answered, and its errors are reported. -/
def ErrorsReported (env : Env) (w : World) (state : Loop) (raw : Bytes) : Prop :=
  ∀ req, FPGAMapRequestPacket.decode raw = .ok req → req.startAddr < 128 →
    Ensures (iteration env state (.message raw)) (fun _ w' => Reported env req w w') w

/-- The number of wrong echoes of a request is odd, or there is none. -/
def EchoesCounted (env : Env) (w : World) (req : FPGAMapRequestPacket) : Prop :=
  ∀ dataIn, requestWords req = .ok dataIn →
    mismatches (registerNumber req) dataIn (env.replyTo w dataIn) = 0 ∨
      mismatches (registerNumber req) dataIn (env.replyTo w dataIn) % 2 = 1

/-- The range ends below 128, and the wrong echoes do not add up to an even number. -/
def ErrorsCounted (env : Env) (w : World) (raw : Bytes) : Prop :=
  ∀ req, FPGAMapRequestPacket.decode raw = .ok req → req.startAddr < 128 →
    req.startAddr + registerNumber req ≤ 128 ∧ EchoesCounted env w req

section Reported

variable {env : Env} {w : World} {req : FPGAMapRequestPacket} {regs : Edfa.Regs}

/-- The answer to a range that ends below 128 has the parity of the number of wrong echoes. -/
theorem ensures_serve_raw (hreq : req.Valid) (h128 : req.startAddr < 128)
    (hend : req.startAddr + registerNumber req ≤ 128) {ns : List ℤ}
    (hvalues : valuesIn req = .ok (ns.map .int)) (hlen : ns.length = registerNumber req) :
    Ensures (serve env req regs) (fun _ w' => ∃ answer encData,
      w' = { w.sent (rawWords req ns) with answers := w.answers ++ [answer] } ∧
      encData.length = 4 * registerNumber req ∧ Answers req
        (mismatches (registerNumber req) (rawWords req ns) (env.replyTo w (rawWords req ns)))
        encData answer) w := by
  have hout : (rawResults env w req ns).2.length = ns.length := length_rawResults_snd env w ns
  obtain ⟨encData, hencode⟩ := (exists_encodeRegs_raw_iff h128.le
    (rawResults env w req ns).2).mpr (by omega)
  have hbound := length_encodeRegs hencode
  rw [List.length_map, hout, hlen] at hbound
  rw [← encodePayload_list (registerType_raw_ne_str h128)] at hencode
  have hwords : (rawWords req ns).length = 2 * registerNumber req := by
    rw [rawWords, length_words, hlen]
  have hcount : (rawResults env w req ns).1.count true =
      mismatches (registerNumber req) (rawWords req ns) (env.replyTo w (rawWords req ns)) :=
    count_results hwords (by rw [length_replyTo, hwords])
  rw [serve_raw_eq h128, hvalues, Ensures, wp_bind, wp_lift_ok, wp_bind]
  unfold Wp
  rw [serveRaw_eq hlen, hcount]
  refine (ensures_answer hreq hencode (by omega) _ _).imp ?_
  rintro _ w' ⟨answer, rfl, hanswer⟩
  exact ⟨answer, encData, rfl, hbound, hanswer⟩

/-- A range that runs past 127 is not answered. -/
theorem raises_serve_raw (h128 : req.startAddr < 128)
    (hend : 128 < req.startAddr + registerNumber req) : Raises (serve env req regs) w := by
  rw [serve_raw_eq h128]
  cases hvalues : valuesIn req with
  | error e => trivial
  | ok values =>
    rw [Raises, Allows, wp_bind, wp_lift_ok]
    exact (raises_serveRaw h128 hend (length_valuesIn hvalues)).bind

/-- In a range that ends below 128, an even number of wrong echoes is not reported. -/
theorem ensures_reported_iff (hreq : req.Valid) (h128 : req.startAddr < 128)
    (hend : req.startAddr + registerNumber req ≤ 128) :
    Ensures (serve env req regs) (fun _ w' => Reported env req w w') w ↔
      EchoesCounted env w req := by
  obtain ⟨ns, hvalues, hlen⟩ := valuesIn_raw hreq hend
  have hserve := @ensures_serve_raw env w req regs hreq h128 hend ns hvalues hlen
  have hwords := requestWords_eq hvalues hlen
  constructor
  · intro h dataIn hdataIn
    obtain rfl := Except.ok.inj (hwords.symm.trans hdataIn)
    obtain ⟨-, w', ⟨dataIn, answer, pck, hxfers, hanswers, hpck, hflag⟩,
      answer', encData, rfl, -, hpck'⟩ := Ensures.of_allows h hserve.allows
    have hdata : rawWords req ns = dataIn := List.append_cancel_right
      (List.singleton_inj.mp (List.append_cancel_left hxfers))
    have hanswer : answer' = answer := List.singleton_inj.mp (List.append_cancel_left hanswers)
    subst hdata hanswer
    obtain rfl := Except.ok.inj (hpck.symm.trans hpck')
    rw [← mismatches_pos_iff] at hflag
    dsimp only at hflag
    omega
  · intro hparity
    have hcount := hparity _ hwords
    refine Ensures.imp hserve ?_
    rintro _ w' ⟨answer, encData, rfl, -, hanswer⟩
    refine ⟨rawWords req ns, answer, _, rfl, rfl, hanswer, ?_⟩
    rw [← mismatches_pos_iff]
    dsimp only
    omega

/-- **Errors are reported exactly when the range ends below 128 and the number of wrong echoes is
odd or zero.** -/
theorem errorsReported_iff (env : Env) (w : World) (state : Loop) (raw : Bytes) :
    ErrorsReported env w state raw ↔ ErrorsCounted env w raw := by
  unfold ErrorsReported ErrorsCounted
  refine forall_congr' fun req => forall_congr' fun hdecode => forall_congr' fun h128 => ?_
  have hreq := FPGAMapRequestPacket.valid_of_decode hdecode
  rw [Ensures, wp_iteration_message hdecode]
  rcases Nat.lt_or_ge 128 (req.startAddr + registerNumber req) with hend | hend
  · refine iff_of_false ?_ fun h => absurd h.1 (Nat.not_le.mpr hend)
    exact (raises_serve_raw h128 hend).not_ensures
  · exact (ensures_reported_iff hreq h128 hend).trans (and_iff_right hend).symm

/-- From an FPGA that answers with ones only, a read of two registers, whose echoes are both wrong,
is answered without an error. -/
theorem not_errorsReported_twoEchoes :
    ¬ ErrorsReported ones ⟨[], []⟩ ⟨none, fun _ => none⟩
      [1, 0, 0, 0, 1, 0, 10, 0, 8, 0, 0, 0] := by
  intro h
  let req : FPGAMapRequestPacket := ⟨1, 1, 0, 10, 8, []⟩
  have hdecode : FPGAMapRequestPacket.decode [1, 0, 0, 0, 1, 0, 10, 0, 8, 0, 0, 0] = .ok req := by
    decide
  have hreq := FPGAMapRequestPacket.valid_of_decode hdecode
  have h128 : req.startAddr < 128 := by decide
  have htwo : registerNumber req = 2 := by
    show 8 / 4 = 2
    rfl
  have hreported := h req hdecode h128
  rw [Ensures, wp_iteration_message hdecode] at hreported
  have hcounted := (ensures_reported_iff hreq h128 (by rw [htwo]; decide)).mp hreported
  have hvalues : valuesIn req = .ok (([0, 0] : List ℤ).map .int) := by
    unfold valuesIn
    rw [if_neg (by decide), htwo]
    rfl
  -- two is even
  have hparity := hcounted _ (requestWords_eq hvalues htwo.symm)
  rw [htwo] at hparity
  exact absurd hparity (by decide)

end Reported

end ClickA.Fpga
