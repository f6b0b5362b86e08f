import ClickA.Commands.Branches

/-!
# The branches of the FPGA

What `CMD_PL_SET_FPGA`, `CMD_PL_GET_FPGA` and `CMD_PL_UPDATE_SEED_PARAMS` acknowledge.

## Main results

* `length_payload_list`: a list of integers is packed into four bytes each
* `exists_countErrors_iff`: registers are compared if and only if there are enough of them
* `settles_setFpga`, `settles_getFpga`: when registers are acknowledged
* `calcsize_seedFormat_ne`: the seed parameters are never unpacked
-/

namespace ClickA.Commands

open Python Options Fpga Handler

attribute [local irreducible] pack unpack HKControlPacket.encode TxPacket.encode sendPatCommand
  FPGAMapRequestPacket.encode

variable {env : Env} {w : World} {payload data : Bytes} {addr n num rqNumber : ℕ}
  {writeData : List ℤ}
  {values : List Value}

/-! ## Formats -/

/-- A register has four bytes, wherever it stands. -/
theorem endFrom_append {off : ℕ} (hoff : off % 4 = 0) {cs : List Code} (hcs : cs ∈ formats)
    (rest : List Code) : endFrom true off (cs ++ rest) = endFrom true (off + 4) rest := by
  have hshort : (2 - (off + 2) % 2) % 2 = 0 := by omega
  have hlong : (4 - off % 4) % 4 = 0 := by omega
  unfold formats at hcs
  simp only [List.mem_cons, List.not_mem_nil, or_false] at hcs
  rcases hcs with rfl | rfl | rfl | rfl | rfl
  · simp [endFrom, gap, Code.align, Code.size, Nat.mod_one]
  · simp [endFrom, gap, Code.align, Code.size, hshort]
  · simp [endFrom, gap, Code.align, Code.size, hlong]
  · simp [endFrom, gap, Code.align, Code.size, hlong]
  · simp [endFrom]

theorem endFrom_flatten {css : List (List Code)} (hcss : ∀ cs ∈ css, cs ∈ formats) {off : ℕ}
    (hoff : off % 4 = 0) : endFrom true off css.flatten = off + 4 * css.length := by
  induction css generalizing off with
  | nil => rfl
  | cons cs css ih =>
    obtain ⟨hcs, hcss⟩ := List.forall_mem_cons.mp hcss
    have hoff' : (off + 4) % 4 = 0 := by omega
    rw [List.flatten_cons, endFrom_append hoff hcs, ih hcss hoff', List.length_cons]
    omega

/-- The types that a list is packed with are formats of registers, one for each. -/
theorem formats_of_mapM {addrs : List ℕ} {css : List (List Code)}
    (h : (addrs.mapM fun ad => Client.RegisterType.toCodes (registerType ad)) = .ok css) :
    (∀ cs ∈ css, cs ∈ formats) ∧ css.length = addrs.length := by
  induction addrs generalizing css with
  | nil =>
    obtain rfl := Except.ok.inj h
    exact ⟨fun cs hcs => absurd hcs List.not_mem_nil, rfl⟩
  | cons ad addrs ih =>
    rw [List.mapM_cons] at h
    obtain ⟨cs, hcs, h⟩ := bind_eq_ok.mp h
    obtain ⟨css', hcss', h⟩ := bind_eq_ok.mp h
    obtain rfl := Except.ok.inj h
    obtain ⟨hformats, hlength⟩ := ih hcss'
    refine ⟨List.forall_mem_cons.mpr ⟨?_, hformats⟩, by rw [List.length_cons, hlength,
      List.length_cons]⟩
    obtain hstr | ⟨cs', hmem, hcodes⟩ := known_registerType ad
    · rw [hstr] at hcs
      cases hcs
    · rw [hcodes] at hcs
      obtain rfl := Except.ok.inj hcs
      exact hmem

/-- **A list of integers is packed into four bytes each.** -/
theorem length_payload_list (h : Client.payload addr (.list writeData) = .ok data) :
    data.length = 4 * writeData.length := by
  obtain ⟨css, hcss, hpack⟩ := bind_eq_ok.mp h
  obtain ⟨hformats, hlength⟩ := formats_of_mapM hcss
  have hsize : calcsize (native css.flatten) = 0 + 4 * css.length := endFrom_flatten hformats rfl
  rw [length_of_pack hpack, hsize, hlength, List.length_range', Nat.zero_add]

/-- Numbers of four bytes, in network order. -/
theorem endFrom_replicate_I (off n : ℕ) :
    endFrom false off (List.replicate n .I) = off + 4 * n := by
  induction n generalizing off with
  | zero => rfl
  | succ n ih =>
    rw [List.replicate_succ, endFrom_cons (by decide), ih]
    show off + 0 + 4 + 4 * n = off + 4 * (n + 1)
    omega

theorem calcsize_registers (n : ℕ) :
    calcsize (network ([.B, .H, .B] ++ List.replicate n .I)) = 4 + 4 * n :=
  endFrom_replicate_I 4 n

/-- **The seed parameters are never unpacked**: their format is too long for every payload. -/
theorem calcsize_seedFormat_ne (n : ℕ) : n ≠ calcsize (seedFormat n) := by
  have hsize : calcsize (seedFormat n) = 0 + 4 * (((n : ℤ) - 4) / 4 + 3).toNat :=
    endFrom_replicate_I 0 _
  omega

/-! ## Comparing registers -/

theorem countErrors_succ (num : ℕ) (values : List Value) (writeData : List ℤ) :
    countErrors (num + 1) values writeData = (do
      let numErrors ← countErrors num values writeData
      return numErrors + (differs (← index values num) (← index writeData num)).toNat) := by
  unfold countErrors
  rw [List.range_succ, List.foldlM_append]
  simp only [List.foldlM_cons, List.foldlM_nil, bind_pure]

/-- Registers are compared if and only if there are enough of them. -/
theorem exists_countErrors_iff (h : num ≤ writeData.length) :
    (∃ k, countErrors num values writeData = .ok k) ↔ num ≤ values.length := by
  induction num with
  | zero => exact iff_of_true ⟨0, rfl⟩ (Nat.zero_le _)
  | succ num ih =>
    rw [countErrors_succ, index_of_lt (Nat.lt_of_succ_le h)]
    constructor
    · rintro ⟨k, hk⟩
      obtain ⟨numErrors, -, hrest⟩ := bind_eq_ok.mp hk
      obtain ⟨value, hvalue, -⟩ := bind_eq_ok.mp hrest
      by_contra hlt
      rw [index_of_le (by omega)] at hvalue
      cases hvalue
    · intro hle
      obtain ⟨k, hk⟩ := (ih (by omega)).mpr (by omega)
      rw [hk, index_of_lt (by omega)]
      exact ⟨_, rfl⟩

/-- A comparison is acknowledged if and only if there are enough registers. -/
theorem settles_compareRegs (h : num ≤ writeData.length) :
    Settles (num ≤ values.length) cmdPlSetFpga (compareRegs env num values writeData) w := by
  unfold compareRegs
  by_cases hle : num ≤ values.length
  · obtain ⟨k, hk⟩ := (exists_countErrors_iff h).mpr hle
    apply settles_raise_bind hk
    split
    · exact settles_own (by decide) (by decide) hle
    · exact settles_own (by decide) (by decide) hle
  · cases hk : countErrors num values writeData with
    | ok k => exact absurd ((exists_countErrors_iff h).mp ⟨k, hk⟩) hle
    | error e =>
      apply settles_bind
      rw [wp_raise_error]
      exact Or.inr ⟨refl_of Silent w, hle⟩

/-! ## Writing registers -/

/-- What `CMD_PL_SET_FPGA` unpacks. -/
theorem exists_unpack_setFpga (h : payload.length = calcsize (setFpgaFormat payload.length)) :
    ∃ (rqNumber startAddr numRegisters : ℕ) (writeData : List ℤ) (values : List Value),
      unpack (setFpgaFormat payload.length) payload = .ok values ∧
      ints values = (rqNumber : ℤ) :: startAddr :: numRegisters :: writeData ∧
      startAddr < 256 ^ 2 ∧ numRegisters < 256 ^ 1 :=
  ⟨_, _, _, _, _, unpack_of_length h, rfl, leNat_take_lt 2 _, leNat_take_lt 1 _⟩

/-- A list that is packed is written, and only an answer raises. -/
theorem calls_writeReg_list (haddr : addr < 2 ^ 16) (hnum : writeData.length < 2 ^ 8)
    (hdata : Client.payload addr (.list writeData) = .ok data) :
    Calls (writeReg env addr (.list writeData)) := by
  have hlength := length_payload_list hdata
  exact calls_writeReg haddr hdata (by omega) (by omega)

/-- A list that is not packed is not written. -/
theorem wp_writeReg_of_error {value : Client.WriteValue} {e : Exn}
    {Q : Client.RegValue → World → Prop}
    {E : Err → World → Prop} (hdata : Client.payload addr value = .error e)
    (h : E (.raised e) { w with fpga := w.fpga.ticked }) : Wp (writeReg env addr value) Q E w := by
  unfold writeReg Client.writeRegAsync
  rw [wp_bind, wp_onClient, wp_bind, wp_of_ok (Client.getToken_eq w.fpga), wp_bind, hdata]
  exact h

/-- What is written is acknowledged if and only if it is read back. -/
theorem settles_writtenRegs (haddr : addr < 2 ^ 16) (hnum : num = writeData.length)
    (hlt : num < 2 ^ 8) (hdata : Client.payload addr (.list writeData) = .ok data) :
    Settles (ReadsBack env w addr num writeData) cmdPlSetFpga (do
      let _ ← writeReg env addr (.list writeData)
      match valuesOf env (← readReg env addr num) with
      | some checkWriteData => compareRegs env num checkWriteData writeData
      | none => ackToHk env cmdPlGetFpga cmdErr) w := by
  have hcalls : Calls (do
      let _ ← writeReg env addr (.list writeData)
      readReg env addr num) := by
    apply calls_bind (calls_writeReg_list haddr (by omega) hdata)
    exact fun _ => calls_readReg haddr (by omega)
  unfold ReadsBack
  rw [← bind_assoc]
  apply settles_bind
  have hw := hcalls w
  cases hread : (do
      let _ ← writeReg env addr (.list writeData)
      readReg env addr num) w with
  | error e w' =>
    rw [wp_of_error hread] at hw ⊢
    exact Or.inl hw
  | ok value w' =>
    rw [wp_of_ok hread] at hw ⊢
    refine ⟨hw, ?_⟩
    rw [Allows, wp_of_ok hread]
    cases hvalues : valuesOf env value with
    | none =>
      refine settles_ack (by decide) (by decide) (iff_of_false (by decide) ?_)
      rintro ⟨values, hsome, -⟩
      cases hsome
    | some values =>
      refine (settles_compareRegs (Nat.le_of_eq hnum)).congr ?_
      constructor
      · exact fun hle => ⟨values, rfl, hle⟩
      · rintro ⟨_, hsome, hle⟩
        exact Option.some.inj hsome ▸ hle

/-- **`CMD_PL_SET_FPGA` is acknowledged if and only if the registers are written and read back.** -/
theorem settles_setFpga (h : payload.length = calcsize (setFpgaFormat payload.length)) :
    Settles (SetsRegs env w payload) cmdPlSetFpga (setFpga env payload) w := by
  obtain ⟨rqNumber, startAddr, num, writeData, values, hunpack, hints, haddr, hlt⟩ :=
    exists_unpack_setFpga h
  have hgood : SetsRegs env w payload ↔ (num : ℤ) = writeData.length ∧
      (∃ data, Client.payload startAddr (.list writeData) = .ok data) ∧
      ReadsBack env w startAddr num writeData := by
    constructor
    · rintro ⟨values', rqNumber', startAddr', num', writeData', hunpack', hints', hnum, hdata,
        hreads⟩
      obtain rfl := Except.ok.inj (hunpack.symm.trans hunpack')
      rw [hints] at hints'
      obtain ⟨-, rfl, rfl, rfl⟩ : _ ∧ _ ∧ _ ∧ _ := by simpa only [List.cons.injEq] using hints'
      exact ⟨hnum, hdata, hreads⟩
    · rintro ⟨hnum, hdata, hreads⟩
      exact ⟨values, _, _, _, writeData, hunpack, hints, hnum, hdata, hreads⟩
  refine Settles.congr ?_ hgood.symm
  unfold setFpga
  apply settles_raise_bind hunpack
  rw [hints]
  dsimp only
  split
  · rename_i hnum
    cases hdata : Client.payload startAddr (.list writeData) with
    | error e =>
      apply settles_bind
      apply wp_writeReg_of_error hdata
      refine Or.inr ⟨silent_of_eq rfl, ?_⟩
      rintro ⟨-, ⟨data, hdata⟩, -⟩
      cases hdata
    | ok data =>
      refine (settles_writtenRegs haddr (Int.natCast_inj.mp hnum) hlt hdata).congr ?_
      exact ⟨fun hreads => ⟨hnum, ⟨data, rfl⟩, hreads⟩, fun hgood => hgood.2.2⟩
  · rename_i hnum
    exact settles_of_silent (keeps_pure ()) fun hgood => hnum hgood.1

/-! ## Reading registers -/

/-- A list of the right length is sent to the ground and acknowledged, if it is packed. -/
theorem settles_sendRegs (hlength : values.length < 2 ^ 8) :
    Settles (∃ data, packRegs rqNumber addr values = .ok data) cmdPlGetFpga (do
      sendTx tlmGetFpga (← raise (packRegs rqNumber addr values))
      ackToHk env cmdPlGetFpga cmdAck) w := by
  cases hpack : packRegs rqNumber addr values with
  | error e =>
    apply settles_bind
    rw [wp_raise_error]
    refine Or.inr ⟨refl_of Silent w, ?_⟩
    rintro ⟨data, hdata⟩
    cases hdata
  | ok data =>
    have hdata := (length_of_pack hpack).trans (calcsize_registers values.length)
    apply settles_raise_bind rfl
    apply (calls_sendTx (by decide) (by omega)).bind
    exact fun _ _ => settles_own (by decide) (by decide) ⟨data, rfl⟩

/-- **`CMD_PL_GET_FPGA` is acknowledged if and only if the right number of values can be
packed.** -/
theorem settles_getFpga (h : payload.length = calcsize (network [.B, .H, .B])) :
    Settles (GetsRegs env w payload) cmdPlGetFpga (getFpga env payload) w := by
  obtain ⟨rqNumber, startAddr, num, hunpack, haddr, hlt⟩ : ∃ rqNumber startAddr num : ℕ,
      unpack (network [.B, .H, .B]) payload = .ok [.int rqNumber, .int startAddr, .int num] ∧
      startAddr < 256 ^ 2 ∧ num < 256 ^ 1 :=
    ⟨_, _, _, unpack_of_length h, leNat_take_lt 2 _, leNat_take_lt 1 _⟩
  have hgood : GetsRegs env w payload ↔ Allows (readReg env startAddr num) (fun value _ =>
      ∀ readData, valuesOf env value = some readData → num = readData.length →
        ∃ data, packRegs rqNumber startAddr readData = .ok data) w := by
    constructor
    · rintro ⟨rqNumber', startAddr', num', hunpack', hallows⟩
      have heq := Except.ok.inj (hunpack.symm.trans hunpack')
      simp only [List.cons.injEq, Value.int.injEq, Int.natCast_inj, and_true] at heq
      obtain ⟨rfl, rfl, rfl⟩ := heq
      exact hallows
    · exact fun hallows => ⟨rqNumber, startAddr, num, hunpack, hallows⟩
  refine Settles.congr ?_ hgood.symm
  unfold getFpga
  apply settles_raise_bind hunpack
  simp only [Int.toNat_natCast]
  apply settles_bind
  have hcalls : Wp (readReg env startAddr num) _ _ w := calls_readReg haddr (by omega) w
  cases hread : readReg env startAddr num w with
  | error e w' =>
    rw [wp_of_error hread] at hcalls ⊢
    exact Or.inl hcalls
  | ok value w' =>
    rw [wp_of_ok hread] at hcalls ⊢
    refine ⟨hcalls, ?_⟩
    rw [Allows, wp_of_ok hread]
    cases hvalues : valuesOf env value with
    | none =>
      refine settles_own (by decide) (by decide) fun readData hsome => ?_
      cases hsome
    | some readData =>
      dsimp only
      split
      · rename_i hne
        refine settles_own (by decide) (by decide) fun readData' hsome hlength => ?_
        obtain rfl := Option.some.inj hsome
        exact absurd (congrArg Int.ofNat hlength) hne
      · rename_i hne
        have hlength : num = readData.length := Int.natCast_inj.mp (not_not.mp hne)
        refine (settles_sendRegs (by omega)).congr ?_
        constructor
        · intro hpacks readData' hsome _
          rwa [← Option.some.inj hsome]
        · exact fun hall => hall readData rfl hlength

end ClickA.Commands
