import ClickA.Files.Answers

/-!
# Uplinked files

A file whose chunks were all uplinked is put together, whatever their order was and however often
they came. Where a chunk is missing, the assembly does not report it: the loop walks the positions
of the chunks that are there.

## Main definitions

* `Complete`: the folder has the chunks of a file
* `ReportsMissing`: a packet reports the chunks that are missing

## Main results

* `ensures_assembleFile`: a file is put together of all its chunks
* `reassembled`: a file is put together after uplinks in any order
* `reported_iff`: missing chunks are reported exactly where none is missing and there is none else
-/

namespace ClickA.Files

open Python Python.Disk

/-- The folder has the chunks of a file, and no others. -/
def Complete (chunks : Chunks) (seqLen : ℕ) : Prop :=
  ∀ key, (chunks key).isSome = true ↔ 1 ≤ key.1 ∧ key.1 ≤ seqLen ∧ key.2 = seqLen

/-- The keys of the chunks of a file. -/
def completeKeys (seqLen : ℕ) : List Key := (List.range seqLen).map fun i => (i + 1, seqLen)

variable {env : Env} {h : Host} {disk : Disk} {sent : List Bytes} {transferId seqLen i : ℕ}
  {chunks : Chunks} {keys : List Key} {raw text : Bytes} {path : Path}
      {pieces payloads : List Bytes}

/-! ## Complete folders -/

theorem Complete.uniform (hcomplete : Complete chunks seqLen) : Uniform chunks seqLen :=
  fun key hkey => ((hcomplete key).mp hkey).2

theorem mem_completeKeys {key : Key} : key ∈ completeKeys seqLen ↔
    1 ≤ key.1 ∧ key.1 ≤ seqLen ∧ key.2 = seqLen := by
  unfold completeKeys
  rw [List.mem_map]
  constructor
  · rintro ⟨i, hi, rfl⟩
    exact ⟨Nat.succ_pos i, List.mem_range.mp hi, rfl⟩
  · rintro ⟨hpos, hle, hlen⟩
    refine ⟨key.1 - 1, List.mem_range.mpr (by omega), Prod.ext ?_ hlen.symm⟩
    show key.1 - 1 + 1 = key.1
    omega

theorem Complete.sortedKeys (hcomplete : Complete chunks seqLen) :
    SortedKeys chunks (completeKeys seqLen) where
  sorted := by
    unfold completeKeys
    rw [List.pairwise_map]
    refine List.pairwise_lt_range.imp ?_
    intro i j hlt
    exact Nat.succ_le_succ hlt.le
  nodup := by
    refine List.nodup_range.map ?_
    intro i j hij
    exact Nat.succ.inj (Prod.ext_iff.mp hij).1
  mem := fun key => mem_completeKeys.trans (hcomplete key).symm

theorem getElem?_completeKeys (hi : i < seqLen) :
    (completeKeys seqLen)[i]? = some (i + 1, seqLen) := by
  simp [completeKeys, hi]

theorem inPlace_completeKeys (hi : i < seqLen) : inPlace (completeKeys seqLen) i = true := by
  unfold inPlace
  rw [getElem?_completeKeys hi]
  simp

theorem gaps_completeKeys : gaps (completeKeys seqLen) seqLen = [] := by
  unfold gaps
  rw [List.filter_eq_nil_iff]
  intro i hi
  rw [inPlace_completeKeys (List.mem_range.mp hi)]
  simp

/-- Of all chunks, the whole file is added. -/
theorem added_completeKeys (hchunks : ∀ i, chunks (i + 1, pieces.length) = pieces[i]?) :
    added chunks (completeKeys pieces.length) pieces.length = pieces.flatten := by
  have hall : (List.range pieces.length).filter (inPlace (completeKeys pieces.length)) =
      List.range pieces.length :=
    List.filter_eq_self.mpr fun i hi => inPlace_completeKeys (List.mem_range.mp hi)
  have hmap : (List.range pieces.length).map (pieceAt chunks (completeKeys pieces.length)) =
      pieces := by
    refine List.ext_getElem (by simp) ?_
    intro i hi hi'
    rw [List.getElem_map, List.getElem_range]
    unfold pieceAt
    rw [getElem?_completeKeys hi', Option.bind_some, hchunks, List.getElem?_eq_getElem hi']
    rfl
  unfold added
  rw [hall, List.flatMap_def, hmap]

/-- **A file is put together of all its chunks.** -/
theorem ensures_assembleFile (hreliable : env.Reliable) (hstages : Stages disk transferId chunks)
    (hcomplete : Complete chunks seqLen) (hpos : 1 ≤ seqLen) (hseqLen : seqLen < 2 ^ 16)
    (ht : transferId < 2 ^ 16) (hnames : Names raw transferId text)
    (hwritable : Writable env disk text path) (hat : h.At disk sent) :
    Ensures (assembleFile env raw) (fun _ h' => ∃ disk' packet, h'.At disk' (sent ++ [packet]) ∧
      Answers packet transferId flSuccess [] ∧
      Assembled chunks transferId path disk' (added chunks (completeKeys seqLen) seqLen)) h := by
  have hne : completeKeys seqLen ≠ [] := by
    unfold completeKeys
    simp
    omega
  have hbody := wp_assemble hreliable hstages hcomplete.sortedKeys hcomplete.uniform hseqLen hne
    (by simp [completeKeys]) hwritable hat
  apply wp_assembleFile hnames
  cases hrun : assemble env transferId text h with
  | error e h' =>
    rw [wp_of_error hrun] at hbody
    exact absurd gaps_completeKeys hbody.1
  | ok a h' =>
    rw [wp_of_ok hrun] at hbody
    obtain ⟨-, disk', hat', hassembled⟩ := hbody
    obtain ⟨packet, hencode⟩ : ∃ packet, TxPacket.encode tlmAssembleFile
        (answerBytes transferId flSuccess []) = .ok packet :=
      ⟨_, TxPacket.encode_eq (by decide) (by rw [length_answerBytes]; decide)⟩
    have hsend := ensures_sendPacket hencode hat'
    refine (wp_congr (answer_of_ok hrun)).mpr ?_
    rw [formatSuccessResponse_eq ht, wp_raise_ok]
    refine hsend.imp ?_
    intro _ h'' hat''
    exact ⟨disk', packet, hat'', answers_of_encode ht (by decide) (by decide) (by simp) hencode,
      hassembled⟩

/-- **A file is put together after uplinks of its chunks**, in any order and with any repetitions,
for each order of the names in the folder. -/
theorem reassembled (hreliable : env.Reliable) (hpieces : pieces ≠ [])
    (hcreatable : h.disk.Creatable (stagingPath transferId))
    (hempty : ∀ name, isChunk name = true → name :: stagingPath transferId ∉ h.disk)
    (hcarry : ∀ payload ∈ payloads, ∃ i data, pieces[i]? = some data ∧
      Carries payload transferId (i + 1, pieces.length) data)
    (hall : ∀ i < pieces.length, ∃ payload ∈ payloads, ∃ data,
      Carries payload transferId (i + 1, pieces.length) data) :
    Ensures (uplinks env payloads) (fun _ h₁ => ∀ raw text path, Names raw transferId text →
      Writable env h₁.disk text path →
      (∀ i, 1 ≤ i → i ≤ pieces.length → path ≠ chunkPath transferId (i, pieces.length)) →
      Ensures (assembleFile env raw) (fun _ h₂ => h₂.disk.content path = some pieces.flatten ∧
        ∃ packet, h₂.sent = h₁.sent ++ [packet] ∧ Answers packet transferId flSuccess []) h₁)
            h := by
  have hcarry' : ∀ payload ∈ payloads, ∃ key data, Carries payload transferId key data ∧
      key.1 ≤ key.2 := by
    intro payload hmem
    obtain ⟨i, data, hi, hcarries⟩ := hcarry payload hmem
    exact ⟨_, data, hcarries, (List.getElem?_eq_some_iff.mp hi).1⟩
  refine (ensures_uplinks hreliable (stages_empty hcreatable hempty) hcarry' ⟨rfl, rfl⟩).imp ?_
  rintro _ h₁ ⟨disk, chunks, hat, hstages, hdata, hsome⟩ raw text path hnames hwritable hapart
  have hpos : 0 < pieces.length := List.length_pos_iff.mpr hpieces
  have hcomplete : Complete chunks pieces.length := by
    intro key
    rw [hsome key]
    simp only [Option.isSome_none, Bool.false_eq_true, false_or]
    constructor
    · rintro ⟨payload, hmem, data, hcarries⟩
      obtain ⟨i, data', hi, hcarries'⟩ := hcarry payload hmem
      rw [(hcarries.inj hcarries').1]
      exact ⟨Nat.succ_pos i, (List.getElem?_eq_some_iff.mp hi).1, rfl⟩
    · rintro ⟨hfst, hle, hsnd⟩
      obtain ⟨payload, hmem, data, hcarries⟩ := hall (key.1 - 1) (by omega)
      have hkey : key = (key.1 - 1 + 1, pieces.length) := Prod.ext (by simp only; omega) hsnd
      exact ⟨payload, hmem, data, hkey ▸ hcarries⟩
  have hchunks : ∀ i, chunks (i + 1, pieces.length) = pieces[i]? := by
    intro i
    cases hkey : chunks (i + 1, pieces.length) with
    | some data =>
      rcases hdata _ data hkey with hnone | ⟨payload, hmem, hcarries⟩
      · cases hnone
      · obtain ⟨i', data', hi', hcarries'⟩ := hcarry payload hmem
        obtain ⟨hkeys, rfl⟩ := hcarries.inj hcarries'
        rw [← hi', Nat.succ.inj (Prod.ext_iff.mp hkeys).1]
    | none =>
      symm
      rw [List.getElem?_eq_none_iff]
      by_contra hlt
      have hsome' := (hcomplete (i + 1, pieces.length)).mpr
        ⟨Nat.succ_pos i, Nat.not_le.mp hlt, rfl⟩
      rw [hkey] at hsome'
      exact Bool.noConfusion hsome'
  obtain ⟨payload, -, data, hcarries⟩ := hall 0 hpos
  obtain ⟨ht, -, hlt⟩ := hcarries.lt
  rw [hat.disk] at hwritable
  refine (ensures_assembleFile hreliable hstages hcomplete hpos hlt ht hnames hwritable hat).imp ?_
  rintro _ h₂ ⟨disk', packet, hat', hanswers, hassembled⟩
  refine ⟨?_, packet, by rw [hat'.sent, hat.sent], hanswers⟩
  rw [hat'.disk, ← added_completeKeys hchunks]
  refine (hassembled.apart fun key hkey => ?_).1
  obtain ⟨hfst, hle, hsnd⟩ := (hcomplete key).mp hkey
  rw [show key = (key.1, pieces.length) from Prod.ext rfl hsnd]
  exact hapart key.1 hfst hle

/-- A host whose disk does not fail. -/
def plainEnv : Env where
  cwd := []
  order := fun _ names => names
  perm := fun _ names => .refl names
  fault := fun _ => none
  report := fun _ => []

/-- A chunk of a transfer, as the payload of a command. -/
def chunkPayload (seqNum seqLen : ℕ) (data : Bytes) : Bytes :=
  [0, 5, 0, UInt8.ofNat seqNum, 0, UInt8.ofNat seqLen, 0, UInt8.ofNat data.length] ++ data

/-- The payload that names the transfer and the file `/a`. -/
def assemblePayload : Bytes := [0, 5, 0, 2, 47, 97]

theorem names_assemblePayload : Names assemblePayload 5 (ascii "/a") :=
  ⟨by decide, 2, ascii "/a", rfl, rfl⟩

theorem writable_assemblePayload (hfile : disk.isDir [ascii "a"] = false)
    (hroot : disk.lookup [] = none) : Writable plainEnv disk (ascii "/a") [ascii "a"] where
  nul := by decide
  target := by decide
  file := hfile
  creatable := by
    intro dir hdir node hnode
    rw [List.suffix_nil.mp hdir, hroot] at hnode
    cases hnode
  parent := fun h => absurd h (by decide)

theorem reassembled_twice : Ensures
    (uplinks plainEnv [chunkPayload 2 2 [7], chunkPayload 1 2 [8, 9], chunkPayload 2 2 [7]])
    (fun _ h₁ => Ensures (assembleFile plainEnv assemblePayload) (fun _ h₂ =>
      h₂.disk.content [ascii "a"] = some [8, 9, 7] ∧
        ∃ packet, h₂.sent = h₁.sent ++ [packet] ∧ Answers packet 5 flSuccess []) h₁) {} := by
  have hfirst : Carries (chunkPayload 1 2 [8, 9]) 5 (1, 2) [8, 9] := ⟨2, [8, 9], rfl, rfl⟩
  have hsecond : Carries (chunkPayload 2 2 [7]) 5 (2, 2) [7] := ⟨1, [7], rfl, rfl⟩
  have hrun := @reassembled plainEnv {} 5 [[8, 9], [7]]
    [chunkPayload 2 2 [7], chunkPayload 1 2 [8, 9], chunkPayload 2 2 [7]] (fun _ => rfl) (by simp)
    (fun _ _ _ hnode => by cases hnode) (fun _ _ => AList.notMem_empty _)
    (by
      intro payload hmem
      rcases List.mem_cons.mp hmem with rfl | hmem
      · exact ⟨1, _, rfl, hsecond⟩
      · rcases List.mem_cons.mp hmem with rfl | hmem
        · exact ⟨0, _, rfl, hfirst⟩
        · rw [List.mem_singleton.mp hmem]
          exact ⟨1, _, rfl, hsecond⟩)
    (by
      intro i hi
      rcases i with - | - | i
      · exact ⟨_, List.mem_cons_of_mem _ List.mem_cons_self, _, hfirst⟩
      · exact ⟨_, List.mem_cons_self, _, hsecond⟩
      · exact absurd (show i + 2 < 2 from hi) (by omega))
  have hdisk : endsIn (uplinks plainEnv
      [chunkPayload 2 2 [7], chunkPayload 1 2 [8, 9], chunkPayload 2 2 [7]])
      (fun h => !h.disk.isDir [ascii "a"] && h.disk.lookup [] = none) {} = true := by
    decide +kernel
  refine (hrun.and (endsIn_iff.mp hdisk)).imp ?_
  rintro _ h₁ ⟨hassemble, hroot⟩
  rw [Bool.and_eq_true, Bool.not_eq_true', decide_eq_true_eq] at hroot
  refine hassemble assemblePayload (ascii "/a") [ascii "a"] names_assemblePayload
    (writable_assemblePayload hroot.1 hroot.2) ?_
  intro i _ _ h
  simpa [chunkPath, stagingPath] using congrArg List.length h

/-! ## Missing chunks -/

/-- A chunk with this number was uplinked. -/
def Uplinked (payloads : List Bytes) (transferId seqLen i : ℕ) : Prop :=
  ∃ payload ∈ payloads, ∃ data, Carries payload transferId (i, seqLen) data

/-- A packet reports exactly the numbers from 1 on that are missing, and success if none is. -/
def ReportsMissing (packet : Bytes) (transferId seqLen : ℕ) (present : ℕ → Prop) : Prop :=
  ((∀ i, 1 ≤ i → i ≤ seqLen → present i) → Answers packet transferId flSuccess []) ∧
  ((¬ ∀ i, 1 ≤ i → i ≤ seqLen → present i) →
    ∃ reported, Answers packet transferId flErrMissingChunk reported ∧
      ∀ i, i ∈ reported ↔ 1 ≤ i ∧ i ≤ seqLen ∧ ¬ present i)

/-- As many chunks as there have to be, and none with the number 0, are all chunks. -/
theorem complete_of_length (hkeys : SortedKeys chunks keys) (huniform : Uniform chunks seqLen)
    (hlength : seqLen ≤ keys.length) (hzero : ¬ (chunks (0, seqLen)).isSome = true) :
    Complete chunks seqLen := by
  have hsubset : keys ⊆ completeKeys seqLen := by
    intro key hmem
    have hkey := (hkeys.mem key).mp hmem
    obtain ⟨hle, hlen⟩ := huniform key hkey
    have hpos : key.1 ≠ 0 := fun hfst => hzero (by rwa [← hfst, ← hlen])
    exact mem_completeKeys.mpr ⟨Nat.one_le_iff_ne_zero.mpr hpos, hle, hlen⟩
  have hperm : keys.Perm (completeKeys seqLen) :=
    (List.subperm_of_subset hkeys.nodup hsubset).perm_of_length_le (by simpa [completeKeys])
  intro key
  rw [← hkeys.mem key, hperm.mem_iff, mem_completeKeys]

/-- A chunk with the number 0 is at the first position, which is reported. -/
theorem zero_mem_gaps (hkeys : SortedKeys chunks keys) (hpos : 1 ≤ seqLen)
    (hzero : (chunks (0, seqLen)).isSome = true) : 0 ∈ gaps keys seqLen := by
  have hmem := (hkeys.mem _).mpr hzero
  unfold gaps
  rw [List.mem_filter]
  refine ⟨List.mem_range.mpr hpos, ?_⟩
  cases keys with
  | nil => exact absurd hmem List.not_mem_nil
  | cons key keys =>
    have hfirst : key.1 = 0 := by
      rcases List.mem_cons.mp hmem with heq | hmem
      · rw [← heq]
      · exact Nat.le_zero.mp ((List.pairwise_cons.mp hkeys.sorted).1 _ hmem)
    simp [inPlace, hfirst]

theorem raises_sendException {α : Type} (e : Exn) :
    Raises (sendException (α := α) env (.raised e)) h := by
  unfold sendException
  rw [Raises, Allows, wp_bind]
  exact wp_true.mono (fun _ _ _ => trivial) fun _ _ _ => trivial

/-- Where the folder has too few chunks, `assemble_file` raises. -/
theorem raises_assembleFile (hreliable : env.Reliable) (hstages : Stages disk transferId chunks)
    (hkeys : SortedKeys chunks keys) (huniform : Uniform chunks seqLen) (hseqLen : seqLen < 2 ^ 16)
    (hne : keys ≠ []) (hlength : keys.length < seqLen) (hnames : Names raw transferId text)
    (hwritable : Writable env disk text path) (hat : h.At disk sent) :
    Raises (assembleFile env raw) h := by
  obtain ⟨⟨e, missing⟩, h', hrun, rfl⟩ :=
    (wp_assemble_of_lt hreliable hstages hkeys huniform hseqLen
    hne hlength hwritable hat).exists_error
  apply wp_assembleFile hnames
  refine (wp_congr (answer_of_raised hrun)).mpr ?_
  exact (raises_sendException .indexError).mono (fun _ _ hfalse => hfalse.elim) fun _ _ _ => wp_true

/-- Where the first position is reported, `assemble_file` reports no success. -/
theorem allows_assembleFile (hreliable : env.Reliable) (hstages : Stages disk transferId chunks)
    (hkeys : SortedKeys chunks keys) (huniform : Uniform chunks seqLen) (hseqLen : seqLen < 2 ^ 16)
    (ht : transferId < 2 ^ 16) (hne : keys ≠ []) (hlength : seqLen ≤ keys.length)
    (hzero : 0 ∈ gaps keys seqLen) (hnames : Names raw transferId text)
    (hwritable : Writable env disk text path) (hat : h.At disk sent) :
    Allows (assembleFile env raw) (fun _ h' => ∃ packet, h'.sent = sent ++ [packet] ∧
      Answers packet transferId flErrMissingChunk (gaps keys seqLen)) h := by
  have hbody := wp_assemble hreliable hstages hkeys huniform hseqLen hne hlength hwritable hat
  have hgaps : ∀ chunkId ∈ gaps keys seqLen, chunkId < 2 ^ 16 := fun chunkId hmem =>
    (List.mem_range.mp (List.mem_filter.mp hmem).1).trans hseqLen
  have hshort : (gaps keys seqLen).length < 2 ^ 16 := by
    refine lt_of_le_of_lt (List.length_filter_le _ _) ?_
    rwa [List.length_range]
  apply wp_assembleFile hnames
  cases hrun : assemble env transferId text h with
  | ok a h' =>
    rw [wp_of_ok hrun] at hbody
    rw [hbody.1] at hzero
    exact absurd hzero List.not_mem_nil
  | error e h' =>
    rw [wp_of_error hrun] at hbody
    obtain ⟨-, rfl, disk', hat'⟩ := hbody
    refine (wp_congr (answer_of_file hrun)).mpr ?_
    rw [formatErrResponse_eq ht (by decide) hshort hgaps, wp_raise_ok]
    cases hencode : TxPacket.encode tlmAssembleFile
        (answerBytes transferId flErrMissingChunk (gaps keys seqLen)) with
    | error e =>
      unfold sendPacket
      rw [hencode, wp_bind, wp_raise_error]
      trivial
    | ok packet =>
      refine (ensures_sendPacket hencode hat').mono ?_ fun _ _ hfalse => hfalse.elim
      intro _ h'' hat''
      exact ⟨packet, hat''.sent, answers_of_encode ht (by decide) hshort hgaps hencode⟩

/-- **Missing chunks are reported exactly where none is missing**, and none has the number 0. -/
theorem reported_iff (hreliable : env.Reliable) (hpayloads : payloads ≠ []) (hpos : 1 ≤ seqLen)
    (hcreatable : h.disk.Creatable (stagingPath transferId))
    (hempty : ∀ name, isChunk name = true → name :: stagingPath transferId ∉ h.disk)
    (haccepted : ∀ payload ∈ payloads, ∃ i data, i ≤ seqLen ∧
      Carries payload transferId (i, seqLen) data) :
    Ensures (uplinks env payloads) (fun _ h₁ => ∀ raw text path, Names raw transferId text →
      Writable env h₁.disk text path →
      (Ensures (assembleFile env raw) (fun _ h₂ => ∃ packet, h₂.sent = h₁.sent ++ [packet] ∧
          ReportsMissing packet transferId seqLen (Uplinked payloads transferId seqLen)) h₁ ↔
        ∀ i, Uplinked payloads transferId seqLen i ↔ 1 ≤ i ∧ i ≤ seqLen)) h := by
  have hcarry : ∀ payload ∈ payloads, ∃ key data, Carries payload transferId key data ∧
      key.1 ≤ key.2 := by
    intro payload hmem
    obtain ⟨i, data, hle, hcarries⟩ := haccepted payload hmem
    exact ⟨_, data, hcarries, hle⟩
  refine (ensures_uplinks hreliable (stages_empty hcreatable hempty) hcarry ⟨rfl, rfl⟩).imp ?_
  rintro _ h₁ ⟨disk, chunks, hat, hstages, -, hsome⟩ raw text path hnames hwritable
  rw [hat.disk] at hwritable
  have hpresent : ∀ key, (chunks key).isSome = true ↔
      ∃ payload ∈ payloads, ∃ data, Carries payload transferId key data := by
    intro key
    rw [hsome key]
    simp only [Option.isSome_none, Bool.false_eq_true, false_or]
  have huniform : Uniform chunks seqLen := by
    intro key hkey
    obtain ⟨payload, hmem, data, hcarries⟩ := (hpresent key).mp hkey
    obtain ⟨i, data', hle, hcarries'⟩ := haccepted payload hmem
    rw [(hcarries.inj hcarries').1]
    exact ⟨hle, rfl⟩
  obtain ⟨payload, hmem⟩ := List.exists_mem_of_ne_nil payloads hpayloads
  obtain ⟨i, data, -, hcarries⟩ := haccepted payload hmem
  obtain ⟨ht, -, hlt⟩ := hcarries.lt
  obtain ⟨keys, hkeys⟩ := hstages.exists_sortedKeys
  have hne : keys ≠ [] := List.ne_nil_of_mem
    ((hkeys.mem _).mpr ((hpresent (i, seqLen)).mpr ⟨payload, hmem, data, hcarries⟩))
  have hcomplete : Complete chunks seqLen ↔
      ∀ i, Uplinked payloads transferId seqLen i ↔ 1 ≤ i ∧ i ≤ seqLen := by
    constructor
    · intro hcomplete i
      unfold Uplinked
      rw [← hpresent (i, seqLen), hcomplete (i, seqLen)]
      simp only [and_true]
    · intro hnumbers key
      constructor
      · intro hkey
        have hlen := (huniform key hkey).2
        rw [show key = (key.1, seqLen) from Prod.ext rfl hlen, hpresent] at hkey
        obtain ⟨hfst, hle⟩ := (hnumbers key.1).mp hkey
        exact ⟨hfst, hle, hlen⟩
      · rintro ⟨hfst, hle, hlen⟩
        rw [show key = (key.1, seqLen) from Prod.ext rfl hlen, hpresent]
        exact (hnumbers key.1).mpr ⟨hfst, hle⟩
  rw [← hcomplete]
  constructor
  · intro hreports
    -- too few chunks raise, and enough of them with one missing have the number 0
    rcases Nat.lt_or_ge keys.length seqLen with hshort | hlength
    · exact absurd hreports (raises_assembleFile hreliable hstages hkeys huniform hlt hne hshort
        hnames
        hwritable hat).not_ensures
    · by_contra hnot
      have hzero : 0 ∈ gaps keys seqLen := zero_mem_gaps hkeys hpos (by
        by_contra hnone
        exact hnot (complete_of_length hkeys huniform hlength hnone))
      obtain ⟨_, h₂, ⟨packet, hsent, hreports⟩, packet', hsent', hanswers⟩ :=
        hreports.of_allows (allows_assembleFile hreliable hstages hkeys huniform hlt ht hne hlength
          hzero hnames hwritable hat)
      rw [hsent, hat.sent] at hsent'
      obtain rfl : packet = packet' := by simpa using hsent'
      by_cases hall : ∀ i, 1 ≤ i → i ≤ seqLen → Uplinked payloads transferId seqLen i
      · exact absurd ((hreports.1 hall).inj hanswers).1 (by decide)
      · obtain ⟨reported, hanswers', hreported⟩ := hreports.2 hall
        rw [← (hanswers'.inj hanswers).2, hreported 0] at hzero
        exact absurd hzero.1 (by decide)
  · intro hall
    refine (ensures_assembleFile hreliable hstages hall hpos hlt ht hnames hwritable hat).imp ?_
    rintro _ h₂ ⟨disk', packet, hat', hanswers, -⟩
    refine ⟨packet, by rw [hat'.sent, hat.sent], fun _ => hanswers, fun hnot => ?_⟩
    exact absurd (fun i hfst hle => (hcomplete.mp hall i).mpr ⟨hfst, hle⟩) hnot

/-- Three chunks, the last one first, and twice. -/
def threeChunks : List Bytes :=
  [chunkPayload 3 3 [7], chunkPayload 1 3 [8, 9], chunkPayload 3 3 [7], chunkPayload 2 3 [1, 0]]

theorem reported_threeChunks : Ensures (uplinks plainEnv threeChunks) (fun _ h₁ =>
    ∀ raw text path, Names raw 5 text → Writable plainEnv h₁.disk text path →
    (Ensures (assembleFile plainEnv raw) (fun _ h₂ => ∃ packet, h₂.sent = h₁.sent ++ [packet] ∧
        ReportsMissing packet 5 3 (Uplinked threeChunks 5 3)) h₁ ↔
      ∀ i, Uplinked threeChunks 5 3 i ↔ 1 ≤ i ∧ i ≤ 3)) {} := by
  have haccepted : ∀ payload ∈ threeChunks, ∃ i data, i ≤ 3 ∧ Carries payload 5 (i, 3) data := by
    simp only [threeChunks, List.forall_mem_cons]
    exact ⟨⟨3, [7], by decide, 1, [7], rfl, rfl⟩, ⟨1, [8, 9], by decide, 2, [8, 9], rfl, rfl⟩,
      ⟨3, [7], by decide, 1, [7], rfl, rfl⟩, ⟨2, [1, 0], by decide, 2, [1, 0], rfl, rfl⟩, nofun⟩
  exact @reported_iff plainEnv {} 5 3 threeChunks (fun _ => rfl) (List.cons_ne_nil _ _)
    (by decide) (fun _ _ _ hnode => by cases hnode) (fun _ _ => AList.notMem_empty _) haccepted

/-- Of two chunks only the first one was uplinked: the assembly raises. -/
theorem not_reported_last : Ensures (uplinks plainEnv [chunkPayload 1 2 [7]]) (fun _ h₁ =>
    Names assemblePayload 5 (ascii "/a") ∧
    Writable plainEnv h₁.disk (ascii "/a") [ascii "a"] ∧
    ¬ Ensures (assembleFile plainEnv assemblePayload) (fun _ h₂ =>
      ∃ packet, h₂.sent = h₁.sent ++ [packet] ∧
        ReportsMissing packet 5 2 (Uplinked [chunkPayload 1 2 [7]] 5 2)) h₁) {} := by
  have hrun : endsIn (uplinks plainEnv [chunkPayload 1 2 [7]]) (fun h =>
      (!h.disk.isDir [ascii "a"] && h.disk.lookup [] = none) &&
        !endsIn (assembleFile plainEnv assemblePayload) (fun _ => true) h) {} = true := by
    decide +kernel
  refine (endsIn_iff.mp hrun).imp ?_
  intro _ h₁ hends
  rw [Bool.and_eq_true, Bool.and_eq_true, Bool.not_eq_true', decide_eq_true_eq,
    Bool.not_eq_true'] at hends
  refine ⟨names_assemblePayload, writable_assemblePayload hends.1.1 hends.1.2, fun hreports => ?_⟩
  have hall := endsIn_iff.mpr (hreports.imp fun _ _ _ => rfl)
  rw [hends.2] at hall
  exact Bool.noConfusion hall

end ClickA.Files
