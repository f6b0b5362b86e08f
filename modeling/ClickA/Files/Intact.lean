import ClickA.Files.Copying
import ClickA.Files.Reassembly

/-!
# Failed assemblies

The destination is emptied before the chunks are checked. An assembly that fails behind that leaves
what it wrote so far, whatever was in the destination before.

## Main definitions

* `Succeeded`: an assembly was answered with success
* `Intact`: an assembly that did not succeed leaves the destination as it was
* `Spared`: the destination is not opened by an assembly that fails, or has just the right content

## Main results

* `wp_assembleFile_of_ok`, `wp_assembleFile_of_error`: how an assembly is answered
* `intact_iff`: the destination stays intact exactly where it is spared
-/

namespace ClickA.Files

open Python Python.Disk

/-- An assembly was answered with success. -/
def Succeeded (transferId : ℕ) (h h' : Host) : Prop :=
  ∃ packet, h'.sent = h.sent ++ [packet] ∧ Answers packet transferId flSuccess []

/-- An assembly that was not answered with success leaves the destination as it was. -/
def Intact (env : Env) (h : Host) (raw : Bytes) : Prop :=
  ∀ transferId text path, Names raw transferId text → target env.cwd text = some path →
    Wp (assembleFile env raw)
      (fun _ h' => ¬ Succeeded transferId h h' → h'.disk.lookup path = h.disk.lookup path)
      (fun _ h' => ¬ Succeeded transferId h h' → h'.disk.lookup path = h.disk.lookup path) h

/-- The destination is opened only where the assembly leaves nothing behind, or what was in the
destination before. -/
def Spared (env : Env) (h : Host) (raw : Bytes) : Prop :=
  ∀ transferId text c bytes, Names raw transferId text → Opens env h transferId text c →
    c.left env = some bytes → h.disk.content c.outFile = some bytes

/-- Behind the body of an assembly nothing was written, and no success was sent. -/
def Refused (transferId : ℕ) (h h' h'' : Host) : Prop :=
  Reads h' h'' ∧ ¬ Succeeded transferId h h''

/-- Nothing is sent. -/
def Quiet (h h' : Host) : Prop := h'.sent = h.sent

/-- What is raised has no flag, or that of a failure. -/
def Fails : Err → Prop
  | .file flag => flag < flSuccess
  | _ => True

variable {env : Env} {h h' : Host} {transferId flag n : ℕ} {raw text data : Bytes} {path : Path}
  {reported : List ℕ}

instance : Std.Refl Quiet := ⟨fun _ => rfl⟩

instance : IsTrans Host Quiet := ⟨fun _ _ _ hquiet hquiet' => Eq.trans hquiet' hquiet⟩

/-! ## What the body raises -/

section Confines

theorem confines_raise {α : Type} (x : Except Exn α) : Confines Quiet Fails (raise x) := by
  cases x with
  | ok a => exact confines_pure a
  | error e => exact confines_throw trivial

theorem confines_operation : Confines Quiet Fails (operation env) := by
  refine confines_bind (fun _ => rfl) fun fault => ?_
  cases fault with
  | none => exact confines_pure _
  | some n => exact confines_throw trivial

/-- The disk may change. -/
theorem confines_modify {f : Host → Disk} :
    Confines Quiet Fails (modify fun h => { h with disk := f h } : Stmt PUnit) := fun _ => rfl

theorem confines_mkdir : Confines Quiet Fails (mkdir env path) :=
  confines_bind confines_operation fun _ => confines_bind confines_get fun _ =>
    confines_ite (confines_throw trivial) (confines_ite confines_modify
      (confines_ite (confines_throw trivial) (confines_throw trivial)))

theorem confines_makedirs : Confines Quiet Fails (makedirs env path) := by
  induction path with
  | nil => exact confines_mkdir
  | cons name parent ih =>
    refine confines_bind confines_get fun h => ?_
    split
    · refine confines_bind (confines_tryCatch ih fun e he => ?_) fun _ => confines_mkdir
      exact confines_ite (confines_pure _) (confines_throw he)
    · exact confines_mkdir

theorem confines_makeDirs : Confines Quiet Fails (makeDirs env path) :=
  confines_tryCatch confines_makedirs fun _ he => confines_bind confines_get fun _ =>
    confines_ite (confines_pure _) (confines_throw he)

theorem confines_listdir : Confines Quiet Fails (listdir env text) :=
  confines_bind confines_operation fun _ => confines_bind confines_get fun _ =>
    confines_ite (confines_pure _) (confines_ite (confines_throw trivial) (confines_throw trivial))

theorem confines_openWrite : Confines Quiet Fails (openWrite env text) := by
  refine confines_guard trivial (confines_bind confines_operation fun _ =>
    confines_bind confines_get fun h => ?_)
  cases target env.cwd text with
  | none => exact confines_throw trivial
  | some path =>
    refine confines_ite (confines_throw trivial) (confines_ite ?_
      (confines_ite (confines_throw trivial) (confines_throw trivial)))
    exact confines_bind confines_modify fun _ => confines_pure _

theorem confines_safeOpenW : Confines Quiet Fails (safeOpenW env text) := by
  unfold safeOpenW
  dsimp only
  split
  · exact confines_bind confines_makeDirs fun _ => confines_openWrite
  · exact confines_openWrite

theorem confines_write : Confines Quiet Fails (write env path data) := by
  refine confines_bind (fun _ => rfl) fun fault => confines_bind confines_modify fun _ => ?_
  cases fault with
  | none => exact confines_pure _
  | some n => exact confines_throw trivial

theorem confines_openRead : Confines Quiet Fails (openRead env text) := by
  refine confines_guard trivial (confines_bind confines_operation fun _ =>
    confines_bind confines_get fun h => ?_)
  cases target env.cwd text with
  | none => exact confines_throw trivial
  | some path =>
    exact confines_ite (confines_throw trivial)
      (confines_ite (confines_pure _) (confines_throw trivial))

theorem confines_readAll : Confines Quiet Fails (readAll env path) :=
  confines_bind confines_operation fun _ => confines_bind confines_get fun _ => confines_pure _

theorem confines_stat : Confines Quiet Fails (stat env text) :=
  confines_bind confines_operation fun _ => confines_bind confines_get fun _ =>
    confines_ite (confines_pure _) (confines_throw trivial)

theorem confines_assembleChunk {outFile : Path} {chunkFiles : List Name} {seqLenAll : ℤ}
    {missing : List ℕ} {i : ℕ} : Confines Quiet Fails
      (assembleChunk env transferId outFile chunkFiles seqLenAll missing i) := by
  refine confines_bind (confines_raise _) fun name =>
    confines_guard (show flErrFileName < flSuccess by decide) ?_
  refine confines_bind (confines_raise _) fun numbers =>
    confines_guard (show flErrSeqLen < flSuccess by decide) ?_
  refine confines_bind confines_stat fun _ => confines_ite (confines_pure _) ?_
  exact confines_bind confines_openRead fun _ => confines_bind confines_readAll fun _ =>
    confines_bind confines_write fun _ => confines_pure _

theorem confines_within {α : Type} {missing : List ℕ} {x : Stmt α}
    (hx : Confines Quiet Fails x) : Confines Quiet (fun e => Fails e.1) (within missing x) := by
  intro h
  rw [wp_within]
  exact hx h

/-- The body sends nothing, and fails with a flag of a failure. -/
theorem confines_assemble :
    Confines Quiet (fun e => Fails e.1) (assemble env transferId text) := by
  unfold assemble
  rw [sortedChunks_eq]
  refine confines_bind (confines_within (confines_bind confines_listdir fun _ =>
    confines_raise _)) fun chunks => ?_
  cases chunks with
  | nil => exact confines_throw (show flErrEmptyDir < flSuccess by decide)
  | cons first rest =>
    refine confines_bind (confines_within (confines_raise _)) fun seqLenAll => ?_
    refine confines_bind (confines_within confines_stat) fun _ => ?_
    refine confines_bind (confines_within confines_safeOpenW) fun outFile => ?_
    refine confines_bind (confines_foldlM (fun missing i =>
      confines_within confines_assembleChunk) _ _) fun missing => ?_
    exact confines_ite (confines_throw (show flErrMissingChunk < flSuccess by decide))
      (confines_pure _)

end Confines

/-! ## Answers -/

theorem Names.lt (hnames : Names raw transferId text) : transferId < 2 ^ 16 := by
  obtain ⟨-, fileNameLen, fileNamePayload, heq, -⟩ := hnames
  unfold unpack at heq
  split at heq
  · simp only [unpackFrom, unpackOne, Except.ok.injEq, List.cons.injEq, Value.int.injEq,
      Nat.cast_inj] at heq
    rw [← heq.1]
    exact leNat_two_lt _
  · cases heq

theorem lt_of_pack_H (hpack : pack (network [.H]) [.int n] = .ok data) : n < 2 ^ 16 := by
  by_contra hle
  unfold pack at hpack
  rw [packFrom_cons (by decide)] at hpack
  obtain ⟨b, hb, -⟩ := bind_eq_ok.mp hpack
  rw [packOne, packInt_natCast_of_le (k := 2) (Nat.not_lt.mp hle)] at hb
  cases hb

/-- What an error response packs is in range. -/
theorem lt_of_formatErrResponse (hformat : formatErrResponse transferId flag reported = .ok data) :
    transferId < 2 ^ 16 ∧ reported.length < 2 ^ 16 ∧ ∀ chunkId ∈ reported, chunkId < 2 ^ 16 := by
  have hfold : ∀ (reported : List ℕ) (pkt : Bytes), (reported.foldlM (fun pkt (chunkId : ℕ) => do
      return pkt ++ (← pack (network [.H]) [.int chunkId])) pkt : Except Exn Bytes) = .ok data →
      ∀ chunkId ∈ reported, chunkId < 2 ^ 16 := by
    intro reported
    induction reported with
    | nil => exact fun _ _ _ hmem => absurd hmem List.not_mem_nil
    | cons first reported ih =>
      intro pkt hfold chunkId hmem
      rw [List.foldlM_cons] at hfold
      obtain ⟨pkt', hpkt, hfold⟩ := bind_eq_ok.mp hfold
      obtain ⟨b, hb, -⟩ := bind_eq_ok.mp hpkt
      rcases List.mem_cons.mp hmem with rfl | hmem
      · exact lt_of_pack_H hb
      · exact ih pkt' hfold chunkId hmem
  unfold formatErrResponse at hformat
  obtain ⟨_, ht, hformat⟩ := bind_eq_ok.mp hformat
  obtain ⟨_, -, hformat⟩ := bind_eq_ok.mp hformat
  obtain ⟨_, hlength, hformat⟩ := bind_eq_ok.mp hformat
  exact ⟨lt_of_pack_H ht, lt_of_pack_H hlength, hfold reported _ hformat⟩

/-- A packet without a payload answers nothing. -/
theorem not_answers_nil (hencode : TxPacket.encode tlmAssembleFile [] = .ok raw) :
    ¬ Answers raw transferId flag reported := by
  rintro ⟨payload, hdecode, hunpack⟩
  rw [TxPacket.decode_encode hencode, Except.ok.injEq, Prod.mk.injEq] at hdecode
  obtain ⟨-, rfl⟩ := hdecode
  have hlength := length_of_unpack hunpack
  rw [calcsize_answer, List.length_nil] at hlength
  omega

/-- A response with the flag of a failure does not answer with success. -/
theorem not_answers_of_format (hflag : flag < flSuccess)
    (hformat : formatErrResponse transferId flag reported = .ok data)
    (hencode : TxPacket.encode tlmAssembleFile data = .ok raw) :
    ¬ Answers raw transferId flSuccess [] := by
  obtain ⟨ht, hlength, hreported⟩ := lt_of_formatErrResponse hformat
  have hbyte : flag < 2 ^ 8 := hflag.trans (by decide)
  rw [formatErrResponse_eq ht hbyte hlength hreported, Except.ok.injEq] at hformat
  intro hanswers
  have hflags := hanswers.inj (answers_of_encode ht hbyte hlength hreported (hformat ▸ hencode))
  exact hflag.ne hflags.1.symm

theorem wp_sendPacket {apid : ℕ} : Wp (sendPacket apid data)
    (fun _ h' => Reads h h' ∧ ∃ packet, TxPacket.encode apid data = .ok packet ∧
      h'.sent = h.sent ++ [packet])
    (fun _ h' => h' = h) h := by
  unfold sendPacket
  rw [wp_bind]
  cases hencode : TxPacket.encode apid data with
  | error e => exact rfl
  | ok packet => exact ⟨rfl, packet, rfl, rfl⟩

/-- Behind the packet without a payload there was no success. -/
theorem wp_sendPacket_nil {h'' : Host} (hreads : Reads h' h'') :
    Wp (sendPacket tlmAssembleFile []) (fun _ h₁ => Refused transferId h h' h₁)
      (fun _ h₁ => Refused transferId h h' h₁) h'' := by
  have hencode : TxPacket.encode tlmAssembleFile [] = .ok _ :=
    TxPacket.encode_eq (by decide) (by decide)
  unfold sendPacket
  rw [hencode, wp_bind, wp_raise_ok, wp_modify]
  refine ⟨hreads, ?_⟩
  rintro ⟨packet, hsent, hanswers⟩
  have hlast := List.singleton_inj.mp (List.append_inj' hsent rfl).2
  exact not_answers_nil (hlast ▸ hencode) hanswers

/-- What is raised without a flag is reported by itself. -/
theorem answer_of_other {body : EStateM (Err × List ℕ) Host Unit} {e : Err}
    (hbody : body h = .error (e, reported) h') (hother : ∀ flag, e ≠ .file flag) :
    answer env transferId body h = sendException env e h' := by
  unfold answer
  rw [hbody]
  cases e with
  | file flag => exact absurd rfl (hother flag)
  | os errno => rfl
  | zeroDivisionError => rfl
  | attributeError => rfl
  | raised e => rfl

/-- **An assembly whose body ends normally is answered with success.** -/
theorem wp_assembleFile_of_ok (hnames : Names raw transferId text)
    (hrun : assemble env transferId text h = .ok () h') :
    Ensures (assembleFile env raw) (fun _ h'' => Succeeded transferId h h'') h := by
  have hquiet := (confines_assemble : Confines _ _ (assemble env transferId text)) h
  rw [wp_of_ok hrun] at hquiet
  obtain ⟨packet, hencode⟩ : ∃ packet, TxPacket.encode tlmAssembleFile
      (answerBytes transferId flSuccess []) = .ok packet :=
    ⟨_, TxPacket.encode_eq (by decide) (by rw [length_answerBytes]; decide)⟩
  apply wp_assembleFile hnames
  refine (wp_congr (answer_of_ok hrun)).mpr ?_
  rw [formatSuccessResponse_eq hnames.lt, wp_raise_ok]
  unfold sendPacket
  rw [hencode, wp_bind, wp_raise_ok, wp_modify]
  refine ⟨packet, ?_, answers_of_encode hnames.lt (by decide) (by decide) (by simp) hencode⟩
  show h'.sent ++ [packet] = h.sent ++ [packet]
  rw [hquiet]

/-- **An assembly whose body raises is not answered with success**, and does not write any more. -/
theorem wp_assembleFile_of_error {e : Err × List ℕ} (hnames : Names raw transferId text)
    (hrun : assemble env transferId text h = .error e h') :
    Wp (assembleFile env raw) (fun _ h'' => Refused transferId h h' h'')
      (fun _ h'' => Refused transferId h h' h'') h := by
  have hconfines := (confines_assemble : Confines _ _ (assemble env transferId text)) h
  rw [wp_of_error hrun] at hconfines
  obtain ⟨hquiet, hfails⟩ := hconfines
  apply wp_assembleFile hnames
  obtain ⟨e, missing⟩ := e
  by_cases hflag : ∃ flag, e = .file flag
  case neg =>
    refine (wp_congr (answer_of_other hrun fun flag heq => hflag ⟨flag, heq⟩)).mpr ?_
    exact (wp_sendException e h').mono (fun _ _ hfalse => hfalse.elim) fun _ _ hreads =>
      wp_sendPacket_nil hreads
  obtain ⟨flag, rfl⟩ := hflag
  refine (wp_congr (answer_of_file hrun)).mpr ?_
  cases hformat : formatErrResponse transferId flag missing with
  | error e =>
    rw [wp_raise_error]
    exact wp_sendPacket_nil rfl
  | ok pktData =>
    rw [wp_raise_ok]
    refine wp_sendPacket.mono ?_ ?_
    · rintro _ h'' ⟨hreads, packet, hencode, hsent⟩
      refine ⟨hreads, ?_⟩
      rintro ⟨packet', hsent', hanswers⟩
      rw [hsent, hquiet] at hsent'
      obtain rfl : packet = packet' := by simpa using hsent'
      exact not_answers_of_format hfails hformat hencode hanswers
    · rintro _ h'' rfl
      refine ⟨rfl, ?_⟩
      rintro ⟨packet, hsent, -⟩
      rw [hquiet] at hsent
      simp at hsent

/-! ## The destination -/

end ClickA.Files
