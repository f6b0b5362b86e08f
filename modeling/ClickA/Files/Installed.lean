import ClickA.Files.Moved
import ClickA.Files.Reassembly

/-!
# Installed files

`auto_assemble_file` puts a file together, checks its digest, moves it and removes the staging
folder. No command passes a result to the next one: what keeps a file with another digest away from
its destination is that a failure is raised.

## Main definitions

* `Requests`: the payload of a command asks for an automatic assembly
* `Tree`: the paths of a disk lead from directory to directory
* `Holds`: a file has a digest
* `Halfway`: the file that was checked is still in the staging folder, and a begin of it elsewhere

## Main results

* `touches_assembleFile`, `wp_validateFile`, `wp_moveFile`, `wp_delFile`: what each command leaves
* `installed`: what is at the destination, and in the staging folder, behind the commands
-/

namespace ClickA.Files

open Python Python.Disk

/-- The payload of a command asks for an automatic assembly: the transfer, the digest and the
destination. -/
def Requests (raw : Bytes) (transferId : ℕ) (fileHash dest : Bytes) : Prop :=
  ∃ (destFileNameLen : ℕ) (destFileNamePayload : Bytes),
    unpackAutoAssemble raw = .ok (transferId, fileHash, destFileNameLen, destFileNamePayload) ∧
    destFileNamePayload.take destFileNameLen = dest

/-- The paths of the disk lead from directory to directory, by plain names. -/
structure Tree (disk : Disk) : Prop where
  parent : ∀ path ∈ disk.keys, disk.isDir path.tail = true
  named : ∀ path ∈ disk.keys, ∀ name ∈ path.head?, plain name = true ∧ slash ∉ name

/-- The path of the file that a transfer is put together in. -/
def tempPath (transferId : ℕ) : Path := tempName :: stagingPath transferId

/-- A file has a digest. -/
def Holds (disk : Disk) (path : Path) (fileHash : Bytes) : Prop :=
  ∃ content, disk.content path = some content ∧ md5 content = fileHash

/-- The file that was checked is still in the staging folder, and a begin of it is elsewhere. -/
def Halfway (disk : Disk) (transferId : ℕ) (path : Path) (fileHash : Bytes) : Prop :=
  ∃ content written, disk.content (tempPath transferId) = some content ∧ md5 content = fileHash ∧
    disk.content path = some written ∧ written <+: content

/-- Nothing was done but to put a file together, and to move it. -/
abbrev Works (transferId : ℕ) (path : Path) (h h' : Host) : Prop :=
  Touches (fun p => p = tempPath transferId ∨ p = path) h h'

/-- The file is at its destination. -/
structure Placed (transferId : ℕ) (path : Path) (fileHash : Bytes) (h h' : Host) : Prop where
  holds : Holds h'.disk path fileHash
  beside : Works transferId path h h'

/-- The file is not at its destination. -/
structure Unplaced (transferId : ℕ) (path : Path) (fileHash : Bytes) (h h' : Host) : Prop where
  kept : h'.disk.lookup path = h.disk.lookup path ∨ Halfway h'.disk transferId path fileHash
  beside : Works transferId path h h'

variable {env : Env} {h h' : Host} {disk : Disk} {raw text src dst dest fileHash content : Bytes}
  {path outFile : Path} {transferId n : ℕ} {touched : Path → Prop}

/-! ## Assembly -/

theorem keeps_within {α : Type} {R : Host → Host → Prop} {x : Stmt α} (hx : Keeps R x)
    (missing : List ℕ) : Keeps R (within missing x) := fun h => by
  rw [wp_within]
  exact hx h

theorem target_tempFileName {cwd : Path} :
    target cwd (tempFileName transferId) = some (tempPath transferId) :=
  target_staging (by decide) (by decide)

theorem rstripSlash_tempFileName :
    rstripSlash (tempFileName transferId) = tempFileName transferId := by
  apply rstripSlash_of_getLast?
  unfold tempFileName
  rw [List.getLast?_append_of_ne_nil _ (by decide)]
  decide

theorem getLast?_stagingText : (stagingText transferId).getLast? ≠ some slash := by
  unfold stagingText
  rw [List.getLast?_append_of_ne_nil _ (str_ne_nil transferId)]
  exact fun hlast => not_mem_str rfl (List.mem_of_getLast? hlast)

/-- Chunks are sorted of a directory that is there. -/
theorem wp_sortedChunks : Wp (sortedChunks env transferId)
    (fun _ h' => Reads h h' ∧ h.disk.isDir (stagingPath transferId) = true)
    (fun _ h' => Reads h h') h := by
  unfold sortedChunks
  rw [wp_bind]
  refine wp_listdir.mono ?_ fun _ _ hreads => hreads
  rintro names h₁ ⟨hreads, hdir, -⟩
  rw [resolve_stagingDir] at hdir
  apply wp_reads_bind (reads_raise _)
  · intro keyed h₂ hreads'
    exact ⟨hreads.trans hreads', hdir⟩
  · exact fun _ _ hreads' => hreads.trans hreads'

/-- A turn of the loop writes nothing but the file that is put together. -/
theorem touches_assembleChunk (chunkFiles : List Name) (seqLenAll : ℤ) (missing : List ℕ) (i : ℕ) :
    Keeps (Touches (· = outFile))
      (assembleChunk env transferId outFile chunkFiles seqLenAll missing i) := by
  have htouches {α : Type} {x : Stmt α} (hx : Keeps Reads x) : Keeps (Touches (· = outFile)) x :=
    hx.imp fun _ _ hreads => hreads.touches
  unfold assembleChunk
  apply keeps_bind (htouches (reads_raise _))
  intro name
  apply keeps_guard
  apply keeps_bind (htouches (reads_raise _))
  rintro ⟨seqNum, seqLen⟩
  apply keeps_guard
  apply keeps_bind (htouches reads_stat)
  intro _
  apply keeps_ite (keeps_pure _)
  apply keeps_bind (htouches reads_openRead)
  intro chunk
  apply keeps_bind (htouches reads_readAll)
  intro data
  exact keeps_bind (touches_write rfl) fun _ => keeps_pure _

/-- To open the file in the staging folder, which is there, nothing else is touched. -/
theorem wp_safeOpenW_temp (hdir : h.disk.isDir (stagingPath transferId) = true)
    (hparent : h.disk.isDir (stagingPath transferId).tail = true) :
    Wp (safeOpenW env (tempFileName transferId))
      (fun outFile h' => outFile = tempPath transferId ∧ Touches (· = tempPath transferId) h h')
      (fun _ h' => Touches (· = tempPath transferId) h h') h := by
  have hdirname : dirname (tempFileName transferId) = stagingText transferId :=
    dirname_staging (by decide)
  unfold safeOpenW
  dsimp only
  rw [hdirname, if_pos stagingText_ne_nil, resolve_stagingText, wp_bind]
  refine (wp_makeDirs_of_isDir hdir hparent).mono ?_ fun _ _ hreads => hreads.touches
  intro _ h₁ hreads
  refine wp_openWrite.mono ?_ fun _ _ hreads' => (hreads.trans hreads').touches
  rintro outFile h₂ ⟨htarget, hput⟩
  obtain rfl : outFile = tempPath transferId :=
    Option.some.inj (htarget.symm.trans target_tempFileName)
  exact ⟨rfl, hreads.touches.trans (touches_put hput rfl)⟩

/-- The answer writes nothing but what its body did. -/
theorem wp_answer {body : EStateM (Err × List ℕ) Host Unit}
    (hbody : Wp body (fun _ h' => Touches touched h h') (fun _ h' => Touches touched h h') h) :
    Wp (answer env transferId body) (fun _ h' => Touches touched h h')
      (fun _ h' => Touches touched h h') h := by
  have hbehind {x : Stmt Bytes} {h₁ : Host} (hx : Keeps Reads x) (htouches : Touches touched h h₁) :
      Wp x (fun _ h' => Touches touched h h') (fun _ h' => Touches touched h h') h₁ :=
    (hx.imp fun _ _ hreads => hreads.touches).trans htouches
  cases hrun : body h with
  | ok _ h₁ =>
    rw [wp_of_ok hrun] at hbody
    refine (wp_congr (answer_of_ok hrun)).mpr ?_
    generalize formatSuccessResponse transferId = x
    exact hbehind (reads_raise x) hbody
  | error failure h₁ =>
    obtain ⟨e, missing⟩ := failure
    rw [wp_of_error hrun] at hbody
    have hsend (hne : ∀ flag, e ≠ .file flag) :
        answer env transferId body h = sendException env e h₁ := by
      unfold answer
      rw [hrun]
      cases e with
      | file flag => exact absurd rfl (hne flag)
      | os n => rfl
      | zeroDivisionError => rfl
      | attributeError => rfl
      | raised e => rfl
    by_cases hfile : ∃ flag, e = .file flag
    · obtain ⟨flag, rfl⟩ := hfile
      refine (wp_congr (answer_of_file hrun)).mpr ?_
      generalize formatErrResponse transferId flag missing = x
      exact hbehind (reads_raise x) hbody
    · refine (wp_congr (hsend fun flag heq => hfile ⟨flag, heq⟩)).mpr ?_
      exact hbehind (reads_sendException e) hbody

/-- The file is put together in its own place. -/
theorem touches_assemble (htree : Tree h.disk) :
    Wp (assemble env transferId (tempFileName transferId))
      (fun _ h' => Touches (· = tempPath transferId) h h')
      (fun _ h' => Touches (· = tempPath transferId) h h') h := by
  unfold assemble
  rw [wp_bind, wp_within]
  refine wp_sortedChunks.mono ?_ fun _ _ hreads => hreads.touches
  rintro chunks h₁ ⟨hreads, hdir⟩
  cases chunks with
  | nil => exact hreads.touches
  | cons first rest =>
    dsimp only
    rw [wp_bind, wp_within]
    refine ((reads_raise _).trans hreads).mono ?_ fun _ _ hreads => hreads.touches
    intro seqLenAll h₂ hreads
    rw [wp_bind, wp_within]
    refine (reads_stat.trans hreads).mono ?_ fun _ _ hreads => hreads.touches
    intro _ h₃ hreads
    have hparent : h₃.disk.isDir (stagingPath transferId).tail = true := by
      have hmem : stagingPath transferId ∈ h.disk.keys := by
        have hlookup : h.disk.lookup (stagingPath transferId) = some .dir := by
          unfold Disk.isDir at hdir
          exact of_decide_eq_true hdir
        exact AList.mem_keys.mp (AList.lookup_isSome.mp (Option.isSome_of_eq_some hlookup))
      rw [hreads]
      exact htree.parent _ hmem
    rw [wp_bind, wp_within]
    refine (wp_safeOpenW_temp (by rw [hreads]; exact hdir) hparent).mono ?_ ?_
    · rintro _ h₄ ⟨rfl, htouches⟩
      have htouches := hreads.touches.trans htouches
      rw [wp_bind]
      refine ((keeps_foldlM (fun missing i => keeps_within (touches_assembleChunk _ _ _ _) missing)
        _
        _).trans htouches).mono ?_ fun _ _ htouches => htouches
      intro missing h₅ htouches
      split
      · exact htouches
      · exact htouches
    · exact fun _ _ htouches => hreads.touches.trans htouches

/-- **An assembly writes nothing but the file that it puts together**, however it ends. -/
theorem touches_assembleFile (htree : Tree h.disk)
    (hnames : Names raw transferId (tempFileName transferId)) :
    Wp (assembleFile env raw) (fun _ h' => Touches (· = tempPath transferId) h h')
      (fun _ h' => Touches (· = tempPath transferId) h h') h := by
  apply wp_assembleFile hnames
  have hsend (payload : Bytes) : Keeps (Touches (· = tempPath transferId))
      (sendPacket tlmAssembleFile payload) :=
    (reads_sendPacket _ payload).imp fun _ _ hreads => hreads.touches
  refine (wp_answer (touches_assemble htree)).mono ?_ ?_
  · exact fun pktData h₁ htouches => (hsend pktData).trans htouches
  · exact fun _ h₁ htouches => (hsend []).trans htouches

/-! ## Validation -/

/-- **Only a file with the digest passes.** -/
theorem wp_validateFile {fileNameLen : ℕ} {fileNamePayload : Bytes}
    (hunpack : unpackValidate raw = .ok (fileHash, fileNameLen, fileNamePayload))
    (htarget : target env.cwd (fileNamePayload.take fileNameLen) = some path) :
    Wp (validateFile env raw) (fun _ h' => Reads h h' ∧ Holds h.disk path fileHash)
      (fun _ h' => Reads h h') h := by
  unfold validateFile
  rw [hunpack, wp_bind, wp_raise_ok, wp_tryCatch]
  have hsend {e : Err} {h₁ : Host} (hreads : Reads h h₁) : Wp (sendException env e : Stmt Unit)
      (fun _ h' => Reads h h' ∧ Holds h.disk path fileHash) (fun _ h' => Reads h h') h₁ :=
    (wp_sendException e h₁).mono (fun _ _ hfalse => hfalse.elim)
      fun _ _ hreads' => hreads.trans hreads'
  rw [wp_bind]
  refine wp_openRead.mono ?_ fun _ _ => hsend
  rintro path' h₁ ⟨hreads, htarget', content, hcontent⟩
  obtain rfl : path = path' := Option.some.inj (htarget.symm.trans htarget')
  rw [wp_bind]
  refine (wp_hashFile (by rw [hreads, hcontent])).mono ?_ fun _ _ hreads' =>
    hsend (hreads.trans hreads')
  rintro checkHash h₂ ⟨hreads', rfl⟩
  have hreads := hreads.trans hreads'
  split
  · exact hsend hreads
  · rename_i hhash
    exact ⟨hreads, content, hcontent, not_not.mp hhash⟩

/-! ## Commands that are packed -/

theorem names_of_pack (hpack : pack (network [.H, .H, .s text.length])
    [.int transferId, .int text.length, .str text] = .ok raw) : Names raw transferId text := by
  have hlength := length_of_pack hpack
  have hsize : calcsize (network [.H, .H, .s text.length]) = 4 + text.length := by
    simp [calcsize, endFrom, gap, Code.size]
  have hrest : raw.length - 4 = text.length := by omega
  refine ⟨by omega, text.length, text, ?_, List.take_length⟩
  rw [hrest]
  exact unpack_pack (.cons (exact_int 2 _) (.cons (exact_int 2 _) (.cons (exact_str rfl) .nil)))
    hpack

theorem unpackValidate_of_pack (hhash : fileHash.length = 16)
    (hpack : pack (network [.s 16, .H, .s text.length])
      [.str fileHash, .int text.length, .str text] = .ok raw) :
    unpackValidate raw = .ok (fileHash, text.length, text) := by
  have hlength := length_of_pack hpack
  have hsize : calcsize (network [.s 16, .H, .s text.length]) = 18 + text.length := by
    simp [calcsize, endFrom, gap, Code.size]
  have hrest : raw.length - 18 = text.length := by omega
  have hunpack : unpack (network [.s 16, .H, .s (raw.length - 18)]) raw =
      .ok [.str fileHash, .int text.length, .str text] := by
    rw [hrest]
    exact unpack_pack (.cons (exact_str hhash) (.cons (exact_int 2 _) (.cons (exact_str rfl) .nil)))
      hpack
  unfold unpackValidate
  rw [if_neg (by omega), hunpack]
  rfl

/-- What is packed of a text, with as many bytes as a number says. -/
def padded (size : ℕ) (text : Bytes) : Bytes :=
  text.take size ++ List.replicate (size - text.length) 0

theorem length_padded (size : ℕ) (text : Bytes) : (padded size text).length = size := by
  unfold padded
  rw [List.length_append, List.length_take, List.length_replicate]
  omega

theorem unpackMove_of_pack (hpack : pack (network [.H, .H, .s src.length, .s n])
    [.int src.length, .int n, .str src, .str dest] = .ok raw) :
    unpackMove raw = .ok (src.length, n, src ++ padded n dest) := by
  have hpack' : pack (network [.H, .H, .s (src.length + n)])
      [.int src.length, .int n, .str (src ++ padded n dest)] = .ok raw := by
    rw [← hpack]
    unfold pack
    rw [packFrom_cons (by decide), packFrom_cons (by decide), packFrom_cons (by simp),
      packFrom_cons (by decide), packFrom_cons (by decide), packFrom_cons (by simp),
      packFrom_cons (by simp)]
    have hsrc : packOne false (.s src.length) (.str src) = .ok src := by
      simp [packOne]
    have hdest : packOne false (.s n) (.str dest) = .ok (padded n dest) := rfl
    have hboth : packOne false (.s (src.length + n)) (.str (src ++ padded n dest)) =
        .ok (src ++ padded n dest) := by
      have hlength : (src ++ padded n dest).length = src.length + n := by
        rw [List.length_append, length_padded]
      simp [packOne, hlength, List.take_of_length_le hlength.le]
    rw [hsrc, hdest, hboth]
    simp [packFrom, gap]
  have hlength := length_of_pack hpack'
  have hsize : calcsize (network [.H, .H, .s (src.length + n)]) = 4 + (src.length + n) := by
    simp [calcsize, endFrom, gap, Code.size]
  have hrest : raw.length - 4 = src.length + n := by omega
  have hunpack : unpack (network [.H, .H, .s (raw.length - 4)]) raw =
      .ok [.int src.length, .int n, .str (src ++ padded n dest)] := by
    rw [hrest]
    exact unpack_pack (.cons (exact_int 2 _) (.cons (exact_int 2 _) (.cons (exact_str
      (by rw [List.length_append, length_padded])) .nil))) hpack'
  unfold unpackMove
  rw [if_neg (by omega), hunpack]
  rfl

theorem unpackDel_of_pack (hpack : pack (network [.B, .H, .s text.length])
    [.int 0xFF, .int text.length, .str text] = .ok raw) :
    unpackDel raw = .ok (0xFF, text.length, text) := by
  have hlength := length_of_pack hpack
  have hsize : calcsize (network [.B, .H, .s text.length]) = 3 + text.length := by
    simp [calcsize, endFrom, gap, Code.size]
  have hrest : raw.length - 3 = text.length := by omega
  have hunpack : unpack (network [.B, .H, .s (raw.length - 3)]) raw =
      .ok [.int 0xFF, .int text.length, .str text] := by
    rw [hrest]
    exact unpack_pack (.cons (exact_int 1 _) (.cons (exact_int 2 _) (.cons (exact_str rfl) .nil)))
      hpack
  unfold unpackDel
  rw [if_neg (by omega), hunpack]
  rfl

/-! ## Move and removal -/

/-- A text with a zero byte is no path. -/
theorem wp_move_of_nul (hnul : dest.contains 0 = true) :
    Wp (move env src dest) (fun _ _ => False) (fun _ h' => Reads h h') h := by
  have hisdir : Wp (isdir env dest) (fun _ _ => False) (fun _ h' => Reads h h') h := by
    unfold isdir attempt statPath
    rw [wp_tryCatch, wp_bind]
    dsimp only
    rw [if_pos hnul]
    exact rfl
  unfold move
  rw [wp_bind, wp_os]
  exact hisdir.mono (fun _ _ hfalse => hfalse.elim) fun _ _ hreads => hreads

/-- **The file is moved**, or at the destination there is what was there or a begin of the file. -/
theorem wp_moveFile (hunpack : unpackMove raw =
      .ok ((tempFileName transferId).length, n, tempFileName transferId ++ padded n dest))
    (hcontent : h.disk.content (tempPath transferId) = some content)
    (hne : tempPath transferId ≠ resolve env.cwd dest)
    (hdir : h.disk.isDir (resolve env.cwd dest) = false) (hlength : dest.length ≤ n) :
    Wp (moveFile env raw)
      (fun _ h' => Moved (tempPath transferId) (resolve env.cwd dest) content h h')
      (fun _ h' => Broken (resolve env.cwd dest) content h h') h := by
  have hmove : Wp (move env (tempFileName transferId) (padded n dest))
      (fun _ h' => Moved (tempPath transferId) (resolve env.cwd dest) content h h')
      (fun _ h' => Broken (resolve env.cwd dest) content h h') h := by
    -- a name that is shorter than its field is padded, and a path with a null byte is refused
    by_cases hshort : dest.length < n
    · have hnul : (padded n dest).contains 0 = true := by
        unfold padded
        simp [List.mem_replicate]
        omega
      exact (wp_move_of_nul hnul).mono (fun _ _ hfalse => hfalse.elim) fun _ _ hreads =>
        hreads.broken
    · have hpadded : padded n dest = dest := by
        unfold padded
        rw [List.take_of_length_le hlength, show n - dest.length = 0 by omega,
          List.replicate_zero, List.append_nil]
      rw [hpadded]
      exact wp_move target_tempFileName rstripSlash_tempFileName hcontent hne hdir
  unfold moveFile
  rw [hunpack, wp_bind, wp_raise_ok]
  dsimp only
  rw [List.take_left, List.drop_left, List.take_of_length_le (length_padded n dest).le]
  exact wp_guarded hmove fun _ _ => Broken.reads

/-- **The staging folder is removed**, or a part of it, and nothing else. -/
theorem wp_delFile (hunpack : unpackDel raw =
      .ok (0xFF, (stagingText transferId).length, stagingText transferId))
    (hplain : PlainBelow (stagingPath transferId) h.disk) :
    Wp (delFile env raw) (fun _ h' => Removes (stagingPath transferId) h h')
      (fun _ h' => Removes (stagingPath transferId) h h') h := by
  have hrmtree (fuel : ℕ) : Wp (rmtree env fuel (stagingText transferId))
      (fun _ h' => Removes (stagingPath transferId) h h')
      (fun _ h' => Removes (stagingPath transferId) h h') h := by
    apply removes_rmtree fuel stagingText_ne_nil getLast?_stagingText _ hplain
    exact ⟨[], resolve_stagingText.symm⟩
  unfold delFile
  rw [hunpack, wp_bind, wp_raise_ok]
  dsimp only
  rw [wp_tryCatch, if_pos rfl, wp_bind, wp_get, List.take_length]
  refine (hrmtree _).mono (fun _ _ hremoves => hremoves) ?_
  intro e h₁ hremoves
  exact (wp_sendException e h₁).mono (fun _ _ hfalse => hfalse.elim) fun _ _ hreads =>
    trans_of (Removes _) hremoves hreads.removes

/-! ## The commands together -/

attribute [local irreducible] pack

theorem length_of_requests (hrequests : Requests raw transferId fileHash dest) :
    fileHash.length = 16 := by
  obtain ⟨destFileNameLen, destFileNamePayload, hunpack, -⟩ := hrequests
  unfold unpackAutoAssemble at hunpack
  split at hunpack
  · cases hunpack
  · rename_i hlong
    obtain ⟨values, hvalues, hmatch⟩ := bind_eq_ok.mp hunpack
    unfold unpack at hvalues
    split at hvalues
    · obtain rfl := Except.ok.inj hvalues
      simp only [unpackFrom, unpackOne, gap, Code.size, Bool.false_eq_true, if_false, pure_eq_ok,
        Except.ok.injEq, Prod.mk.injEq] at hmatch
      rw [← hmatch.2.1]
      simp only [List.length_take, List.length_drop]
      omega
    · cases hvalues

theorem Unplaced.of_touches (hne : path ≠ tempPath transferId)
    (htouches : Touches (· = tempPath transferId) h h') :
    Unplaced transferId path fileHash h h' where
  kept := .inl (htouches path hne)
  beside := fun p hp => htouches p fun heq => hp (.inl heq)

/-- A file that was checked is moved to its destination, or it is still there. -/
theorem wp_moveFile_of_holds {h₁ : Host} (htouches : Touches (· = tempPath transferId) h h₁)
    (hholds : Holds h₁.disk (tempPath transferId) fileHash)
    (hunpack : unpackMove raw =
      .ok ((tempFileName transferId).length, n, tempFileName transferId ++ padded n dest))
    (hne : resolve env.cwd dest ≠ tempPath transferId)
    (hdir : h.disk.isDir (resolve env.cwd dest) = false) (hlength : dest.length ≤ n) :
    Wp (moveFile env raw) (fun _ h' => Placed transferId (resolve env.cwd dest) fileHash h h')
      (fun _ h' => Unplaced transferId (resolve env.cwd dest) fileHash h h') h₁ := by
  obtain ⟨content, hcontent, hmd5⟩ := hholds
  have hbeside : Works transferId (resolve env.cwd dest) h h₁ := fun p hp =>
    htouches p fun heq => hp (.inl heq)
  refine (wp_moveFile hunpack hcontent hne.symm (by rw [htouches.isDir_eq hne, hdir])
    hlength).mono ?_ ?_
  · intro _ h₂ hmoved
    exact ⟨⟨content, hmoved.there, hmd5⟩, hbeside.trans hmoved.beside⟩
  · intro _ h₂ hbroken
    have hbroken' : Works transferId (resolve env.cwd dest) h₁ h₂ := fun p hp =>
      hbroken.beside p fun heq => hp (.inr heq)
    refine ⟨?_, hbeside.trans hbroken'⟩
    rcases hbroken.begun with hsame | ⟨written, hwritten, hbegin⟩
    · exact .inl (hsame.trans (htouches _ hne))
    · refine .inr ⟨content, written, ?_, hmd5, hwritten, hbegin⟩
      rw [hbroken.beside.content_eq hne.symm, hcontent]

/-- What the commands up to the move leave. -/
theorem wp_autoMoveFile (htree : Tree h.disk) (hrequests : Requests raw transferId fileHash dest)
    (houtside : ¬ stagingPath transferId <:+ resolve env.cwd dest)
    (hdir : h.disk.isDir (resolve env.cwd dest) = false) :
    Wp (autoMoveFile env raw)
      (fun t h' => t = transferId ∧ Placed transferId (resolve env.cwd dest) fileHash h h')
      (fun _ h' => Unplaced transferId (resolve env.cwd dest) fileHash h h') h := by
  have hhash := length_of_requests hrequests
  obtain ⟨destFileNameLen, destFileNamePayload, hunpack, rfl⟩ := hrequests
  generalize hdest : destFileNamePayload.take destFileNameLen = dest at houtside hdir
  have hlength : dest.length ≤ destFileNameLen := by
    rw [← hdest]
    exact List.length_take_le _ _
  have hne : resolve env.cwd dest ≠ tempPath transferId := by
    intro heq
    exact houtside (heq ▸ List.suffix_cons tempName _)
  have hfails {h' : Host} (htouches : Touches (· = tempPath transferId) h h') :
      Unplaced transferId (resolve env.cwd dest) fileHash h h' := .of_touches hne htouches
  unfold autoMoveFile
  rw [hunpack, wp_bind, wp_raise_ok]
  dsimp only
  rw [hdest, wp_bind]
  cases hassemble : pack (network [.H, .H, .s (tempFileName transferId).length])
      [.int transferId, .int (tempFileName transferId).length, .str (tempFileName transferId)] with
  | error e =>
    rw [wp_raise_error]
    exact hfails (refl_of (Touches _) h)
  | ok assembleCmd =>
    rw [wp_raise_ok, wp_bind]
    refine (touches_assembleFile htree (names_of_pack hassemble)).mono ?_ fun _ _ => hfails
    intro _ h₁ htouches
    rw [wp_bind]
    cases hvalidate : pack (network [.s 16, .H, .s (tempFileName transferId).length])
        [.str fileHash, .int (tempFileName transferId).length, .str (tempFileName transferId)] with
    | error e =>
      rw [wp_raise_error]
      exact hfails htouches
    | ok validateCmd =>
      have htarget : target env.cwd ((tempFileName transferId).take
          (tempFileName transferId).length) = some (tempPath transferId) := by
        rw [List.take_length, target_tempFileName]
      rw [wp_raise_ok, wp_bind]
      refine (wp_validateFile (unpackValidate_of_pack hhash hvalidate) htarget).mono ?_
        fun _ _ hreads => hfails (htouches.trans hreads.touches)
      intro _ h₂ hends
      have htouches := htouches.trans hends.1.touches
      rw [wp_bind]
      cases hmove : pack (network [.H, .H, .s (tempFileName transferId).length,
          .s destFileNameLen]) [.int (tempFileName transferId).length, .int destFileNameLen,
          .str (tempFileName transferId), .str dest] with
      | error e =>
        rw [wp_raise_error]
        exact hfails htouches
      | ok moveCmd =>
        rw [wp_raise_ok, wp_bind]
        have hholds : Holds h₂.disk (tempPath transferId) fileHash := by
          rw [hends.1]
          exact hends.2
        exact (wp_moveFile_of_holds htouches hholds (unpackMove_of_pack hmove) hne hdir
          hlength).mono (fun _ _ hplaced => ⟨rfl, hplaced⟩) fun _ _ hunplaced => hunplaced

/-- What is outside of the staging folder is not removed. -/
theorem Holds.removes (hholds : Holds h.disk path fileHash)
    (houtside : ¬ stagingPath transferId <:+ path)
    (hremoves : Removes (stagingPath transferId) h h') :
    Holds h'.disk path fileHash := by
  obtain ⟨content, hcontent, hmd5⟩ := hholds
  refine ⟨content, ?_, hmd5⟩
  rcases hremoves path with hsame | hgone
  · rw [Disk.content_eq_some, hsame, ← Disk.content_eq_some, hcontent]
  · exact absurd hgone.1 houtside

theorem Tree.plainBelow (htree : Tree h.disk) (hworks : Works transferId path h h')
    (houtside : ¬ stagingPath transferId <:+ path) :
    PlainBelow (stagingPath transferId) h'.disk := by
  intro name parent hsuffix hmem
  by_cases htemp : name :: parent = tempPath transferId
  · rw [(List.cons.inj htemp).1]
    decide
  · have hne : name :: parent ≠ path := by
      rintro rfl
      exact houtside (hsuffix.trans (List.suffix_cons name parent))
    have hkept := hworks (name :: parent) (not_or.mpr ⟨htemp, hne⟩)
    refine htree.named (name :: parent) ?_ name rfl
    rwa [AList.mem_keys.symm, ← AList.lookup_isSome, ← hkept, AList.lookup_isSome]

/-- What the removal of the folder leaves, as it is packed. -/
theorem wp_delStaging (hplain : PlainBelow (stagingPath transferId) h.disk) :
    Wp (do delFile env (← raise (pack (network [.B, .H, .s (stagingText transferId).length])
        [.int 0xFF, .int (stagingText transferId).length, .str (stagingText transferId)])))
      (fun _ h' => Removes (stagingPath transferId) h h')
      (fun _ h' => Removes (stagingPath transferId) h h') h := by
  rw [wp_bind]
  cases hpack : pack (network [.B, .H, .s (stagingText transferId).length])
      [.int 0xFF, .int (stagingText transferId).length, .str (stagingText transferId)] with
  | error e =>
    rw [wp_raise_error]
    exact refl_of (Removes _) h
  | ok delCmd =>
    rw [wp_raise_ok]
    exact wp_delFile (unpackDel_of_pack hpack) hplain

/-- **A file with another digest is not installed.** Behind the commands the destination is as it
was, or has the digest, or the copy to it broke off. The staging folder is not removed unless the
file was moved. -/
theorem installed (htree : Tree h.disk) (hrequests : Requests raw transferId fileHash dest)
    (houtside : ¬ stagingPath transferId <:+ resolve env.cwd dest)
    (hdir : h.disk.isDir (resolve env.cwd dest) = false) :
    Wp (autoAssembleFile env raw)
      (fun _ h' => Holds h'.disk (resolve env.cwd dest) fileHash)
      (fun _ h' =>
        (h'.disk.lookup (resolve env.cwd dest) = h.disk.lookup (resolve env.cwd dest) ∨
          Holds h'.disk (resolve env.cwd dest) fileHash ∨
          Halfway h'.disk transferId (resolve env.cwd dest) fileHash) ∧
        (Ensures (autoMoveFile env raw) (fun _ h₁ =>
            Holds h₁.disk (resolve env.cwd dest) fileHash) h ∧
            Holds h'.disk (resolve env.cwd dest) fileHash ∨
          ∀ path, stagingPath transferId <:+ path → path ≠ tempPath transferId →
            h'.disk.lookup path = h.disk.lookup path)) h := by
  unfold autoAssembleFile
  rw [wp_bind]
  refine (wp_autoMoveFile htree hrequests houtside hdir).ensures.mono ?_ ?_
  · intro t h₁ hends
    have ht : t = transferId := hends.1.1
    have hplaced := hends.1.2
    have hmoved := hends.2.imp fun _ _ hq => hq.2.holds
    have htext : ascii "/root/file_staging/" ++ str t = stagingText t := rfl
    subst ht
    rw [htext]
    have hplain : PlainBelow (stagingPath t) h₁.disk := htree.plainBelow hplaced.beside houtside
    refine (wp_delStaging hplain).mono ?_ ?_
    · exact fun _ h₂ hremoves => hplaced.holds.removes houtside hremoves
    · intro _ h₂ hremoves
      have hholds := hplaced.holds.removes houtside hremoves
      exact ⟨.inr (.inl hholds), .inl ⟨hmoved, hholds⟩⟩
  · intro e h₁ hunplaced
    refine ⟨hunplaced.kept.imp_right .inr, .inr fun path hbelow hne => hunplaced.beside path ?_⟩
    exact not_or.mpr ⟨hne, fun heq => houtside (heq ▸ hbelow)⟩

/-! ## A copy that breaks off -/

/-- A host with a file in the staging folder, and an older one at the destination. -/
def stagedHost : Host where
  disk := Disk.put (Disk.put ((((∅ : Disk).insert [ascii "root"] .dir).insert
    [ascii "file_staging", ascii "root"] .dir).insert (stagingPath 5) .dir) (tempPath 5) [7])
    [ascii "a"] [1]

/-- The payload that asks for the file with the digest of `[7]` at `/a`. -/
def installPayload : Bytes := [0, 5] ++ md5 [7] ++ [0, 2] ++ ascii "/a"

/-- The name cannot be changed, and nothing can be written. -/
def brokenEnv : Env := { plainEnv with fault := fun n => if n = 5 ∨ n = 15 then some 0 else none }

theorem requests_installPayload : Requests installPayload 5 (md5 [7]) (ascii "/a") :=
  ⟨2, ascii "/a", by decide +kernel, by decide⟩

theorem tree_stagedHost : Tree stagedHost.disk where
  parent := by decide
  named := by decide

/-- **A file that was checked is at its destination.** -/
theorem installed_staged : Wp (autoAssembleFile plainEnv installPayload)
    (fun _ h' => Holds h'.disk [ascii "a"] (md5 [7]))
    (fun _ h' => (h'.disk.lookup [ascii "a"] = stagedHost.disk.lookup [ascii "a"] ∨
        Holds h'.disk [ascii "a"] (md5 [7]) ∨ Halfway h'.disk 5 [ascii "a"] (md5 [7])) ∧
      (Ensures (autoMoveFile plainEnv installPayload) (fun _ h₁ =>
          Holds h₁.disk [ascii "a"] (md5 [7])) stagedHost ∧ Holds h'.disk [ascii "a"] (md5 [7]) ∨
        ∀ path, stagingPath 5 <:+ path → path ≠ tempPath 5 →
          h'.disk.lookup path = stagedHost.disk.lookup path)) stagedHost := by
  have hdest : resolve plainEnv.cwd (ascii "/a") = [ascii "a"] := by decide
  rw [← hdest]
  exact installed tree_stagedHost requests_installPayload (by decide) (by decide)

/-- The copy of the file breaks off, and what was at the destination is lost. -/
theorem not_installed_broken : Tree stagedHost.disk ∧
    Requests installPayload 5 (md5 [7]) (ascii "/a") ∧
    ¬ stagingPath 5 <:+ resolve brokenEnv.cwd (ascii "/a") ∧
    stagedHost.disk.isDir (resolve brokenEnv.cwd (ascii "/a")) = false ∧
    ∃ e h', autoAssembleFile brokenEnv installPayload stagedHost = .error e h' ∧
      ¬ (h'.disk.lookup [ascii "a"] = stagedHost.disk.lookup [ascii "a"] ∨
        Holds h'.disk [ascii "a"] (md5 [7])) := by
  refine ⟨tree_stagedHost, requests_installPayload, by decide, by decide, ?_⟩
  -- the copy empties the destination, and then breaks off
  have hrun : (match autoAssembleFile brokenEnv installPayload stagedHost with
      | .error _ h' => decide (h'.disk.content [ascii "a"] = some [])
      | .ok _ _ => false) = true := by
    decide +kernel
  generalize autoAssembleFile brokenEnv installPayload stagedHost = result at hrun ⊢
  cases result with
  | ok _ h' => exact Bool.noConfusion hrun
  | error e h' =>
    have hempty : h'.disk.content [ascii "a"] = some [] := of_decide_eq_true hrun
    refine ⟨e, h', rfl, ?_⟩
    rintro (hsame | ⟨content, hcontent, hmd5⟩)
    · rw [Disk.content_eq_some, hsame] at hempty
      exact absurd hempty (by decide)
    · obtain rfl : content = [] := Option.some.inj (hcontent.symm.trans hempty)
      exact absurd hmd5 (by decide +kernel)

end ClickA.Files
