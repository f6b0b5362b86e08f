import ClickA.Files.Downlinks
import ClickA.Files.Faults
import ClickA.Files.Uplinks

/-!
# Earlier commands

What earlier uplinks, disassemblies and downlinks leave in the staging folders: chunks, whatever
their numbers are, and digests.

## Main definitions

* `Command`: an earlier command
* `Tidy`: the staging folders have chunks and digests only
* `Left`: what earlier commands leave on a disk

## Main results

* `tidies_run`: each command leaves the folders tidy, however it ends
* `tidy_of_left`: so the folders are tidy behind all commands
-/

namespace ClickA.Files

open Python Python.Disk

attribute [local irreducible] pack TxPacket.encode unpack

/-- A command that writes into the staging folders. -/
inductive Command
  | uplinkFile (raw : Bytes)
  | disassembleFile (raw : Bytes)
  | autoDownlinkFile (raw : Bytes)

/-- What a command does. -/
def Command.run (env : Env) : Command → Stmt Unit
  | .uplinkFile raw => Files.uplinkFile env raw
  | .disassembleFile raw => Files.disassembleFile env raw
  | .autoDownlinkFile raw => Files.autoDownlinkFile env raw

/-- The host behind a statement, however it ends. -/
def behind {α : Type} (x : Stmt α) (h : Host) : Host :=
  match x h with
  | .ok _ h' => h'
  | .error _ h' => h'

/-- A path is in a staging folder, or on the way to one. -/
def Staging (path : Path) : Prop := ∃ transferId, stagingPath transferId <:+ path ∨
  path <:+ stagingPath transferId

/-- What earlier commands leave on a disk, from empty staging folders on. Other files may change
between them. -/
inductive Left : Disk → Prop
  | empty (disk : Disk) (creatable : ∀ transferId, disk.Creatable (stagingPath transferId))
    (fresh : ∀ transferId name, name :: stagingPath transferId ∉ disk) : Left disk
  | command (env : Env) (reliable : env.Reliable) (c : Command) (h : Host) (left : Left h.disk) :
    Left (behind (c.run env) h).disk
  | elsewhere (disk disk' : Disk) (left : Left disk)
    (same : ∀ path, Staging path → disk'.lookup path = disk.lookup path) : Left disk'

/-- A staging folder has chunks, and the digest of a file. -/
structure Staged (disk : Disk) (transferId : ℕ) : Prop where
  stages : ∃ chunks, Stages disk transferId chunks
  hashed : disk.lookup (hashPath transferId) = none ∨
    ∃ bytes : Bytes, disk.lookup (hashPath transferId) = some (.file bytes) ∧ bytes.length = 16

/-- The staging folders have chunks and digests only. -/
def Tidy (disk : Disk) : Prop := ∀ transferId, Staged disk transferId

/-- The folders stay tidy. -/
def Tidies (h h' : Host) : Prop := Tidy h.disk → Tidy h'.disk

instance : Std.Refl Tidies := ⟨fun _ => id⟩

instance : IsTrans Host Tidies := ⟨fun _ _ _ h h' htidy => h' (h htidy)⟩

variable {env : Env} {h h' : Host} {disk disk' : Disk} {sent : List Bytes} {transferId other : ℕ}
  {key : Key} {raw data : Bytes} {path : Path}

theorem Reads.tidies (hreads : Reads h h') : Tidies h h' := fun htidy => by rwa [hreads]

theorem tidies_of_reads {α : Type} {x : Stmt α} (hx : Keeps Reads x) : Keeps Tidies x :=
  hx.imp fun _ _ => Reads.tidies

/-- The folders are tidy behind a statement if it runs from tidy ones. -/
theorem keeps_tidies {α : Type} {x : Stmt α}
    (hx : ∀ h, Tidy h.disk → Wp x (fun _ h' => Tidy h'.disk) (fun _ h' => Tidy h'.disk) h) :
    Keeps Tidies x := by
  intro h
  by_cases htidy : Tidy h.disk
  · exact (hx h htidy).mono (fun _ _ h' _ => h') fun _ _ h' _ => h'
  · exact wp_true.mono (fun _ _ _ hno => absurd hno htidy) fun _ _ _ hno => absurd hno htidy

/-! ## What is written -/

theorem stagingPath_inj (h : stagingPath transferId = stagingPath other) : transferId = other :=
  str_injective (List.cons.inj h).1

/-- Folders that are made leave a staging folder as it was. -/
theorem Staged.makes (hstaged : Staged disk transferId)
    (hmakes : Makes (stagingPath other) disk disk') :
    Staged disk' transferId where
  stages := hstaged.stages.imp fun _ hstages => hstages.makes hmakes
  hashed := by
    have hlookup : disk'.lookup (hashPath transferId) = disk.lookup (hashPath transferId) :=
      hmakes.lookup_eq not_suffix_stagingPath
    rw [hlookup]
    exact hstaged.hashed

theorem tidy_makes (htidy : Tidy disk) (hmakes : Makes (stagingPath other) disk disk') :
    Tidy disk' :=
  fun transferId => (htidy transferId).makes hmakes

/-- A chunk is added to one of the folders. -/
theorem tidy_put_chunk (htidy : Tidy disk) (hdir : disk.isDir (stagingPath transferId) = true) :
    Tidy (disk.put (chunkPath transferId key) data) := by
  intro other
  obtain ⟨⟨chunks, hstages⟩, hhashed⟩ := htidy other
  constructor
  · by_cases hother : other = transferId
    · subst hother
      exact ⟨_, hstages.put_chunk hdir⟩
    · refine ⟨chunks, hstages.put not_suffix_chunkPath fun name _ heq => hother ?_⟩
      exact (stagingPath_inj (List.cons.inj heq).2).symm
  · have hne : hashPath other ≠ chunkPath transferId key := fun heq =>
      hashName_ne_chunkName (List.cons.inj heq).1
    unfold Disk.put
    rwa [AList.lookup_insert_ne hne]

/-- A digest is written into one of the folders. -/
theorem tidy_put_hash (htidy : Tidy disk) (hlength : data.length = 16) :
    Tidy (disk.put (hashPath transferId) data) := by
  intro other
  obtain ⟨⟨chunks, hstages⟩, hhashed⟩ := htidy other
  constructor
  · refine ⟨chunks, hstages.put not_suffix_stagingPath fun name hname heq => ?_⟩
    rw [← (List.cons.inj heq).1, isChunk_hashName] at hname
    exact Bool.noConfusion hname
  · unfold Disk.put
    by_cases hother : hashPath other = hashPath transferId
    · right
      rw [hother, AList.lookup_insert]
      exact ⟨data, rfl, hlength⟩
    · rwa [AList.lookup_insert_ne hother]

/-- A digest is no directory. -/
theorem Staged.isDir_hashPath (hstaged : Staged disk transferId) :
    disk.isDir (hashPath transferId) = false := by
  unfold Disk.isDir
  rcases hstaged.hashed with hnone | ⟨bytes, hfile, -⟩
  · rw [hnone]
    rfl
  · rw [hfile]
    rfl

/-! ## What each statement leaves -/

theorem tidies_writeChunk (hreliable : env.Reliable) (transferId seqNum seqLen : ℕ) (data : Bytes) :
    Keeps Tidies (writeChunk env transferId seqNum seqLen data) := by
  apply keeps_tidies
  intro h htidy
  obtain ⟨chunks, hstages⟩ := (htidy transferId).stages
  refine (ensures_writeChunk hreliable hstages ⟨rfl, rfl⟩ seqNum seqLen).mono ?_
    fun _ _ hfalse => hfalse.elim
  rintro _ h' ⟨disk', hmakes, hat'⟩
  rw [hat'.disk]
  exact tidy_put_chunk (tidy_makes htidy hmakes) hmakes.made

theorem reads_read (path : Path) (position size : ℕ) : Keeps Reads (read env path position size) :=
  keeps_bind reads_operation fun _ => keeps_bind reads_get fun _ => keeps_pure _

theorem reads_hashBlocks (source : Path) (fuel position : ℕ) (hashed : Bytes) :
    Keeps Reads (hashBlocks env source fuel position hashed) := by
  induction fuel generalizing position hashed with
  | zero => exact keeps_pure _
  | succ fuel ih =>
    rw [hashBlocks]
    apply keeps_bind (reads_read source position 1024)
    intro buf
    exact keeps_ite (keeps_pure _) (ih _ _)

/-- A digest has 16 bytes. -/
theorem wp_hashFile_length (source : Path) (h : Host) :
    Wp (hashFile env source) (fun digest h' => Reads h h' ∧ digest.length = 16)
      (fun _ h' => Reads h h') h := by
  unfold hashFile
  rw [wp_bind, wp_get]
  dsimp only
  rw [wp_bind]
  refine (reads_hashBlocks source _ _ _ h).mono ?_ fun _ _ hreads => hreads
  intro hashed h' hreads
  exact ⟨hreads, length_md5 hashed⟩

theorem tidies_cutChunks (hreliable : env.Reliable) (transferId chunkSize fileLen seqLen : ℕ)
    (source : Path) (fuel seqNum : ℕ) :
    Keeps Tidies (cutChunks env transferId chunkSize fileLen seqLen source fuel seqNum) := by
  induction fuel generalizing seqNum with
  | zero => exact keeps_pure _
  | succ fuel ih =>
    rw [cutChunks]
    apply keeps_ite _ (keeps_pure _)
    apply keeps_bind (tidies_of_reads (reads_read _ _ _))
    intro chunkData
    exact keeps_bind (tidies_writeChunk hreliable _ _ _ _) fun _ => ih (seqNum + 1)

theorem reads_ceilDiv (fileLen chunkSize : ℕ) : Keeps Reads (ceilDiv fileLen chunkSize) := by
  unfold ceilDiv
  exact keeps_ite (keeps_throw _) (keeps_pure _)

theorem tidies_disassemble (hreliable : env.Reliable) (transferId chunkSize : ℕ)
    (fileName : Bytes) :
    Keeps Tidies (disassemble env transferId chunkSize fileName) := by
  apply keeps_bind (tidies_of_reads reads_openRead)
  intro source
  apply keeps_tidies
  intro h htidy
  rw [wp_bind]
  refine (wp_hashFile_length source h).mono ?_ fun _ _ hreads => hreads.tidies htidy
  rintro digest h₁ ⟨hreads, hlength⟩
  have hstaged := hreads.tidies htidy transferId
  obtain ⟨chunks, hstages⟩ := hstaged.stages
  rw [wp_bind]
  refine (ensures_safeOpenW hreliable (writable_hashName hstages.creatable hstaged.isDir_hashPath)
    ⟨rfl, rfl⟩).mono ?_ fun _ _ hfalse => hfalse.elim
  rintro _ h₂ ⟨rfl, made, hmakes, hat₂⟩
  rw [wp_bind]
  refine (ensures_write hreliable content_put hat₂).mono ?_ fun _ _ hfalse => hfalse.elim
  intro _ h₃ hat₃
  have htidy₃ : Tidy h₃.disk := by
    have hdisk : h₃.disk = made.put (hashPath transferId) digest := by
      rw [hat₃.disk, Disk.put_put, List.nil_append]
    rw [hdisk]
    exact tidy_put_hash (tidy_makes (hreads.tidies htidy) hmakes) hlength
  refine Wp.mono ((?_ : Keeps Tidies _) h₃) (fun _ _ htidies => htidies htidy₃)
    fun _ _ htidies => htidies htidy₃
  apply keeps_bind (tidies_of_reads reads_openRead)
  intro source
  apply keeps_bind (tidies_of_reads reads_stat)
  intro fileLen
  apply keeps_bind (tidies_of_reads (reads_ceilDiv _ _))
  intro seqLen
  apply keeps_bind (tidies_cutChunks hreliable _ _ _ _ _ _ _)
  intro seqNum
  have hreport : Keeps Tidies (do
      sendPacket tlmDisassembleFile
        (← raise (pack (network [.H, .H]) [.int transferId, .int seqNum])) : Stmt Unit) :=
    tidies_of_reads (keeps_bind (reads_raise _) fun _ => reads_sendPacket _ _)
  split
  · apply keeps_bind (tidies_of_reads (reads_read _ _ _))
    intro chunkData
    exact keeps_bind (tidies_writeChunk hreliable _ _ _ _) fun _ => hreport
  · exact hreport

/-! ## The commands -/

theorem reads_sendChunk (transferId : ℕ) (fileHash : Bytes) (seqLen i : ℕ) :
    Keeps Reads (sendChunk env transferId fileHash seqLen i) := by
  apply keeps_bind reads_openRead
  intro chunkFile
  apply keeps_bind reads_stat
  intro chunkSize
  apply keeps_bind reads_readAll
  intro packetPayload
  exact keeps_bind (reads_raise _) fun _ => reads_sendPacket _ _

theorem reads_sendChunks (transferId : ℕ) (fileHash : Bytes) (seqLen : ℕ) (is : List ℕ) :
    Keeps Reads (is.forM (sendChunk env transferId fileHash seqLen)) := by
  induction is with
  | nil => exact keeps_pure _
  | cons i is ih => exact keeps_bind (reads_sendChunk transferId fileHash seqLen i) fun _ => ih

theorem reads_sortedChunks (transferId : ℕ) : Keeps Reads (sortedChunks env transferId) := by
  apply keeps_bind reads_listdir
  intro names
  exact keeps_bind (reads_raise _) fun _ => keeps_pure _

theorem reads_request (transferId allFlag chunkStartIndex numChunks : ℕ) :
    Keeps Reads (request env transferId allFlag chunkStartIndex numChunks) := by
  apply keeps_bind (reads_sortedChunks transferId)
  intro names
  cases names with
  | nil => exact keeps_throw _
  | cons first rest =>
    apply keeps_guard
    apply keeps_bind (reads_raise _)
    intro seqLen
    dsimp only
    apply keeps_guard
    apply keeps_bind reads_openRead
    intro hashFile
    apply keeps_bind reads_readAll
    intro fileHash
    exact reads_sendChunks _ _ _ _

theorem reads_requestFile (raw : Bytes) : Keeps Reads (requestFile env raw) := by
  apply keeps_bind (reads_raise _)
  intro values
  split
  · exact keeps_tryCatch (reads_request _ _ _ _) reads_sendException
  · exact keeps_throw _

/-- **Each command leaves the folders tidy**, however it ends. -/
theorem tidies_run (hreliable : env.Reliable) (c : Command) : Keeps Tidies (c.run env) := by
  have hdisassemble (raw : Bytes) : Keeps Tidies (disassembleFile env raw) := by
    apply keeps_bind (tidies_of_reads (reads_raise _))
    rintro ⟨transferId, chunkSize, fileNameLen, fileNamePayload⟩
    exact keeps_tryCatch (tidies_disassemble hreliable _ _ _)
      fun e => tidies_of_reads (reads_sendException e)
  cases c with
  | uplinkFile raw =>
    apply keeps_bind (tidies_of_reads (reads_raise _))
    rintro ⟨transferId, seqNum, seqLen, chunkLen, chunkPayload⟩
    apply keeps_tryCatch _ fun e => tidies_of_reads (reads_sendException e)
    exact keeps_guard (tidies_writeChunk hreliable _ _ _ _)
  | disassembleFile raw => exact hdisassemble raw
  | autoDownlinkFile raw =>
    apply keeps_bind (tidies_of_reads (reads_raise _))
    rintro ⟨transferId, chunkSize, fileNameLen, fileNamePayload⟩
    apply keeps_bind (hdisassemble raw)
    intro _
    apply keeps_bind (tidies_of_reads (reads_raise _))
    intro command
    exact tidies_of_reads (reads_requestFile command)

theorem keeps_behind {α : Type} {R : Host → Host → Prop} {x : Stmt α} (hx : Keeps R x) (h : Host) :
    R h (behind x h) := by
  have hwp := hx h
  unfold Wp at hwp
  unfold Files.behind
  cases hrun : x h with
  | ok a h' =>
    rw [hrun] at hwp
    exact hwp
  | error e h' =>
    rw [hrun] at hwp
    exact hwp

/-! ## What is left -/

theorem stages_of_lookup {chunks : Chunks} (hstages : Stages disk transferId chunks)
    (hsame : ∀ path, Staging path → disk'.lookup path = disk.lookup path) :
    Stages disk' transferId chunks where
  creatable dir hdir node hnode := by
    rw [hsame dir ⟨transferId, .inr hdir⟩] at hnode
    exact hstages.creatable dir hdir node hnode
  isDir key hkey := by
    have hdir := hstages.isDir key hkey
    unfold Disk.isDir at hdir ⊢
    rwa [hsame _ ⟨transferId, .inr List.suffix_rfl⟩]
  content key := by
    rw [← hstages.content key]
    unfold Disk.content
    rw [hsame (chunkPath transferId key) ⟨transferId, .inl (List.suffix_cons _ _)⟩]
  named name hname hmem := by
    apply hstages.named name hname
    rw [← AList.lookup_isSome] at hmem ⊢
    rwa [hsame _ ⟨transferId, .inl (List.suffix_cons _ _)⟩] at hmem

/-- **The staging folders are tidy behind all earlier commands.** -/
theorem tidy_of_left (hleft : Left disk) : Tidy disk := by
  induction hleft with
  | empty disk creatable fresh =>
    intro transferId
    refine ⟨⟨_, stages_empty (creatable transferId) fun name _ => fresh transferId name⟩, .inl ?_⟩
    exact AList.lookup_eq_none.mpr (fresh transferId hashName)
  | command env reliable c h left ih => exact keeps_behind (tidies_run reliable c) h ih
  | elsewhere disk disk' left same ih =>
    intro transferId
    obtain ⟨⟨chunks, hstages⟩, hhashed⟩ := ih transferId
    refine ⟨⟨chunks, stages_of_lookup hstages same⟩, ?_⟩
    rwa [same (hashPath transferId) ⟨transferId, .inl (List.suffix_cons _ _)⟩]

end ClickA.Files
