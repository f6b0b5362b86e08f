import ClickA.Files.Moves
import ClickA.Files.Reliable

/-!
# Operations that may fail

What the statements on files leave as it was, whichever of their operations fails.

## Main definitions

* `Reads`: the disk is as it was
* `Touches`: the disk is as it was beside some paths

## Main results

* `wp_hashFile`: a digest is that of the file
* `wp_openWrite`, `wp_write`: what is written, also when it breaks off
* `wp_makeDirs_of_isDir`: a directory that is there is not made
-/

namespace ClickA.Files

open Python Python.Disk

/-- The disk is as it was. -/
def Reads (h h' : Host) : Prop := h'.disk = h.disk

/-- The disk is as it was, beside some paths. -/
def Touches (touched : Path → Prop) (h h' : Host) : Prop :=
  ∀ path, ¬ touched path → h'.disk.lookup path = h.disk.lookup path

variable {env : Env} {h h' : Host} {text src dst : Bytes} {path dir source old : Path}
  {touched : Path → Prop} {content data : Bytes}

instance : Std.Refl Reads := ⟨fun _ => rfl⟩

instance : IsTrans Host Reads := ⟨fun _ _ _ hr hr' => Eq.trans hr' hr⟩

instance : Std.Refl (Touches touched) := ⟨fun _ _ _ => rfl⟩

instance : IsTrans Host (Touches touched) :=
  ⟨fun _ _ _ ht ht' path hnot => (ht' path hnot).trans (ht path hnot)⟩

theorem Reads.trans {h'' : Host} (hreads : Reads h h') (hreads' : Reads h' h'') : Reads h h'' :=
  trans_of Reads hreads hreads'

theorem Reads.touches (hreads : Reads h h') : Touches touched h h' := fun path _ => by
  rw [hreads]

theorem Touches.trans {h'' : Host} (htouches : Touches touched h h')
    (htouches' : Touches touched h' h'') : Touches touched h h'' :=
  trans_of (Touches touched) htouches htouches'

theorem Touches.content_eq (htouches : Touches touched h h') (hnot : ¬ touched path) :
    h'.disk.content path = h.disk.content path := by
  unfold Disk.content
  rw [htouches path hnot]

theorem Touches.isDir_eq (htouches : Touches touched h h') (hnot : ¬ touched path) :
    h'.disk.isDir path = h.disk.isDir path := by
  unfold Disk.isDir
  rw [htouches path hnot]

theorem touches_put (hput : h'.disk = h.disk.put path data) (htouched : touched path) :
    Touches touched h h' := by
  intro path' hnot
  have hne : path' ≠ path := fun heq => hnot (heq ▸ htouched)
  unfold Disk.put at hput
  rw [hput, AList.lookup_insert_ne hne]

/-! ## What is read only -/

theorem reads_raise {α : Type} (x : Except Exn α) : Keeps Reads (raise x) := by
  intro h
  cases x with
  | ok a => rfl
  | error e => rfl

theorem reads_get : Keeps Reads (get : Stmt Host) := fun _ => rfl

theorem reads_operate : Keeps Reads (operate env) := fun _ => rfl

theorem reads_operation : Keeps Reads (operation env) := by
  apply keeps_bind reads_operate
  intro fault
  cases fault with
  | none => exact keeps_pure _
  | some n => exact keeps_throw _

theorem reads_sendPacket (apid : ℕ) (payload : Bytes) : Keeps Reads (sendPacket apid payload) :=
  keeps_bind (reads_raise _) fun _ _ => rfl

theorem reads_sendException {α : Type} (e : Err) :
    Keeps Reads (sendException env e : Stmt α) := by
  apply keeps_bind (reads_sendPacket _ _)
  intro _
  cases e with
  | os n => exact keeps_throw _
  | file flag => exact keeps_throw _
  | zeroDivisionError => exact keeps_throw _
  | attributeError => exact keeps_throw _
  | raised e => exact keeps_throw _

/-- A block goes on behind a statement that reads only. -/
theorem wp_reads_bind {α β : Type} {x : Stmt α} {f : α → Stmt β} {Q : β → Host → Prop}
    {E : Err → Host → Prop} (hx : Keeps Reads x)
    (hf : ∀ a h', Reads h h' → Wp (f a) Q E h') (hE : ∀ e h', Reads h h' → E e h') :
    Wp (x >>= f) Q E h := by
  rw [wp_bind]
  exact (hx h).mono (fun a h' => hf a h') fun e h' => hE e h'

/-- `send_exception` does not end normally. -/
theorem wp_sendException {α : Type} (e : Err) (h : Host) :
    Wp (sendException env e : Stmt α) (fun _ _ => False) (fun _ h' => Reads h h') h := by
  apply wp_reads_bind (reads_sendPacket _ _) _ fun _ _ hreads => hreads
  intro _ h' hreads
  cases e with
  | os n => exact hreads
  | file flag => exact hreads
  | zeroDivisionError => exact hreads
  | attributeError => exact hreads
  | raised e => exact hreads

theorem reads_statPath : Keeps Reads (statPath env text) := by
  apply keeps_guard
  apply keeps_bind reads_operation
  intro _
  apply keeps_bind reads_get
  intro h
  exact keeps_ite (keeps_pure _) (keeps_throw _)

theorem reads_attempt {α : Type} {x : Stmt α} {default : α} (hx : Keeps Reads x) :
    Keeps Reads (attempt x default) := by
  apply keeps_tryCatch hx
  intro e
  cases e with
  | os n => exact keeps_pure _
  | file flag => exact keeps_throw _
  | zeroDivisionError => exact keeps_throw _
  | attributeError => exact keeps_throw _
  | raised e => exact keeps_throw _

/-- A directory that was found is there. -/
theorem wp_isdir : Wp (isdir env text)
    (fun found h' => Reads h h' ∧ (found = true → h.disk.isDir (resolve env.cwd text) = true))
    (fun _ h' => Reads h h') h := by
  unfold isdir attempt
  rw [wp_tryCatch]
  have hstat : Wp (statPath env text)
      (fun path h' => Reads h h' ∧ path = resolve env.cwd text) (fun _ h' => Reads h h') h := by
    unfold statPath
    dsimp only
    split
    · exact rfl
    · apply wp_reads_bind reads_operation _ fun _ _ hreads => hreads
      intro _ h' hreads
      rw [wp_bind, wp_get]
      split
      · exact ⟨hreads, rfl⟩
      · exact hreads
  rw [wp_bind]
  refine hstat.mono ?_ ?_
  · rintro _ h' ⟨hreads, rfl⟩
    rw [wp_bind, wp_get, wp_pure, hreads]
    exact ⟨hreads, id⟩
  · intro e h' hreads
    cases e with
    | os n => exact ⟨hreads, Bool.noConfusion⟩
    | file flag => exact hreads
    | zeroDivisionError => exact hreads
    | attributeError => exact hreads
    | raised e => exact hreads

theorem reads_pathExists : Keeps Reads (pathExists env text) :=
  reads_attempt (keeps_bind reads_statPath fun _ => keeps_pure _)

theorem reads_samefile : Keeps Reads (samefile env src dst) :=
  reads_attempt (keeps_bind reads_statPath fun _ =>
    keeps_bind reads_statPath fun _ => keeps_pure _)

theorem reads_copystat : Keeps Reads (copystat env src dst) :=
  keeps_bind reads_statPath fun _ => keeps_bind reads_statPath fun _ =>
    keeps_bind reads_statPath fun _ => keeps_pure _

/-- The names that are listed are those in a directory. -/
theorem wp_listdir : Wp (listdir env text)
    (fun names h' => Reads h h' ∧ h.disk.isDir (resolve env.cwd text) = true ∧
      ∀ name ∈ names, name :: resolve env.cwd text ∈ h.disk)
    (fun _ h' => Reads h h') h := by
  apply wp_reads_bind reads_operation _ fun _ _ hreads => hreads
  intro _ h' hreads
  rw [wp_bind, wp_get, hreads]
  dsimp only
  split
  · rename_i hdir
    refine ⟨hreads, hdir, fun name hmem => ?_⟩
    rw [← Disk.mem_names]
    exact (env.perm _ _).mem_iff.mp hmem
  · split
    · exact hreads
    · exact hreads

theorem reads_listdir : Keeps Reads (listdir env text) := fun _ =>
  wp_listdir.mono (fun _ _ hends => hends.1) fun _ _ hreads => hreads

theorem reads_stat : Keeps Reads (stat env text) := by
  apply keeps_bind reads_operation
  intro _
  apply keeps_bind reads_get
  intro h
  exact keeps_ite (keeps_pure _) (keeps_throw _)

theorem reads_readAll : Keeps Reads (readAll env path) :=
  keeps_bind reads_operation fun _ => keeps_bind reads_get fun _ => keeps_pure _

/-! ## Files that are read -/

theorem wp_openRead : Wp (openRead env text)
    (fun path h' => Reads h h' ∧ target env.cwd text = some path ∧
      ∃ content, h.disk.content path = some content)
    (fun _ h' => Reads h h') h := by
  unfold openRead
  dsimp only
  split
  · exact rfl
  · apply wp_reads_bind reads_operation _ fun _ _ hreads => hreads
    intro _ h' hreads
    rw [wp_bind, wp_get, hreads]
    cases htarget : target env.cwd text with
    | none => exact hreads
    | some path =>
      dsimp only
      split
      · exact hreads
      · rename_i hdir
        split
        · rename_i hexists
          exact ⟨hreads, rfl, Disk.exists_content hexists hdir⟩
        · exact hreads

theorem reads_openRead : Keeps Reads (openRead env text) := fun _ =>
  wp_openRead.mono (fun _ _ hends => hends.1) fun _ _ hreads => hreads

theorem wp_read (position size : ℕ) (hcontent : h.disk.content path = some content) :
    Wp (read env path position size)
      (fun bytes h' => Reads h h' ∧ bytes = (content.drop position).take size)
      (fun _ h' => Reads h h') h := by
  apply wp_reads_bind reads_operation _ fun _ _ hreads => hreads
  intro _ h' hreads
  rw [wp_bind, wp_get, wp_pure, hreads, hcontent]
  exact ⟨hreads, rfl⟩

/-- The loop hashes the file from its position on, if it ends normally. -/
theorem wp_hashBlocks (hcontent : h.disk.content source = some content) (fuel position : ℕ)
    (hashed : Bytes) (hfuel : content.length < position + fuel) :
    Wp (hashBlocks env source fuel position hashed)
      (fun bytes h' => Reads h h' ∧ bytes = hashed ++ content.drop position)
      (fun _ h' => Reads h h') h := by
  induction fuel generalizing h position hashed with
  | zero =>
    refine ⟨rfl, ?_⟩
    rw [List.drop_eq_nil_of_le (show content.length ≤ position by omega), List.append_nil]
  | succ fuel ih =>
    rw [hashBlocks, wp_bind]
    refine (wp_read position 1024 hcontent).mono ?_ fun _ _ hreads => hreads
    rintro buf h' ⟨hreads, rfl⟩
    -- an empty block is the end of the file
    by_cases hbuf : (content.drop position).take 1024 = []
    · rw [if_pos hbuf]
      have hnil : content.drop position = [] := by simpa using hbuf
      exact ⟨hreads, by rw [hnil, List.append_nil]⟩
    · rw [if_neg hbuf]
      have hlength := List.length_pos_iff.mpr hbuf
      refine (ih (by rw [hreads, hcontent]) _ _ (by omega)).mono ?_ ?_
      · rintro bytes h'' ⟨hreads', rfl⟩
        rw [List.append_assoc, block_append_drop]
        exact ⟨hreads.trans hreads', rfl⟩
      · exact fun _ h'' hreads' => hreads.trans hreads'

/-- **A digest is that of the file**, if it is made. -/
theorem wp_hashFile (hcontent : h.disk.content source = some content) :
    Wp (hashFile env source) (fun digest h' => Reads h h' ∧ digest = md5 content)
      (fun _ h' => Reads h h') h := by
  unfold hashFile
  rw [wp_bind, wp_get]
  dsimp only
  rw [hcontent, Option.getD_some, wp_bind]
  refine (wp_hashBlocks hcontent (content.length + 1) 0 [] (by omega)).mono ?_
    fun _ _ hreads => hreads
  rintro hashed h' ⟨hreads, rfl⟩
  exact ⟨hreads, rfl⟩

/-! ## Files that are written -/

theorem wp_openWrite : Wp (openWrite env text)
    (fun path h' => target env.cwd text = some path ∧ h'.disk = h.disk.put path [])
    (fun _ h' => Reads h h') h := by
  unfold openWrite
  dsimp only
  split
  · exact rfl
  · apply wp_reads_bind reads_operation _ fun _ _ hreads => hreads
    intro _ h' hreads
    rw [wp_bind, wp_get, hreads]
    cases htarget : target env.cwd text with
    | none => exact hreads
    | some path =>
      dsimp only
      split
      · exact hreads
      · split
        · rw [wp_bind, wp_modify, wp_pure]
          exact ⟨rfl, by rw [hreads]⟩
        · split
          · exact hreads
          · exact hreads

/-- A write may break off. -/
theorem wp_write : Wp (write env path data)
    (fun _ h' => h'.disk = h.disk.put path ((h.disk.content path).getD [] ++ data))
    (fun _ h' => ∃ n, h'.disk = h.disk.put path ((h.disk.content path).getD [] ++ data.take n))
    h := by
  unfold write
  rw [wp_bind]
  refine (show Wp (operate env) (fun fault h' => Reads h h' ∧ fault = env.fault h.operations)
    (fun _ _ => False) h from ⟨rfl, rfl⟩).mono ?_ fun _ _ hfalse => hfalse.elim
  rintro fault h' ⟨hreads, -⟩
  cases fault with
  | none =>
    rw [wp_bind, wp_modify, hreads]
    exact rfl
  | some n =>
    rw [wp_bind, wp_modify, hreads]
    exact ⟨n, rfl⟩

theorem touches_write (htouched : touched path) : Keeps (Touches touched) (write env path data) :=
  fun _ => wp_write.mono (fun _ _ hput => touches_put hput htouched)
    fun _ _ ⟨_, hput⟩ => touches_put hput htouched

/-! ## Directories that are there -/

theorem exists_of_isDir {disk : Disk} (hdir : disk.isDir path = true) :
    disk.exists? path = true := by
  unfold Disk.isDir at hdir
  unfold Disk.exists?
  rcases Bool.or_eq_true_iff.mp hdir with hroot | hlookup
  · rw [hroot, Bool.true_or]
  · rw [of_decide_eq_true hlookup]
    simp

/-- What is there is not made. -/
theorem wp_mkdir_of_exists (hexists : h.disk.exists? path = true) :
    Wp (mkdir env path) (fun _ h' => Reads h h') (fun _ h' => Reads h h') h := by
  apply wp_reads_bind reads_operation _ fun _ _ hreads => hreads
  intro _ h' hreads
  rw [wp_bind, wp_get]
  dsimp only
  rw [hreads, if_pos hexists]
  exact hreads

theorem wp_makeDirs_of_isDir (hdir : h.disk.isDir path = true)
    (hparent : h.disk.isDir path.tail = true) :
    Wp (makeDirs env path) (fun _ h' => Reads h h') (fun _ h' => Reads h h') h := by
  have hmakedirs : Wp (makedirs env path) (fun _ h' => Reads h h') (fun _ h' => Reads h h') h := by
    cases path with
    | nil => exact wp_mkdir_of_exists rfl
    | cons name parent =>
      rw [makedirs, wp_bind, wp_get]
      dsimp only
      rw [if_neg (by simp [exists_of_isDir (show h.disk.isDir parent = true from hparent)])]
      exact wp_mkdir_of_exists (exists_of_isDir hdir)
  unfold makeDirs
  rw [wp_tryCatch]
  refine hmakedirs.mono (fun _ _ hreads => hreads) ?_
  intro e h' hreads
  rw [wp_bind, wp_get]
  split
  · exact hreads
  · exact hreads

end ClickA.Files
