import ClickA.Files.Host

/-!
# Operations that do not fail

What the operations on files do where the disk itself does not fail.

## Main definitions

* `Env.Reliable`: no operation fails by itself
* `Host.At`: the disk and what was sent
* `Writable`: a file can be opened for writing

## Main results

* `ensures_makeDirs`: a directory is made
* `ensures_safeOpenW`, `ensures_write`: a file is opened for writing, and written
* `ensures_openRead`, `ensures_readAll`, `ensures_stat`: a file is read
* `allows_openRead`: a file that was opened is there
-/

namespace ClickA.Files

open Python Python.Disk

/-- No operation fails by itself. -/
def Env.Reliable (env : Env) : Prop := ∀ n, env.fault n = none

/-- What is on the disk, and what was sent. -/
structure Host.At (h : Host) (disk : Disk) (sent : List Bytes) : Prop where
  disk : h.disk = disk
  sent : h.sent = sent

/-- A file can be opened for writing: its directory is there or can be made. -/
structure Writable (env : Env) (disk : Disk) (text : Bytes) (path : Path) : Prop where
  nul : text.contains 0 = false
  target : target env.cwd text = some path
  file : disk.isDir path = false
  creatable : disk.Creatable path.tail
  parent : dirname text = [] → disk.isDir path.tail = true

/-- A file can be opened for reading. -/
structure Readable (env : Env) (disk : Disk) (text : Bytes) (path : Path) (content : Bytes) :
    Prop where
  nul : text.contains 0 = false
  target : target env.cwd text = some path
  content : disk.content path = some content

variable {env : Env} {h : Host} {disk disk' : Disk} {sent : List Bytes} {text : Bytes} {path : Path}
  {content data : Bytes}

/-- Behind a block that was read the file goes on. -/
theorem block_append_drop (content : Bytes) (position size : ℕ) :
    (content.drop position).take size ++
      content.drop (position + ((content.drop position).take size).length) =
          content.drop position := by
  have hblock := List.take_prefix size (content.drop position)
  rw [← List.drop_drop, List.prefix_iff_eq_append.mp hblock]

/-! ## Statements without a disk -/

@[simp] theorem wp_raise_ok {α : Type} {a : α} {Q : α → Host → Prop} {E : Err → Host → Prop} :
    Wp (raise (.ok a)) Q E h ↔ Q a h := Iff.rfl

@[simp] theorem wp_raise_error {α : Type} {e : Exn} {Q : α → Host → Prop} {E : Err → Host → Prop} :
    Wp (raise (.error e)) Q E h ↔ E (.raised e) h := Iff.rfl

theorem ensures_sendPacket {apid : ℕ} {payload raw : Bytes}
    (hraw : TxPacket.encode apid payload = .ok raw) (hat : h.At disk sent) :
    Ensures (sendPacket apid payload) (fun _ h' => h'.At disk (sent ++ [raw])) h := by
  unfold sendPacket
  rw [hraw, Ensures, wp_bind, wp_raise_ok, wp_modify]
  exact ⟨hat.disk, by rw [hat.sent]⟩

/-! ## Directories -/

section Directories

theorem ensures_operate (hreliable : env.Reliable) (hat : h.At disk sent) :
    Ensures (operate env) (fun fault h' => fault = none ∧ h'.At disk sent) h :=
  ⟨hreliable h.operations, hat.disk, hat.sent⟩

theorem ensures_operation (hreliable : env.Reliable) (hat : h.At disk sent) :
    Ensures (operation env) (fun _ h' => h'.At disk sent) h := by
  refine (ensures_operate hreliable hat).bind ?_
  rintro fault h' ⟨rfl, hat'⟩
  exact hat'

variable {name : Name} {parent : Path}

/-- The last directory on the way is made, or it was there. -/
theorem wp_mkdir (hreliable : env.Reliable) (hcreatable : disk.Creatable (name :: parent))
    (hmakes : Makes parent disk disk') (hat : h.At disk' sent) :
    Wp (mkdir env (name :: parent))
      (fun _ h' => ∃ disk', h'.At disk' sent ∧ Makes (name :: parent) disk disk')
      (fun e h' => e = .os eexist ∧
        ∃ disk', h'.At disk' sent ∧ Makes (name :: parent) disk disk') h := by
  unfold mkdir
  rw [wp_bind]
  refine (ensures_operation hreliable hat).mono ?_ (fun _ _ hfalse => hfalse.elim)
  intro _ h' hat'
  rw [wp_bind, wp_get]
  dsimp only
  rw [hat'.disk]
  by_cases hmem : name :: parent ∈ disk'
  · have hexists : disk'.exists? (name :: parent) = true := by
      simp [Disk.exists?, AList.lookup_isSome.mpr hmem]
    rw [if_pos hexists, wp_throw]
    exact ⟨rfl, disk', hat', hmakes.of_mem hcreatable hmem⟩
  · have hexists : disk'.exists? (name :: parent) = false := by
      simp [Disk.exists?, AList.lookup_eq_none.mpr hmem]
    rw [if_neg (by rw [hexists]; exact Bool.false_ne_true), List.tail_cons, if_pos hmakes.made,
      wp_modify]
    exact ⟨_, ⟨by rw [hat'.disk], hat'.sent⟩, hmakes.insert hmem⟩

/-- The directories on the way are made from the root on. -/
theorem wp_makedirs (hreliable : env.Reliable) (hcreatable : disk.Creatable path)
    (hat : h.At disk sent) :
    Wp (makedirs env path) (fun _ h' => ∃ disk', h'.At disk' sent ∧ Makes path disk disk')
      (fun e h' => e = .os eexist ∧ ∃ disk', h'.At disk' sent ∧ Makes path disk disk') h := by
  induction path generalizing h with
  | nil =>
    rw [makedirs, mkdir, wp_bind]
    refine (ensures_operation hreliable hat).mono ?_ (fun _ _ hfalse => hfalse.elim)
    intro _ h' hat'
    exact ⟨rfl, disk, hat', .refl rfl⟩
  | cons name parent ih =>
    have hparent : disk.Creatable parent := fun dir hdir =>
      hcreatable dir (hdir.trans (List.suffix_cons name parent))
    rw [makedirs, wp_bind, wp_get]
    dsimp only
    rw [hat.disk]
    by_cases hexists : disk.exists? parent = true
    · have hdir : disk.isDir parent = true := by
        unfold Disk.exists? at hexists
        unfold Disk.isDir
        rcases Bool.or_eq_true_iff.mp hexists with hroot | hsome
        · rw [hroot, Bool.true_or]
        · obtain ⟨node, hnode⟩ := Option.isSome_iff_exists.mp hsome
          rw [hnode, hparent parent List.suffix_rfl node hnode]
          simp
      rw [if_neg (by simp [hexists])]
      exact wp_mkdir hreliable hcreatable (.refl hdir) hat
    · rw [if_pos (by simp [hexists]), wp_bind, wp_tryCatch]
      refine (ih hparent hat).mono ?_ ?_
      · rintro _ h' ⟨disk', hat', hmakes⟩
        exact wp_mkdir hreliable hcreatable hmakes hat'
      · rintro e h' ⟨rfl, disk', hat', hmakes⟩
        rw [if_pos rfl]
        exact wp_mkdir hreliable hcreatable hmakes hat'

/-- `make_dirs` makes the directory, and those on the way to it. -/
theorem ensures_makeDirs (hreliable : env.Reliable) (hcreatable : disk.Creatable path)
    (hat : h.At disk sent) :
    Ensures (makeDirs env path) (fun _ h' => ∃ disk', h'.At disk' sent ∧ Makes path disk disk')
      h := by
  unfold makeDirs
  rw [Ensures, wp_tryCatch]
  refine (wp_makedirs hreliable hcreatable hat).mono (fun _ _ h' => h') ?_
  rintro e h' ⟨rfl, disk', hat', hmakes⟩
  rw [wp_bind, wp_get, hat'.disk, hmakes.made]
  exact ⟨disk', hat', hmakes⟩

theorem ensures_listdir (hreliable : env.Reliable) (hdir : resolve env.cwd text = path)
    (hisDir : disk.isDir path = true) (hat : h.At disk sent) :
    Ensures (listdir env text) (fun names h' => h'.At disk sent ∧
      ∃ n, names = env.order n (disk.names path)) h := by
  unfold listdir
  refine (ensures_operation hreliable hat).bind ?_
  intro _ h' hat'
  rw [Ensures, wp_bind, wp_get]
  dsimp only
  rw [hat'.disk, hdir, if_pos hisDir]
  exact ⟨hat', h'.operations, rfl⟩

end Directories

/-! ## Files -/

section Files

theorem Writable.path_ne_nil (hwritable : Writable env disk text path) : path ≠ [] := by
  rintro rfl
  exact Bool.noConfusion hwritable.file

/-- A file is opened for writing: its directory was made, and it is empty. -/
theorem ensures_safeOpenW (hreliable : env.Reliable) (hwritable : Writable env disk text path)
    (hat : h.At disk sent) :
    Ensures (safeOpenW env text) (fun path' h' => path' = path ∧
      ∃ disk', Makes path.tail disk disk' ∧ h'.At (disk'.put path []) sent) h := by
  have hopen {h' : Host} {disk' : Disk} (hmakes : Makes path.tail disk disk')
      (hat' : h'.At disk' sent) : Ensures (openWrite env text) (fun path' h' => path' = path ∧
        ∃ disk', Makes path.tail disk disk' ∧ h'.At (disk'.put path []) sent) h' := by
    have hfile : disk'.isDir path = false := by
      obtain ⟨name, parent, rfl⟩ := List.exists_cons_of_ne_nil hwritable.path_ne_nil
      have hlookup : disk'.lookup (name :: parent) = disk.lookup (name :: parent) :=
        hmakes.lookup_eq fun hsuffix => by simpa using hsuffix.length_le
      have hfile := hwritable.file
      unfold Disk.isDir at hfile ⊢
      rw [hlookup, hfile]
    unfold openWrite
    rw [if_neg (by rw [hwritable.nul]; exact Bool.false_ne_true)]
    refine (ensures_operation hreliable hat').bind ?_
    intro _ h'' hat''
    rw [Ensures, wp_bind, wp_get]
    dsimp only
    rw [hwritable.target]
    dsimp only
    rw [hat''.disk, if_neg (by rw [hfile]; exact Bool.false_ne_true), if_pos hmakes.made, wp_bind,
      wp_modify]
    exact ⟨rfl, disk', hmakes, by rw [hat''.disk], hat''.sent⟩
  unfold safeOpenW
  dsimp only
  by_cases hdir : dirname text = []
  · rw [if_neg (not_not.mpr hdir)]
    exact hopen (.refl (hwritable.parent hdir)) hat
  · rw [if_pos hdir, resolve_dirname hwritable.target hdir]
    refine (ensures_makeDirs hreliable hwritable.creatable hat).bind ?_
    rintro _ h' ⟨disk', hat', hmakes⟩
    exact hopen hmakes hat'

theorem ensures_write (hreliable : env.Reliable) (hcontent : disk.content path = some content)
    (hat : h.At disk sent) :
    Ensures (write env path data) (fun _ h' => h'.At (disk.put path (content ++ data)) sent) h := by
  unfold write
  refine (ensures_operate hreliable hat).bind ?_
  rintro fault h' ⟨rfl, hat'⟩
  rw [Ensures, wp_bind, wp_modify]
  exact ⟨by rw [hat'.disk, hcontent]; rfl, hat'.sent⟩

theorem ensures_openRead (hreliable : env.Reliable)
    (hreadable : Readable env disk text path content) (hat : h.At disk sent) :
    Ensures (openRead env text) (fun path' h' => path' = path ∧ h'.At disk sent) h := by
  have hlookup := Disk.content_eq_some.mp hreadable.content
  unfold openRead
  rw [if_neg (by rw [hreadable.nul]; exact Bool.false_ne_true)]
  refine (ensures_operation hreliable hat).bind ?_
  intro _ h' hat'
  rw [Ensures, wp_bind, wp_get]
  dsimp only
  rw [hreadable.target]
  dsimp only
  rw [hat'.disk, if_neg (by simp [Disk.isDir, hlookup, target_ne_nil hreadable.target]),
    if_pos (by simp [Disk.exists?, hlookup])]
  exact ⟨rfl, hat'⟩

/-- A file that was opened for reading is there. -/
theorem allows_openRead (hreliable : env.Reliable) (hat : h.At disk sent) :
    Allows (openRead env text) (fun path h' => h'.At disk sent ∧
      ∃ content, Readable env disk text path content) h := by
  unfold openRead
  cases hnul : text.contains 0 with
  | true =>
    rw [if_pos rfl]
    trivial
  | false =>
    rw [if_neg Bool.false_ne_true]
    refine (ensures_operation hreliable hat).allows.bind ?_
    intro _ h' hat'
    rw [Allows, wp_bind, wp_get]
    dsimp only
    rw [hat'.disk]
    cases htarget : target env.cwd text with
    | none => trivial
    | some path =>
      dsimp only
      split
      · trivial
      · rename_i hdir
        split
        · rename_i hexists
          obtain ⟨content, hcontent⟩ := Disk.exists_content hexists hdir
          exact ⟨hat', content, hnul, htarget, hcontent⟩
        · trivial

theorem ensures_read (hreliable : env.Reliable) (hcontent : disk.content path = some content)
    (hat : h.At disk sent) (position size : ℕ) :
    Ensures (read env path position size)
      (fun bytes h' => bytes = (content.drop position).take size ∧ h'.At disk sent) h := by
  unfold read
  refine (ensures_operation hreliable hat).bind ?_
  intro _ h' hat'
  rw [Ensures, wp_bind, wp_get, hat'.disk, hcontent]
  exact ⟨rfl, hat'⟩

theorem ensures_readAll (hreliable : env.Reliable) (hcontent : disk.content path = some content)
    (hat : h.At disk sent) :
    Ensures (readAll env path) (fun bytes h' => bytes = content ∧ h'.At disk sent) h := by
  unfold readAll
  refine (ensures_operation hreliable hat).bind ?_
  intro _ h' hat'
  rw [Ensures, wp_bind, wp_get, hat'.disk, hcontent]
  exact ⟨rfl, hat'⟩

theorem ensures_stat (hreliable : env.Reliable) (hreadable : Readable env disk text path content)
    (hat : h.At disk sent) :
    Ensures (stat env text) (fun size h' => size = content.length ∧ h'.At disk sent) h := by
  have hlookup := Disk.content_eq_some.mp hreadable.content
  have htarget := hreadable.target
  unfold target at htarget
  split at htarget
  · unfold stat
    refine (ensures_operation hreliable hat).bind ?_
    intro _ h' hat'
    rw [Ensures, wp_bind, wp_get]
    dsimp only
    rw [Option.some.inj htarget, hat'.disk, if_pos (by simp [Disk.exists?, hlookup]),
      hreadable.content]
    exact ⟨rfl, hat'⟩
  · cases htarget

end Files

end ClickA.Files
