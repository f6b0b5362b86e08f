import ClickA.Python.Decimal
import Mathlib.Data.List.AList
import Mathlib.Data.List.TakeWhile

/-!
# Disks

A disk without links: what is at each path, and how the text of a path names it.

## Main definitions

* `Path`, `Node`, `Disk`: what is at each path
* `Disk.isDir`, `Disk.content`, `Disk.names`: a directory, the content of a file, the names in a
  directory
* `Disk.Creatable`, `Disk.Makes`: a directory can be made, and was
* `resolve`, `target`, `dirname`: the path that a text names

## Main results

* `mem_names`, `nodup_names`: the names in a directory
* `content_put`: what is written at a path
* `Makes.lookup_eq`, `Makes.content_eq_some`: what a directory leaves as it was
* `resolve_append`, `target_append`, `dirname_append`: the text of a path in a directory
* `resolve_dirname`: the directory of a file
-/

namespace Python

/-- A name in a directory. -/
abbrev Name := Bytes

/-- A path, from the file up to the root. -/
abbrev Path := List Name

/-- What is at a path. -/
inductive Node
  | file (content : Bytes)
  | dir
deriving DecidableEq

/-- What is at each path below the root. -/
abbrev Disk := AList fun _ : Path => Node

namespace Disk

/-- The path is a directory. -/
def isDir (disk : Disk) (path : Path) : Bool :=
  path = [] || disk.lookup path = some .dir

/-- The content of a file. -/
def content (disk : Disk) (path : Path) : Option Bytes :=
  match disk.lookup path with
  | some (.file content) => some content
  | _ => none

/-- There is something at the path. -/
def exists? (disk : Disk) (path : Path) : Bool := path = [] || (disk.lookup path).isSome

/-- The name of a path in a directory. -/
def nameIn (dir : Path) : Path → Option Name
  | [] => none
  | name :: parent => if parent = dir then some name else none

/-- The names in a directory. -/
def names (disk : Disk) (dir : Path) : List Name := disk.keys.filterMap (nameIn dir)

/-- A file is written. -/
def put (disk : Disk) (path : Path) (content : Bytes) : Disk := disk.insert path (.file content)

section Lemmas

variable {disk : Disk} {dir path path' : Path} {name : Name} {bytes : Bytes}

theorem nameIn_eq_some : nameIn dir path = some name ↔ path = name :: dir := by
  cases path with
  | nil => simp [nameIn]
  | cons name' parent =>
    rw [List.cons.injEq]
    show (if parent = dir then some name' else none) = some name ↔ _
    split
    · rename_i h
      simp [h]
    · rename_i h
      simp [h]

theorem mem_names : name ∈ disk.names dir ↔ name :: dir ∈ disk := by
  unfold names
  rw [List.mem_filterMap, AList.mem_keys]
  constructor
  · rintro ⟨path, hpath, hname⟩
    rw [nameIn_eq_some] at hname
    exact hname ▸ hpath
  · exact fun h => ⟨name :: dir, h, nameIn_eq_some.mpr rfl⟩

theorem nodup_names : (disk.names dir).Nodup := by
  refine List.Nodup.filterMap ?_ disk.keys_nodup
  intro path path' name h h'
  rw [Option.mem_def, nameIn_eq_some] at h h'
  rw [h, h']

/-- What is written last stays. -/
@[simp] theorem put_put (bytes' : Bytes) :
    (disk.put path bytes).put path bytes' = disk.put path bytes' := by
  unfold put
  rw [AList.insert_insert]

@[simp] theorem content_put : (disk.put path bytes).content path = some bytes := by
  unfold content put
  rw [AList.lookup_insert]

theorem content_put_of_ne (h : path' ≠ path) :
    (disk.put path bytes).content path' = disk.content path' := by
  unfold content put
  rw [AList.lookup_insert_ne h]

theorem isDir_put_of_ne (h : path' ≠ path) :
    (disk.put path bytes).isDir path' = disk.isDir path' := by
  unfold isDir put
  rw [AList.lookup_insert_ne h]

theorem mem_put : path' ∈ disk.put path bytes ↔ path' = path ∨ path' ∈ disk :=
  AList.mem_insert disk

theorem content_eq_none_of_isDir (h : disk.isDir path = true) (hpath : path ≠ []) :
    disk.content path = none := by
  unfold isDir at h
  unfold content
  rcases Bool.or_eq_true_iff.mp h with h | h
  · exact absurd (of_decide_eq_true h) hpath
  · rw [of_decide_eq_true h]

theorem content_eq_some : disk.content path = some bytes ↔
    disk.lookup path = some (.file bytes) := by
  unfold content
  split
  · rename_i content h
    simp [h]
  · rename_i h
    exact ⟨fun hnone => (Option.some_ne_none bytes hnone.symm).elim, fun hfile =>
      (h bytes hfile).elim⟩

/-- What is there and is no directory is a file. -/
theorem exists_content (hexists : disk.exists? path = true) (hdir : ¬ disk.isDir path = true) :
    ∃ bytes, disk.content path = some bytes := by
  unfold exists? at hexists
  unfold isDir at hdir
  rw [Bool.or_eq_true, not_or] at hdir
  obtain ⟨node, hnode⟩ := Option.isSome_iff_exists.mp
    ((Bool.or_eq_true_iff.mp hexists).resolve_left hdir.1)
  cases node with
  | file bytes => exact ⟨bytes, content_eq_some.mpr hnode⟩
  | dir => exact absurd (decide_eq_true hnode) hdir.2

theorem mem_of_content (h : disk.content path = some bytes) : path ∈ disk :=
  AList.lookup_isSome.mp (Option.isSome_of_eq_some (content_eq_some.mp h))

end Lemmas

/-! ## Directories that are made -/

/-- No file stands where a directory on the way to a path has to be. -/
def Creatable (disk : Disk) (path : Path) : Prop :=
  ∀ dir, dir <:+ path → ∀ node, disk.lookup dir = some node → node = .dir

/-- A directory was made, with those on the way to it that were missing. -/
structure Makes (path : Path) (disk disk' : Disk) : Prop where
  kept : ∀ p ∈ disk, disk'.lookup p = disk.lookup p
  fresh : ∀ p ∉ disk, p ∈ disk' → p <:+ path ∧ disk'.lookup p = some .dir
  made : disk'.isDir path = true

section Makes

variable {disk disk' : Disk} {path parent p : Path} {name : Name}

theorem Makes.refl (h : disk.isDir path = true) : Makes path disk disk :=
  ⟨fun _ _ => rfl, fun _ hnot hmem => absurd hmem hnot, h⟩

/-- The last directory on the way was there. -/
theorem Makes.of_mem (hmakes : Makes parent disk disk')
    (hcreatable : disk.Creatable (name :: parent))
    (hmem : name :: parent ∈ disk') : Makes (name :: parent) disk disk' where
  kept := hmakes.kept
  fresh := by
    intro p hnot hp
    obtain ⟨hsuffix, hdir⟩ := hmakes.fresh p hnot hp
    exact ⟨hsuffix.trans (List.suffix_cons name parent), hdir⟩
  made := by
    have hdir : disk'.lookup (name :: parent) = some .dir := by
      by_cases hold : name :: parent ∈ disk
      · obtain ⟨node, hnode⟩ := Option.isSome_iff_exists.mp (AList.lookup_isSome.mpr hold)
        rw [hmakes.kept _ hold, hnode, hcreatable _ List.suffix_rfl node hnode]
      · exact (hmakes.fresh _ hold hmem).2
    unfold isDir
    rw [hdir]
    simp

/-- The last directory on the way is made. -/
theorem Makes.insert (hmakes : Makes parent disk disk') (hnot : name :: parent ∉ disk') :
    Makes (name :: parent) disk (disk'.insert (name :: parent) .dir) where
  kept := by
    intro p hp
    have hne : p ≠ name :: parent := by
      rintro rfl
      have hlookup := hmakes.kept _ hp
      rw [AList.lookup_eq_none.mpr hnot] at hlookup
      exact AList.lookup_eq_none.mp hlookup.symm hp
    rw [AList.lookup_insert_ne hne, hmakes.kept p hp]
  fresh := by
    intro p hp hmem
    by_cases hne : p = name :: parent
    · subst hne
      exact ⟨List.suffix_rfl, AList.lookup_insert disk'⟩
    · rw [AList.lookup_insert_ne hne]
      obtain ⟨hsuffix, hdir⟩ :=
        hmakes.fresh p hp (((AList.mem_insert disk').mp hmem).resolve_left hne)
      exact ⟨hsuffix.trans (List.suffix_cons name parent), hdir⟩
  made := by
    unfold isDir
    rw [AList.lookup_insert]
    simp

/-- A file that is written beside the way does not matter. -/
theorem Creatable.put {bytes : Bytes} (h : disk.Creatable path) (hp : ¬ p <:+ path) :
    (disk.put p bytes).Creatable path := by
  intro dir hdir node hnode
  have hne : dir ≠ p := fun heq => hp (heq ▸ hdir)
  unfold Disk.put at hnode
  rw [AList.lookup_insert_ne hne] at hnode
  exact h dir hdir node hnode

/-- What is not on the way is as it was. -/
theorem Makes.lookup_eq (hmakes : Makes path disk disk') (h : ¬ p <:+ path) :
    disk'.lookup p = disk.lookup p := by
  by_cases hold : p ∈ disk
  · exact hmakes.kept p hold
  · have hnew : p ∉ disk' := fun hmem => h (hmakes.fresh p hold hmem).1
    rw [AList.lookup_eq_none.mpr hold, AList.lookup_eq_none.mpr hnew]

/-- Files are as they were. -/
theorem Makes.content_eq_some {bytes : Bytes} (hmakes : Makes path disk disk')
    (h : disk.content p = some bytes) : disk'.content p = some bytes := by
  rw [Disk.content_eq_some] at h ⊢
  rw [hmakes.kept p (mem_of_content (Disk.content_eq_some.mpr h)), h]

/-- Where a directory can be made, it still can. -/
theorem Makes.creatable {way : Path} (hmakes : Makes path disk disk')
    (h : disk.Creatable way) : disk'.Creatable way := by
  intro dir hdir node hnode
  by_cases hold : dir ∈ disk
  · exact h dir hdir node (by rw [← hnode, hmakes.kept dir hold])
  · have hmem : dir ∈ disk' := AList.lookup_isSome.mp (Option.isSome_of_eq_some hnode)
    rw [(hmakes.fresh dir hold hmem).2] at hnode
    exact (Option.some.inj hnode).symm

end Makes

end Disk

/-! ## Texts of paths -/

/-- The byte between the names of a path. -/
def slash : UInt8 := 47

/-- The name is none of the names that do not lead into a directory. -/
def plain (name : Name) : Bool := name ≠ [] && name ≠ ascii "." && name ≠ ascii ".."

/-- A name leads from a path to another one. -/
def walk (path : Path) (name : Name) : Path :=
  if name = [] ∨ name = ascii "." then path
  else if name = ascii ".." then path.tail
  else name :: path

/-- The path that a text names, in a working directory. -/
def resolve (cwd : Path) (text : Bytes) : Path :=
  (splitAt slash text).foldl walk (if text.head? = some slash then [] else cwd)

/-- The path of a file that a text names: the last name is a plain one. -/
def target (cwd : Path) (text : Bytes) : Option Path :=
  if plain ((splitAt slash text).getLastD []) then some (resolve cwd text) else none

/-- `os.path.dirname(text)`. -/
def dirname (text : Bytes) : Bytes :=
  let head := (text.reverse.dropWhile (· ≠ slash)).reverse
  if head.all (· = slash) then head else (head.reverse.dropWhile (· = slash)).reverse

section Texts

variable {cwd : Path} {dir text : Bytes} {name : Name}

theorem walk_of_plain {path : Path} (h : plain name = true) : walk path name = name :: path := by
  unfold plain at h
  simp only [Bool.and_eq_true, decide_eq_true_eq] at h
  unfold walk
  rw [if_neg (by simp [h.1.1, h.1.2]), if_neg h.2]

/-- A number is a name. -/
theorem plain_str (n : ℕ) : plain (str n) = true := by
  have hne : ∀ s : Bytes, s.all isDigit = false → str n ≠ s := fun s hs heq => by
    rw [← heq, all_isDigit_str] at hs
    exact Bool.noConfusion hs
  unfold plain
  simp [str_ne_nil, hne (ascii ".") (by decide), hne (ascii "..") (by decide)]

/-- A file is in a directory. -/
theorem target_ne_nil {path : Path} (h : target cwd text = some path) : path ≠ [] := by
  unfold target at h
  split at h
  · rename_i hplain
    have hparts : splitAt slash text = (splitAt slash text).dropLast ++
        [(splitAt slash text).getLastD []] := by
      rw [List.getLastD_eq_getLast?, List.getLast?_eq_some_getLast (splitAt_ne_nil slash text),
        Option.getD_some, List.dropLast_append_getLast]
    rw [← Option.some.inj h]
    unfold resolve
    rw [hparts, List.foldl_append, List.foldl_cons, List.foldl_nil, walk_of_plain hplain]
    exact List.cons_ne_nil _ _
  · cases h

/-- A name behind the text of a directory. -/
theorem resolve_append (hplain : plain name = true) (hslash : slash ∉ name) (hdir : dir ≠ []) :
    resolve cwd (dir ++ slash :: name) = name :: resolve cwd dir := by
  have hhead : (dir ++ slash :: name).head? = dir.head? := by
    cases dir with
    | nil => exact absurd rfl hdir
    | cons b dir => rfl
  unfold resolve
  rw [hhead, splitAt_append, List.foldl_append, splitAt_of_not_mem hslash, List.foldl_cons,
    List.foldl_nil, walk_of_plain hplain]

/-- A name at the root. -/
theorem resolve_root (hplain : plain name = true) (hslash : slash ∉ name) :
    resolve cwd (slash :: name) = [name] := by
  unfold resolve
  rw [List.head?_cons, if_pos rfl, splitAt_cons, splitAt_of_not_mem hslash]
  exact walk_of_plain hplain

theorem target_append (hplain : plain name = true) (hslash : slash ∉ name) (hdir : dir ≠ []) :
    target cwd (dir ++ slash :: name) = some (name :: resolve cwd dir) := by
  unfold target
  rw [splitAt_append, splitAt_of_not_mem hslash, List.getLastD_concat, if_pos hplain,
    resolve_append hplain hslash hdir]

/-- The text of a directory goes up to the last slash. -/
theorem exists_append_of_mem (h : slash ∈ text) :
    ∃ front name, text = front ++ slash :: name ∧ slash ∉ name := by
  induction text with
  | nil => exact absurd h List.not_mem_nil
  | cons b text ih =>
    by_cases hmem : slash ∈ text
    · obtain ⟨front, name, rfl, hname⟩ := ih hmem
      exact ⟨b :: front, name, rfl, hname⟩
    · rcases List.mem_cons.mp h with rfl | h
      · exact ⟨[], text, rfl, hmem⟩
      · exact absurd h hmem

theorem foldl_walk_slashes (k : ℕ) (path : Path) :
    (splitAt slash (List.replicate k slash)).foldl walk path = path := by
  induction k with
  | zero => rfl
  | succ k ih =>
    rw [List.replicate_succ, splitAt_cons, List.foldl_cons]
    exact ih

/-- Slashes behind the text of a directory do not matter. -/
theorem resolve_append_slashes (hdir : dir ≠ []) (k : ℕ) :
    resolve cwd (dir ++ List.replicate k slash) = resolve cwd dir := by
  cases k with
  | zero => rw [List.replicate_zero, List.append_nil]
  | succ k =>
    have hhead : (dir ++ List.replicate (k + 1) slash).head? = dir.head? := by
      cases dir with
      | nil => exact absurd rfl hdir
      | cons b dir => rfl
    unfold resolve
    rw [hhead, List.replicate_succ, splitAt_append, List.foldl_append, foldl_walk_slashes]

theorem head_of_append (front : Bytes) (hslash : slash ∉ name) :
    ((front ++ slash :: name).reverse.dropWhile (· ≠ slash)).reverse = front ++ [slash] := by
  have hname : ∀ b ∈ name.reverse, decide (b ≠ slash) = true := fun b hb =>
    decide_eq_true fun h => hslash (h ▸ List.mem_reverse.mp hb)
  have hreverse : (front ++ slash :: name).reverse = name.reverse ++ slash :: front.reverse := by
    simp
  rw [hreverse, List.dropWhile_append_of_pos hname, List.dropWhile_cons_of_neg (by simp)]
  simp

theorem dirname_append (hslash : slash ∉ name) (hdir : dir ≠ [])
    (hlast : dir.getLast? ≠ some slash) : dirname (dir ++ slash :: name) = dir := by
  obtain ⟨front, b, rfl⟩ : ∃ front b, dir = front ++ [b] := by
    rcases List.eq_nil_or_concat dir with rfl | ⟨front, b, rfl⟩
    · exact absurd rfl hdir
    · exact ⟨front, b, List.concat_eq_append⟩
  have hb : b ≠ slash := fun h => hlast (by simp [h])
  unfold dirname
  rw [head_of_append _ hslash]
  simp [hb]

/-- Without the slashes at its end, a text leads to the same path. -/
theorem resolve_strip (h : (text.reverse.dropWhile (· = slash)).reverse ≠ []) :
    resolve cwd (text.reverse.dropWhile (· = slash)).reverse = resolve cwd text := by
  have hslashes : ∀ b ∈ text.reverse.takeWhile (· = slash), b = slash := by
    intro b hb
    have hb := List.mem_takeWhile_imp hb
    exact of_decide_eq_true hb
  obtain ⟨k, hk⟩ : ∃ k, text.reverse.takeWhile (· = slash) = List.replicate k slash :=
    ⟨_, List.eq_replicate_iff.mpr ⟨rfl, hslashes⟩⟩
  have htext : text =
      (text.reverse.dropWhile (· = slash)).reverse ++ List.replicate k slash := by
    rw [← List.reverse_replicate, ← hk, ← List.reverse_append, List.takeWhile_append_dropWhile,
      List.reverse_reverse]
  conv_rhs => rw [htext]
  exact (resolve_append_slashes h k).symm

/-- **The directory of a file** is where its text without the last name leads. -/
theorem resolve_dirname {path : Path} (htarget : target cwd text = some path)
    (hdir : dirname text ≠ []) : resolve cwd (dirname text) = path.tail := by
  by_cases hmem : slash ∈ text
  · obtain ⟨front, name, rfl, hname⟩ := exists_append_of_mem hmem
    unfold target at htarget
    split at htarget
    · rename_i hplain
      rw [splitAt_append, splitAt_of_not_mem hname, List.getLastD_concat] at hplain
      have hfront : resolve cwd (dirname (front ++ slash :: name)) =
          resolve cwd (front ++ [slash]) := by
        unfold dirname at hdir ⊢
        rw [head_of_append front hname] at hdir ⊢
        dsimp only at hdir ⊢
        split at hdir
        · rw [if_pos ‹_›]
        · rw [if_neg ‹_›]
          exact resolve_strip hdir
      rw [hfront, ← Option.some.inj htarget]
      cases front with
      | nil =>
        rw [List.nil_append, List.nil_append, resolve_root hplain hname]
        rfl
      | cons b front =>
        rw [resolve_append hplain hname (List.cons_ne_nil b front)]
        exact resolve_append_slashes (List.cons_ne_nil b front) 1
    · cases htarget
  · have hall : text.reverse.dropWhile (· ≠ slash) = [] :=
      List.dropWhile_eq_nil_iff.mpr fun b hb =>
        decide_eq_true fun h => hmem (h ▸ List.mem_reverse.mp hb)
    exact absurd (by unfold dirname; rw [hall]; rfl) hdir

/-- A text with a slash has a directory. -/
theorem dirname_ne_nil (h : slash ∈ text) : dirname text ≠ [] := by
  obtain ⟨front, name, rfl, hname⟩ := exists_append_of_mem h
  unfold dirname
  rw [head_of_append front hname]
  dsimp only
  split
  · exact List.append_ne_nil_of_right_ne_nil _ (List.cons_ne_nil slash [])
  · rename_i hall
    intro hnil
    apply hall
    rw [List.reverse_eq_nil_iff, List.dropWhile_eq_nil_iff] at hnil
    exact List.all_eq_true.mpr fun b hb => hnil b (List.mem_reverse.mpr hb)

/-- An absolute text names a path in any working directory. -/
theorem resolve_of_absolute (h : text.head? = some slash) (cwd cwd' : Path) :
    resolve cwd text = resolve cwd' text := by
  unfold resolve
  rw [if_pos h, if_pos h]

theorem resolve_of_target {path : Path} (h : target cwd text = some path) :
    resolve cwd text = path := by
  unfold target at h
  split at h
  · exact Option.some.inj h
  · cases h

end Texts

end Python
