import ClickA.Python.Disk
import ClickA.Python.Effect
import Mathlib.Logic.Function.Basic

/-!
# Symbolic links

Files and links, and what is used of `os` where there may be links. Directories are there, and none
of them is a link, so that the text of a path names it by itself.

## Main definitions

* `Entries`: what is at each path
* `Entries.exists?`: `os.path.exists(path)`, which follows links
* `remove`, `rename`, `symlink`, `openFile`: what is used of `os`

## Main results

* `exists_of_notLink`, `exists_of_link`: a link exists where what it points to does
* `remove_eq`, `rename_eq`, `symlink_eq`, `openFile_cases`: what the statements do
-/

namespace Python.Links

/-- What is at a path: a file, or a link with the text of another path. -/
inductive Entry
  | file
  | link (text : Bytes)
deriving DecidableEq, Repr

/-- What is at each path. -/
abbrev Entries := Path → Option Entry

/-- An error of the operating system. -/
inductive OsError
  | enoent
  | eexist
  | eloop
deriving DecidableEq, Repr

/-- How many links are followed. -/
def maxLinks : ℕ := 40

/-- The path behind links, each of which is read in its own directory. -/
def Entries.follow (entries : Entries) : ℕ → Path → Option Path
  | 0, _ => none
  | n + 1, path =>
    match entries path with
    | some (.link text) => entries.follow n (resolve path.tail text)
    | _ => some path

/-- `os.path.exists(path)`. -/
def Entries.exists? (entries : Entries) (path : Path) : Bool :=
  match entries.follow (maxLinks + 1) path with
  | some path => (entries path).isSome
  | none => false

abbrev Stmt := EStateM OsError Entries

/-- `os.path.exists(path)`, as a statement. -/
def pathExists (path : Path) : Stmt Bool := do return (← get).exists? path

/-- `os.remove(path)`. -/
def remove (path : Path) : Stmt Unit := do
  if (← get) path = none then throw .enoent
  modify fun entries => Function.update entries path none

/-- `os.rename(src, dst)`, which replaces what is at the other path. -/
def rename (src dst : Path) : Stmt Unit := do
  let entry := (← get) src
  if entry = none then throw .enoent
  if src ≠ dst then
    modify fun entries => Function.update (Function.update entries src none) dst entry

/-- `os.symlink(text, path)`, which does not replace anything. -/
def symlink (text : Bytes) (path : Path) : Stmt Unit := do
  if (← get) path ≠ none then throw .eexist
  modify fun entries => Function.update entries path (some (.link text))

/-- The modes in which a file is opened. -/
inductive Mode
  | read
  | write
  | append
deriving DecidableEq, Repr

/-- `open(path, mode)`: a file that is missing is made, behind links, unless it is only read. -/
def openFile (mode : Mode) (path : Path) : Stmt Unit := do
  match (← get).follow (maxLinks + 1) path with
  | none => throw .eloop
  | some path =>
    if (← get) path = none then
      if mode = .read then throw .enoent
      else modify fun entries => Function.update entries path (some .file)

section Lemmas

variable {entries : Entries} {path src dst : Path} {text : Bytes} {entry : Entry} {mode : Mode}

/-- The path is not a link. -/
def NotLink (entries : Entries) (path : Path) : Prop := ∀ text, entries path ≠ some (.link text)

theorem follow_of_notLink (h : NotLink entries path) (n : ℕ) :
    entries.follow (n + 1) path = some path := by
  rw [Entries.follow]
  split
  · rename_i text hlink
    exact absurd hlink (h text)
  · rfl

theorem exists_of_notLink (h : NotLink entries path) :
    entries.exists? path = (entries path).isSome := by
  rw [Entries.exists?, follow_of_notLink h]

/-- A link exists where the other path does. -/
theorem exists_of_link (hlink : entries path = some (.link text))
    (h : NotLink entries (resolve path.tail text)) :
    entries.exists? path = (entries (resolve path.tail text)).isSome := by
  have hfollow : entries.follow (maxLinks + 1) path = some (resolve path.tail text) := by
    rw [Entries.follow, hlink]
    exact follow_of_notLink h 39
  rw [Entries.exists?, hfollow]

/-- What exists is a file or a link. -/
theorem exists_entry (h : entries.exists? path = true) : ∃ entry, entries path = some entry := by
  cases hentry : entries path with
  | some entry => exact ⟨entry, rfl⟩
  | none =>
    have hnot : NotLink entries path := fun text => hentry ▸ (Option.some_ne_none _).symm
    rw [exists_of_notLink hnot, hentry] at h
    exact absurd h Bool.false_ne_true

/-- What is not a link is a file or missing. -/
theorem exists_text (h : ¬ NotLink entries path) : ∃ text, entries path = some (.link text) := by
  unfold NotLink at h
  push Not at h
  exact h

theorem pathExists_eq : pathExists path entries = .ok (entries.exists? path) entries := rfl

theorem remove_eq (h : entries path ≠ none) :
    remove path entries = .ok () (Function.update entries path none) := by
  rw [remove, bind_get, if_neg h]
  rfl

theorem rename_eq (hentry : entries src = some entry) (hne : src ≠ dst) :
    rename src dst entries =
      .ok () (Function.update (Function.update entries src none) dst (some entry)) := by
  rw [rename, bind_get, hentry, if_neg (Option.some_ne_none entry), if_pos hne]
  rfl

theorem symlink_eq (h : entries path = none) :
    symlink text path entries = .ok () (Function.update entries path (some (.link text))) := by
  rw [symlink, bind_get, if_neg (not_not.mpr h)]
  rfl

theorem symlink_eq_error (h : entries path ≠ none) :
    symlink text path entries = .error .eexist entries := by
  rw [symlink, bind_get, if_pos h]
  rfl

/-- What is opened at a path that is no link is a file or missing before, and a file behind it. -/
theorem openFile_cases (h : NotLink entries path) (mode : Mode) :
    (∃ e, openFile mode path entries = .error e entries) ∨
      ∃ entries', openFile mode path entries = .ok () entries' ∧
        (entries' = entries ∨ entries' = Function.update entries path (some .file)) := by
  rw [openFile, bind_get, follow_of_notLink h]
  dsimp only
  rw [bind_get]
  by_cases hmissing : entries path = none
  · rw [if_pos hmissing]
    by_cases hread : mode = .read
    · rw [if_pos hread]
      exact .inl ⟨_, rfl⟩
    · rw [if_neg hread]
      exact .inr ⟨_, rfl, .inr rfl⟩
  · rw [if_neg hmissing]
    exact .inr ⟨_, rfl, .inl rfl⟩

end Lemmas

end Python.Links
