import ClickA.Files.Moves
import ClickA.Machine.Run
import ClickA.Python.Links

/-!
# Links to the latest logs

`file_manager.py`: each construction of a `ManagedFileOpen` makes the link `0` to its file, behind
shifting the links `0` to `9` to `1` to `10`. A link whose file was deleted does not exist for
`os.path.exists`, and is not shifted.

## Main definitions

* `updateSymlink`: `update_symlink`
* `LogName`, `Action`, `step`: constructions in a directory, and logs that are deleted
* `Rotated`: what the links must be
* `Spares`: the logs that a construction needs

## Main results

* `wp_updateSymlink`: where `update_symlink` ends normally, and what it makes of the links
* `always_rotated`: the links are those of the latest constructions if each of these finds the logs
  that it needs
-/

namespace ClickA.Logs

open Options Machine Python Python.Links

/-! ## The code -/

section Code

variable (cwd : Path)

/-- A turn of the loop: a link is shifted, if it exists. -/
def shift (path symPathPast : Bytes) (idx : ℕ) : Links.Stmt Bytes := do
  let symPathCurrent := Files.join path (str (idx - 1))
  if ← pathExists (resolve cwd symPathCurrent) then
    rename (resolve cwd symPathCurrent) (resolve cwd symPathPast)
  return symPathCurrent

/-- `range(SYMLINK_MAX, 0, -1)`. -/
def indices : List ℕ := (List.range symlinkMax).reverse.map (· + 1)

/-- `update_symlink`, of a file in the directory `path`. -/
def updateSymlink (path name : Bytes) : Links.Stmt Unit := do
  let symPathCurrent := Files.join path (str symlinkMax)
  if ← pathExists (resolve cwd symPathCurrent) then remove (resolve cwd symPathCurrent)
  let _ ← indices.foldlM (shift cwd path) symPathCurrent
  symlink name (resolve cwd (Files.join path (ascii "0")))

end Code

/-! ## Runs -/

/-- The absolute name of a file in a directory. -/
structure LogName (dir : Path) where
  text : Bytes
  base : Name
  absolute : text.head? = some slash
  target_eq : target [] text = some (base :: dir)

/-- The path that it names. -/
def LogName.path {dir : Path} (name : LogName dir) : Path := name.base :: dir

/-- The files and links, the names that were constructed, from the latest on, and whether
`update_symlink` has raised. -/
structure LogState (dir : Path) where
  entries : Entries
  names : List (LogName dir) := []
  raised : Bool := false

/-- A file is opened, or deleted from outside. -/
inductive Action (dir : Path)
  | construct (name : LogName dir) (mode : Mode)
  | delete (name : LogName dir)

variable {dir : Path}

/-- `ManagedFileOpen(name, mode)`. Where the file is not opened, the links are not updated. -/
def construct (cwd : Path) (name : LogName dir) (mode : Mode) (s : LogState dir) : LogState dir :=
  match openFile mode (resolve cwd name.text) s.entries with
  | .error _ _ => s
  | .ok _ entries =>
    match updateSymlink cwd (dirname name.text) name.text entries with
    | .ok _ entries => { s with entries, names := name :: s.names }
    | .error _ entries => { entries, names := name :: s.names, raised := true }

/-- A file is deleted. -/
def delete (name : LogName dir) (s : LogState dir) : LogState dir :=
  if s.entries name.path = some .file then
    { s with entries := Function.update s.entries name.path none }
  else s

def step (cwd : Path) (s : LogState dir) : Action dir → Option (LogState dir)
  | .construct name mode => some (construct cwd name mode s)
  | .delete name => some (delete name s)

/-- The link with a number. -/
def linkPath (dir : Path) (k : ℕ) : Path := str k :: dir

/-- Nothing was raised, and each link points to its construction. -/
def Rotated (s : LogState dir) : Prop :=
  s.raised = false ∧ ∀ k ≤ symlinkMax, ∀ name, s.names[k]? = some name →
    s.entries (linkPath dir k) = some (.link name.text)

/-- The name is none of the links'. -/
def LogName.Apart (name : LogName dir) : Prop := ∀ k ≤ symlinkMax, name.base ≠ str k

/-- The logs that the links to shift point to are there. Where one is missing, the link behind it
may point to it as well. -/
def Spared (cwd : Path) (entries : Entries) (names : List (LogName dir)) : Prop :=
  ∀ k < symlinkMax, ∀ past, names[k]? = some past →
    entries.exists? (resolve cwd past.text) = true ∨
      0 < k ∧ names[k + 1]?.map LogName.text = some past.text

/-- A construction finds the logs that it needs, once its own file is opened. -/
def Spares (cwd : Path) (s : LogState dir) : Action dir → Prop
  | .construct name mode => name.Apart ∧ ∀ entries,
    openFile mode (resolve cwd name.text) s.entries = .ok () entries → Spared cwd entries s.names
  | .delete _ => True

variable {cwd : Path} {name : LogName dir} {entries entries' : Entries} {n k : ℕ}

/-! ## Paths -/

/-- A name that is joined to a directory. -/
theorem resolve_join {text : Bytes} {base : Name} (hplain : plain base = true)
    (hslash : slash ∉ base) (htext : text ≠ []) :
    resolve cwd (Files.join text base) = base :: resolve cwd text := by
  unfold Files.join
  rw [if_neg fun hhead => hslash (List.mem_of_head? hhead)]
  by_cases hlast : text.getLast? = some slash
  · rw [if_pos (.inr hlast)]
    obtain ⟨front, rfl⟩ := List.getLast?_eq_some_iff.mp hlast
    rw [List.append_assoc, List.singleton_append]
    cases front with
    | nil =>
      rw [List.nil_append, List.nil_append, resolve_root hplain hslash]
      rfl
    | cons b front =>
      rw [resolve_append hplain hslash (List.cons_ne_nil b front)]
      exact congrArg _ (resolve_append_slashes (List.cons_ne_nil b front) 1).symm
  · rw [if_neg (not_or.mpr ⟨htext, hlast⟩), resolve_append hplain hslash htext]

theorem LogName.resolve_text (cwd : Path) (name : LogName dir) :
    resolve cwd name.text = name.path := by
  rw [resolve_of_absolute name.absolute cwd [], resolve_of_target name.target_eq, LogName.path]

/-- The links are in the directory of the file. -/
theorem LogName.resolve_link (cwd : Path) (name : LogName dir) (k : ℕ) :
    resolve cwd (Files.join (dirname name.text) (str k)) = linkPath dir k := by
  have hne : dirname name.text ≠ [] := dirname_ne_nil (List.mem_of_head? name.absolute)
  have htarget : target cwd name.text = some (name.base :: dir) := by
    rw [← name.target_eq, target, target, resolve_of_absolute name.absolute cwd []]
  rw [resolve_join (plain_str k) (not_mem_str rfl) hne, resolve_dirname htarget hne, linkPath,
    List.tail_cons]

theorem linkPath_inj {j : ℕ} (h : linkPath dir j = linkPath dir k) : j = k :=
  str_injective (List.cons.inj h).1

theorem LogName.Apart.path_ne (h : name.Apart) (hk : k ≤ symlinkMax) :
    name.path ≠ linkPath dir k := fun heq => h k hk (List.cons.inj heq).1

/-! ## One rotation -/

/-- Each symbolic link is one of those with a number, and points to a log with another name. -/
def Clean (dir : Path) (entries : Entries) : Prop :=
  ∀ path text, entries path = some (.link text) →
    ∃ k ≤ symlinkMax, path = linkPath dir k ∧ ∃ name : LogName dir, name.Apart ∧ name.text = text

/-- What stays at a link when what exists is shifted. -/
def left (dir : Path) (entries : Entries) (k : ℕ) : Option Entry :=
  if entries.exists? (linkPath dir k) then none else entries (linkPath dir k)

/-- What is then at the next link. -/
def moved (dir : Path) (entries : Entries) (k : ℕ) : Option Entry :=
  if entries.exists? (linkPath dir k) then entries (linkPath dir k) else left dir entries (k + 1)

/-- The links from a number on are shifted. -/
structure Shifted (dir : Path) (entries : Entries) (n : ℕ) (entries' : Entries) : Prop where
  before : ∀ k < n, entries' (linkPath dir k) = entries (linkPath dir k)
  here : entries' (linkPath dir n) = left dir entries n
  behind : ∀ k, n ≤ k → k < symlinkMax → entries' (linkPath dir (k + 1)) = moved dir entries k
  other : ∀ path, (∀ k ≤ symlinkMax, path ≠ linkPath dir k) → entries' path = entries path

theorem Clean.notLink {path : Path} (hclean : Clean dir entries)
    (hpath : ∀ k ≤ symlinkMax, path ≠ linkPath dir k) : NotLink entries path := by
  intro text hlink
  obtain ⟨k, hk, heq, -⟩ := hclean path text hlink
  exact hpath k hk heq

/-- A link to a log exists where the log does. -/
theorem exists_link (hlink : entries (linkPath dir k) = some (.link name.text))
    (hlog : NotLink entries name.path) :
    entries.exists? (linkPath dir k) = entries.exists? name.path := by
  have htarget : resolve (linkPath dir k).tail name.text = name.path := name.resolve_text dir
  rw [exists_of_notLink hlog, exists_of_link hlink (htarget.symm ▸ hlog), htarget]

/-- Whether a link exists does not depend on the other links. -/
theorem Clean.exists_eq (hclean : Clean dir entries)
    (hsame : entries' (linkPath dir k) = entries (linkPath dir k))
    (hother : ∀ path, (∀ k ≤ symlinkMax, path ≠ linkPath dir k) → entries' path = entries path) :
    entries'.exists? (linkPath dir k) = entries.exists? (linkPath dir k) := by
  by_cases hlink : NotLink entries (linkPath dir k)
  · have hlink' : NotLink entries' (linkPath dir k) := fun text => hsame ▸ hlink text
    rw [exists_of_notLink hlink, exists_of_notLink hlink', hsame]
  · obtain ⟨text, hlink⟩ := exists_text hlink
    obtain ⟨-, -, -, name, hapart, rfl⟩ := hclean _ _ hlink
    have hpath : ∀ k ≤ symlinkMax, name.path ≠ linkPath dir k := fun k hk => hapart.path_ne hk
    have hlog : NotLink entries name.path := hclean.notLink hpath
    have hlog' : NotLink entries' name.path := fun text => hother _ hpath ▸ hlog text
    rw [exists_link hlink hlog, exists_link (hsame.trans hlink) hlog', exists_of_notLink hlog,
      exists_of_notLink hlog', hother _ hpath]

section Shifted

variable {cur : Entries}

theorem linkPath_ne {j : ℕ} (h : j ≠ k) : linkPath dir j ≠ linkPath dir k :=
  fun heq => h (linkPath_inj heq)

/-- The last link exists and is removed. -/
theorem shifted_removed (hlive : entries.exists? (linkPath dir symlinkMax) = true) :
    Shifted dir entries symlinkMax
      (Function.update entries (linkPath dir symlinkMax) none) where
  before k hk := Function.update_of_ne (linkPath_ne hk.ne) _ _
  here := by rw [Function.update_self, left, if_pos hlive]
  behind k hle hlt := absurd hlt hle.not_gt
  other path hpath := Function.update_of_ne (hpath symlinkMax le_rfl) _ _

/-- The last link does not exist, and is not removed. -/
theorem shifted_self (hlive : ¬ entries.exists? (linkPath dir symlinkMax) = true) :
    Shifted dir entries symlinkMax entries where
  before _ _ := rfl
  here := by rw [left, if_neg hlive]
  behind k hle hlt := absurd hlt hle.not_gt
  other _ _ := rfl

/-- A link that exists is renamed. -/
theorem Shifted.renamed (h : Shifted dir entries (n + 1) cur) (hn : n < symlinkMax)
    (hlive : entries.exists? (linkPath dir n) = true) :
    Shifted dir entries n (Function.update (Function.update cur (linkPath dir n) none)
      (linkPath dir (n + 1)) (entries (linkPath dir n))) where
  before k hk := by
    rw [Function.update_of_ne (linkPath_ne (Nat.lt_succ_of_lt hk).ne),
      Function.update_of_ne (linkPath_ne hk.ne), h.before k (Nat.lt_succ_of_lt hk)]
  here := by
    rw [Function.update_of_ne (linkPath_ne n.lt_succ_self.ne), Function.update_self, left,
      if_pos hlive]
  behind k hnk hk := by
    rcases Nat.eq_or_lt_of_le hnk with rfl | hlt
    · rw [Function.update_self, moved, if_pos hlive]
    · rw [Function.update_of_ne (linkPath_ne (Nat.succ_lt_succ hlt).ne'),
        Function.update_of_ne (linkPath_ne (Nat.lt_succ_of_lt hlt).ne'), h.behind k hlt hk]
  other path hpath := by
    rw [Function.update_of_ne (hpath (n + 1) hn), Function.update_of_ne (hpath n hn.le),
      h.other path hpath]

/-- A link that does not exist stays where it is. -/
theorem Shifted.stays (h : Shifted dir entries (n + 1) cur)
    (hlive : ¬ entries.exists? (linkPath dir n) = true) : Shifted dir entries n cur where
  before k hk := h.before k (Nat.lt_succ_of_lt hk)
  here := by rw [h.before n n.lt_succ_self, left, if_neg hlive]
  behind k hnk hk := by
    rcases Nat.eq_or_lt_of_le hnk with rfl | hlt
    · rw [h.here, moved, if_neg hlive]
    · exact h.behind k hlt hk
  other := h.other

/-- A turn of the loop. -/
theorem ensures_shift (hclean : Clean dir entries) (hn : n < symlinkMax)
    (hshifted : Shifted dir entries (n + 1) cur) (name : LogName dir) :
    Ensures (shift cwd (dirname name.text) (Files.join (dirname name.text) (str (n + 1))) (n + 1))
      (fun path cur' =>
        path = Files.join (dirname name.text) (str n) ∧ Shifted dir entries n cur') cur := by
  have hsrc : cur (linkPath dir n) = entries (linkPath dir n) := hshifted.before n n.lt_succ_self
  have hexists : cur.exists? (linkPath dir n) = entries.exists? (linkPath dir n) :=
    hclean.exists_eq hsrc hshifted.other
  unfold shift
  dsimp only
  rw [Nat.add_sub_cancel, name.resolve_link, name.resolve_link, Ensures, wp_bind,
    wp_of_ok pathExists_eq, hexists]
  by_cases hlive : entries.exists? (linkPath dir n) = true
  · obtain ⟨entry, hentry⟩ := exists_entry hlive
    rw [if_pos hlive, wp_bind,
      wp_of_ok (rename_eq (hsrc.trans hentry) (linkPath_ne n.lt_succ_self.ne)), wp_pure, ← hentry]
    exact ⟨rfl, hshifted.renamed hn hlive⟩
  · rw [if_neg hlive, wp_pure]
    exact ⟨rfl, hshifted.stays hlive⟩

/-- The loop. -/
theorem ensures_shifts (hclean : Clean dir entries)
    (hshifted : Shifted dir entries symlinkMax cur) (name : LogName dir) :
    Ensures (indices.foldlM (shift cwd (dirname name.text))
        (Files.join (dirname name.text) (str symlinkMax)))
      (fun _ cur' => Shifted dir entries 0 cur') cur := by
  -- what is left of the indices says how far the links are shifted
  let I (l : List ℕ) (path : Bytes) (cur : Entries) : Prop := ∃ n ≤ symlinkMax,
    l = (List.range n).reverse.map (· + 1) ∧
      path = Files.join (dirname name.text) (str n) ∧ Shifted dir entries n cur
  have hloop : Ensures (indices.foldlM (shift cwd (dirname name.text))
      (Files.join (dirname name.text) (str symlinkMax))) (I []) cur := by
    refine wp_foldlM (I := I) ?_ ⟨symlinkMax, le_rfl, rfl, rfl, hshifted⟩
    rintro c cs path cur ⟨n, hn, hl, rfl, hcur⟩
    cases n with
    | zero => cases hl
    | succ n =>
      rw [List.range_succ, List.reverse_append, List.reverse_singleton, List.map_append] at hl
      obtain ⟨rfl, rfl⟩ := List.cons.inj hl
      refine (ensures_shift hclean hn hcur name).imp ?_
      rintro path cur' ⟨rfl, hcur'⟩
      exact ⟨n, (Nat.le_succ n).trans hn, rfl, rfl, hcur'⟩
  refine hloop.imp ?_
  rintro - cur' ⟨n, -, hl, -, hcur'⟩
  cases n with
  | zero => exact hcur'
  | succ n =>
    rw [List.range_succ, List.reverse_append] at hl
    cases hl

/-- The links behind `update_symlink`. -/
structure Updated (name : LogName dir) (entries entries' : Entries) : Prop where
  first : entries' (linkPath dir 0) = some (.link name.text)
  behind : ∀ k < symlinkMax, entries' (linkPath dir (k + 1)) = moved dir entries k
  other : ∀ path, (∀ k ≤ symlinkMax, path ≠ linkPath dir k) → entries' path = entries path

/-- The link `0` is made if nothing stays there. -/
theorem Shifted.wp_symlink (hcur : Shifted dir entries 0 cur)
    (name : LogName dir) : Wp (symlink name.text (linkPath dir 0))
      (fun _ entries' => left dir entries 0 = none ∧ Updated name entries entries')
      (fun _ _ => left dir entries 0 ≠ none) cur := by
  by_cases hleft : left dir entries 0 = none
  · rw [wp_of_ok (symlink_eq (hcur.here.trans hleft))]
    refine ⟨hleft, Function.update_self .., fun k hk => ?_, fun path hpath => ?_⟩
    · rw [Function.update_of_ne (linkPath_ne k.succ_ne_zero), hcur.behind k k.zero_le hk]
    · rw [Function.update_of_ne (hpath 0 (Nat.zero_le _)), hcur.other path hpath]
  · rw [wp_of_error (symlink_eq_error (hcur.here ▸ hleft))]
    exact hleft

/-- **`update_symlink`** ends normally if and only if nothing stays at the link `0`. -/
theorem wp_updateSymlink (hclean : Clean dir entries) (name : LogName dir) (cwd : Path) :
    Wp (updateSymlink cwd (dirname name.text) name.text)
      (fun _ entries' => left dir entries 0 = none ∧ Updated name entries entries')
      (fun _ _ => left dir entries 0 ≠ none) entries := by
  have hshifts : ∀ cur, Shifted dir entries symlinkMax cur →
      Wp (do
          let _ ← indices.foldlM (shift cwd (dirname name.text))
            (Files.join (dirname name.text) (str symlinkMax))
          symlink name.text (linkPath dir 0))
        (fun _ entries' => left dir entries 0 = none ∧ Updated name entries entries')
        (fun _ _ => left dir entries 0 ≠ none) cur := fun cur hcur =>
    wp_bind.mpr ((ensures_shifts hclean hcur name).mono (fun _ _ hcur' => hcur'.wp_symlink name)
      fun _ _ => False.elim)
  have hzero : resolve cwd (Files.join (dirname name.text) (ascii "0")) = linkPath dir 0 :=
    name.resolve_link cwd 0
  unfold updateSymlink
  dsimp only
  rw [name.resolve_link, hzero, wp_bind, wp_of_ok pathExists_eq]
  by_cases hlive : entries.exists? (linkPath dir symlinkMax) = true
  · obtain ⟨entry, hentry⟩ := exists_entry hlive
    rw [if_pos hlive, wp_bind, wp_of_ok (remove_eq (hentry ▸ Option.some_ne_none entry))]
    exact hshifts _ (shifted_removed hlive)
  · rw [if_neg hlive]
    exact hshifts _ (shifted_self hlive)

end Shifted

/-! ## The invariant -/

/-- The links are those of the latest constructions. -/
structure Linked (entries : Entries) (names : List (LogName dir)) : Prop where
  link_iff : ∀ path text, entries path = some (.link text) ↔
    ∃ k ≤ symlinkMax, ∃ name, names[k]? = some name ∧ path = linkPath dir k ∧ name.text = text
  apart : ∀ name ∈ names, name.Apart

variable {names : List (LogName dir)} {past : LogName dir}

/-- What a link points to. -/
theorem Linked.at_iff (h : Linked entries names) (hk : k ≤ symlinkMax) (text : Bytes) :
    entries (linkPath dir k) = some (.link text) ↔ names[k]?.map LogName.text = some text := by
  rw [h.link_iff, Option.map_eq_some_iff]
  constructor
  · rintro ⟨j, -, name, hname, hpath, htext⟩
    obtain rfl := linkPath_inj hpath
    exact ⟨name, hname, htext⟩
  · rintro ⟨name, hname, htext⟩
    exact ⟨k, hk, name, hname, rfl, htext⟩

theorem Linked.link (h : Linked entries names) (hk : k ≤ symlinkMax)
    (hpast : names[k]? = some past) : entries (linkPath dir k) = some (.link past.text) :=
  (h.at_iff hk past.text).mpr (by rw [hpast, Option.map_some])

theorem Linked.clean (h : Linked entries names) : Clean dir entries := by
  intro path text hlink
  obtain ⟨k, hk, name, hname, rfl, rfl⟩ := (h.link_iff path text).mp hlink
  exact ⟨k, hk, rfl, name, h.apart name (List.mem_of_getElem? hname), rfl⟩

theorem Linked.notLink (h : Linked entries names) (hapart : name.Apart) :
    NotLink entries name.path :=
  h.clean.notLink fun _ hk => hapart.path_ne hk

/-- A link exists if its log does. -/
theorem Linked.exists_iff (h : Linked entries names) (hk : k ≤ symlinkMax)
    (hpast : names[k]? = some past) (cwd : Path) :
    entries.exists? (linkPath dir k) = entries.exists? (resolve cwd past.text) := by
  rw [past.resolve_text cwd]
  exact exists_link (h.link hk hpast) (h.notLink (h.apart past (List.mem_of_getElem? hpast)))

/-- A file is made or deleted. -/
theorem Linked.update {path : Path} {entry : Option Entry} (h : Linked entries names)
    (hold : NotLink entries path) (hnew : ∀ text, entry ≠ some (.link text)) :
    Linked (Function.update entries path entry) names := by
  refine ⟨fun path' text => ?_, h.apart⟩
  rw [← h.link_iff path' text]
  by_cases heq : path' = path
  · rw [heq, Function.update_self]
    exact iff_of_false (hnew text) (hold text)
  · rw [Function.update_of_ne heq]

/-- Where two constructions have one log, their links exist together. -/
theorem Linked.exists_next (h : Linked entries names) (hk : k < symlinkMax)
    (hpast : names[k]? = some past) (hnext : names[k + 1]?.map LogName.text = some past.text) :
    entries.exists? (linkPath dir (k + 1)) = entries.exists? (linkPath dir k) := by
  obtain ⟨next, hget, htext⟩ := Option.map_eq_some_iff.mp hnext
  rw [h.exists_iff hk hget [], h.exists_iff hk.le hpast [], htext]

/-- What is shifted to the next link, if the logs are there. -/
theorem Linked.moved_iff (h : Linked entries names) (hspared : Spared cwd entries names)
    (hk : k < symlinkMax) (text : Bytes) :
    moved dir entries k = some (.link text) ↔ names[k]?.map LogName.text = some text := by
  unfold moved
  by_cases hlive : entries.exists? (linkPath dir k) = true
  · rw [if_pos hlive, h.at_iff hk.le]
  · rw [if_neg hlive, left]
    cases hpast : names[k]? with
    | none =>
      have hnext : names[k + 1]? = none :=
        List.getElem?_eq_none ((List.getElem?_eq_none_iff.mp hpast).trans (Nat.le_succ k))
      have hnot : entries (linkPath dir (k + 1)) ≠ some (.link text) := fun hlink => by
        rw [h.at_iff hk, hnext] at hlink
        cases hlink
      refine iff_of_false ?_ (Option.some_ne_none text).symm
      split
      · exact (Option.some_ne_none _).symm
      · exact hnot
    | some past =>
      rw [h.exists_iff hk.le hpast cwd] at hlive
      obtain ⟨-, hnext⟩ := (hspared k hk past hpast).resolve_left hlive
      have hdead : ¬ entries.exists? (linkPath dir (k + 1)) = true := by
        rw [h.exists_next hk hpast hnext, h.exists_iff hk.le hpast cwd]
        exact hlive
      rw [if_neg hdead, h.at_iff hk, hnext, Option.map_some]

/-- The links are shifted if the logs are there. -/
theorem Linked.cons (h : Linked entries names) (hapart : name.Apart)
    (hspared : Spared cwd entries names) (hupdated : Updated name entries entries') :
    Linked entries' (name :: names) := by
  have hat : ∀ k ≤ symlinkMax, ∀ text, entries' (linkPath dir k) = some (.link text) ↔
      (name :: names)[k]?.map LogName.text = some text := by
    intro k hk text
    cases k with
    | zero => simp [hupdated.first]
    | succ k => rw [hupdated.behind k hk, h.moved_iff hspared hk, List.getElem?_cons_succ]
  refine ⟨fun path text => ?_, List.forall_mem_cons.mpr ⟨hapart, h.apart⟩⟩
  constructor
  · intro hlink
    by_cases hpath : ∀ k ≤ symlinkMax, path ≠ linkPath dir k
    · rw [hupdated.other path hpath] at hlink
      exact absurd hlink (h.clean.notLink hpath text)
    · push Not at hpath
      obtain ⟨k, hk, rfl⟩ := hpath
      obtain ⟨past, hpast, htext⟩ := Option.map_eq_some_iff.mp ((hat k hk text).mp hlink)
      exact ⟨k, hk, past, hpast, rfl, htext⟩
  · rintro ⟨k, hk, past, hpast, rfl, htext⟩
    exact (hat k hk text).mpr (Option.map_eq_some_iff.mpr ⟨past, hpast, htext⟩)

/-- Nothing stays at the link `0` if the latest log is there. -/
theorem Linked.left_zero (h : Linked entries names) (hspared : Spared cwd entries names) :
    left dir entries 0 = none := by
  unfold left
  by_cases hlive : entries.exists? (linkPath dir 0) = true
  · exact if_pos hlive
  · rw [if_neg hlive]
    cases hpast : names[0]? with
    | none =>
      have hnot : NotLink entries (linkPath dir 0) := fun text hlink => by
        rw [h.at_iff (Nat.zero_le _), hpast] at hlink
        cases hlink
      rw [exists_of_notLink hnot, Option.not_isSome_iff_eq_none] at hlive
      exact hlive
    | some past =>
      rw [h.exists_iff (Nat.zero_le _) hpast cwd] at hlive
      rcases hspared 0 (by decide) past hpast with hexists | ⟨hpos, -⟩
      · exact absurd hexists hlive
      · exact absurd hpos (lt_irrefl 0)

/-- The logs are there if the links are shifted. -/
theorem Linked.spared (h : Linked entries names) (hleft : left dir entries 0 = none)
    (hmoved : ∀ k < symlinkMax, ∀ past, names[k]? = some past →
      moved dir entries k = some (.link past.text)) : Spared cwd entries names := by
  intro k hk past hpast
  by_cases hlive : entries.exists? (linkPath dir k) = true
  · exact .inl (h.exists_iff hk.le hpast cwd ▸ hlive)
  · right
    have hnext : left dir entries (k + 1) = some (.link past.text) := by
      rw [← hmoved k hk past hpast, moved, if_neg hlive]
    constructor
    · rcases Nat.eq_zero_or_pos k with rfl | hpos
      · rw [left, if_neg hlive, h.link hk.le hpast] at hleft
        cases hleft
      · exact hpos
    · unfold left at hnext
      split at hnext
      · cases hnext
      · exact (h.at_iff hk past.text).mp hnext

/-! ## Steps -/

variable {s : LogState dir} {mode : Mode}

/-- Nothing was raised, and the links are those of the latest constructions. -/
structure Sound (s : LogState dir) : Prop where
  quiet : s.raised = false
  linked : Linked s.entries s.names

theorem Sound.rotated (h : Sound s) : Rotated s :=
  ⟨h.quiet, fun _ hk _ hname => h.linked.link hk hname⟩

theorem Sound.delete (h : Sound s) (name : LogName dir) : Sound (delete name s) := by
  unfold Logs.delete
  split
  · rename_i hfile
    exact ⟨h.quiet, h.linked.update (fun text => by simp [hfile]) fun text => by simp⟩
  · exact h

/-- What is there once a file is opened. -/
theorem Linked.openFile (h : Linked entries names) (hapart : name.Apart)
    (hopen : openFile mode (resolve cwd name.text) entries = .ok () entries') :
    Linked entries' names := by
  have hlog := h.notLink hapart
  rw [name.resolve_text cwd] at hopen
  rcases openFile_cases hlog mode with ⟨e, herror⟩ | ⟨opened, hok, hcases⟩
  · rw [herror] at hopen
    cases hopen
  · rw [hok] at hopen
    cases hopen
    rcases hcases with rfl | rfl
    · exact h
    · exact h.update hlog fun text => by simp

/-- **A construction that finds the logs that it needs** shifts the links. -/
theorem Sound.construct (h : Sound s) (hspares : Spares cwd s (.construct name mode)) :
    Sound (construct cwd name mode s) := by
  obtain ⟨hapart, hspared⟩ := hspares
  unfold Logs.construct
  cases hopen : Links.openFile mode (resolve cwd name.text) s.entries with
  | error e opened => exact h
  | ok u opened =>
    have hlinked : Linked opened s.names := h.linked.openFile hapart hopen
    have hthere : Spared cwd opened s.names := hspared opened hopen
    have hwp := wp_updateSymlink hlinked.clean name cwd
    dsimp only
    cases hupdate : updateSymlink cwd (dirname name.text) name.text opened with
    | ok u entries =>
      obtain ⟨-, hupdated⟩ := (wp_of_ok hupdate).mp hwp
      exact ⟨h.quiet, hlinked.cons hapart hthere hupdated⟩
    | error e entries =>
      exact absurd (hlinked.left_zero hthere) ((wp_of_error hupdate).mp hwp)

/-- A construction that does not find them raises, or leaves a link that is wrong. -/
theorem Sound.not_rotated (h : Sound s) (hapart : name.Apart)
    (hnot : ¬ Spares cwd s (.construct name mode)) :
    ¬ Rotated (Logs.construct cwd name mode s) := by
  rintro ⟨hquiet, hlinks⟩
  refine hnot ⟨hapart, fun opened hopen => ?_⟩
  have hlinked : Linked opened s.names := h.linked.openFile hapart hopen
  have hwp := wp_updateSymlink hlinked.clean name cwd
  unfold Logs.construct at hquiet hlinks
  rw [hopen] at hquiet hlinks
  dsimp only at hquiet hlinks
  cases hupdate : updateSymlink cwd (dirname name.text) name.text opened with
  | ok u entries =>
    obtain ⟨hleft, hupdated⟩ := (wp_of_ok hupdate).mp hwp
    rw [hupdate] at hlinks
    refine hlinked.spared hleft fun k hk past hpast => ?_
    rw [← hupdated.behind k hk]
    exact hlinks (k + 1) hk past hpast
  | error e entries =>
    rw [hupdate] at hquiet
    cases hquiet

theorem Sound.step {s' : LogState dir} {a : Action dir} (h : Sound s) (hspares : Spares cwd s a)
    (hstep : step cwd s a = some s') : Sound s' := by
  cases a with
  | construct name mode =>
    obtain rfl := Option.some.inj hstep
    exact h.construct hspares
  | delete name =>
    obtain rfl := Option.some.inj hstep
    exact h.delete name

/-! ## Runs -/

/-- **In a run from files without links, `update_symlink` raises nothing, and each link points to
its construction, if each construction finds the logs that it needs, and only then if the logs have
other names than the links.** -/
theorem always_rotated (hlinks : ∀ path, NotLink entries path) (actions : List (Action dir)) :
    (Along (step cwd) (Spares cwd) { entries } actions →
        Always (step cwd) Rotated { entries } actions) ∧
      ((∀ name mode, .construct name mode ∈ actions → name.Apart) →
        Always (step cwd) Rotated { entries } actions →
          Along (step cwd) (Spares cwd) { entries } actions) := by
  have hstart : Sound ({ entries } : LogState dir) := by
    refine ⟨rfl, fun path text => iff_of_false (hlinks path text) ?_, ?_⟩
    · rintro ⟨k, -, name, hname, -⟩
      cases hname
    · exact fun name hname => absurd hname List.not_mem_nil
  constructor
  · exact always_of_along (fun _ h => h.rotated) (fun _ _ _ h => h.step) hstart
  · intro hapart
    refine along_of_always (fun _ _ _ h => h.step) ?_ hstart (isSome_run (fun s a => ?_) _ _)
    · intro a ha s s' h hnot hstep
      cases a with
      | construct name mode =>
        obtain rfl := Option.some.inj hstep
        exact h.not_rotated (hapart name mode ha) hnot
      | delete name => exact absurd trivial hnot
    · cases a with
      | construct name mode => rfl
      | delete name => rfl

section Example

/-- The name of a log in a directory at the root. -/
def logA : LogName [ascii "logs"] := ⟨ascii "/logs/a", ascii "a", by decide, by decide⟩

def logB : LogName [ascii "logs"] := ⟨ascii "/logs/b", ascii "b", by decide, by decide⟩

/-- A name with a letter is none of the links'. -/
theorem apart_of_mem {b : UInt8} (hmem : b ∈ name.base) (hb : isDigit b = false) : name.Apart :=
  fun _ _ heq => not_mem_str hb (heq ▸ hmem)

/-- A log that is deleted when it is not the latest one. -/
theorem always_rotated_delete :
    Always (step []) Rotated { entries := fun _ => none }
      [.construct logA .write, .construct logB .write, .delete logA] := by
  have hA : logA.Apart := apart_of_mem (List.mem_singleton_self 97) (by decide)
  have hB : logB.Apart := apart_of_mem (List.mem_singleton_self 98) (by decide)
  apply (always_rotated (fun _ _ => by simp) _).1
  refine ⟨⟨hA, fun _ _ k _ past hpast => by cases hpast⟩, fun s hs => ⟨⟨hB, ?_⟩, fun _ _ =>
    ⟨trivial, fun _ _ => trivial⟩⟩⟩
  obtain rfl := Option.some.inj hs
  intro opened hopen k hk past hpast
  have hthere : endsIn (openFile .write (resolve [] logB.text))
      (fun opened => opened.exists? (resolve [] logA.text))
      (construct [] logA .write { entries := fun _ => none }).entries = true := by decide +kernel
  rw [endsIn_iff, Ensures, wp_of_ok hopen] at hthere
  cases k with
  | zero =>
    obtain rfl := Option.some.inj hpast
    exact .inl hthere
  | succ k => cases hpast

/-- The latest log is deleted, and its link stays in the way of the next one. -/
theorem not_always_rotated : ¬ Always (step []) Rotated { entries := fun _ => none }
    [.construct logA .write, .delete logA, .construct logB .write] := by
  intro halways
  have hraised : (run (step []) { entries := fun _ => none }
      [.construct logA .write, .delete logA, .construct logB .write]).map LogState.raised =
        some true := by decide +kernel
  obtain ⟨s, hrun, hs⟩ := Option.map_eq_some_iff.mp hraised
  have hquiet := (halways.last hrun).1
  rw [hs] at hquiet
  cases hquiet

/-- An older log is deleted, and its link is lost. -/
example : (run (step []) { entries := fun _ => none }
    [.construct logA .write, .construct logB .write, .delete logA, .construct logB .write]).map
      (fun s => (s.raised, s.entries (linkPath [ascii "logs"] 2))) = some (false, none) := by
  decide +kernel

end Example

end ClickA.Logs
