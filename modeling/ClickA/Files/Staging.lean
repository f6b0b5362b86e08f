import ClickA.Files.Names
import ClickA.Files.Reliable
import Mathlib.Data.Set.List

/-!
# The staging folder

What the staging folder of a transfer is for: it maps the number of a chunk and the number of chunks
to the bytes of the chunk. The statements on its files are steps of this map.

## Main definitions

* `Key`, `nameOf`, `chunkPath`: the numbers of a chunk, its name and its path
* `Chunks`, `Stages`: the chunks that the folder of a transfer has
* `SortedKeys`: the keys of all chunks, sorted by their numbers

## Main results

* `Stages.makes`, `Stages.put`, `Stages.put_chunk`: the folder after its files were written
* `ensures_writeChunk`: a chunk is added
* `ensures_sortedChunks`: the chunks of a folder are found
-/

namespace ClickA.Files

open Python Python.Disk

/-- The number of a chunk, and the number of chunks. -/
abbrev Key := ℕ × ℕ

def nameOf (key : Key) : Name := chunkName key.1 key.2

def chunkPath (transferId : ℕ) (key : Key) : Path := nameOf key :: stagingPath transferId

/-- The chunks of a transfer. -/
abbrev Chunks := Key → Option Bytes

/-- The folder of a transfer has these chunks, and no other names of chunks. -/
structure Stages (disk : Disk) (transferId : ℕ) (chunks : Chunks) : Prop where
  creatable : disk.Creatable (stagingPath transferId)
  isDir : ∀ key, (chunks key).isSome = true → disk.isDir (stagingPath transferId) = true
  content : ∀ key, disk.content (chunkPath transferId key) = chunks key
  named : ∀ name, isChunk name = true → name :: stagingPath transferId ∈ disk →
    ∃ key, name = nameOf key ∧ (chunks key).isSome = true

/-- The keys of all chunks, sorted by their numbers. -/
structure SortedKeys (chunks : Chunks) (keys : List Key) : Prop where
  sorted : keys.Pairwise fun key key' => key.1 ≤ key'.1
  nodup : keys.Nodup
  mem : ∀ key, key ∈ keys ↔ (chunks key).isSome = true

variable {env : Env} {h : Host} {disk disk' : Disk} {sent : List Bytes} {transferId other : ℕ}
  {chunks : Chunks} {key key' : Key} {name : Name} {path : Path} {data : Bytes}

theorem nameOf_inj : nameOf key = nameOf key' ↔ key = key' := by
  unfold nameOf
  rw [chunkName_inj, Prod.ext_iff]

theorem chunkPath_inj : chunkPath transferId key = chunkPath transferId key' ↔ key = key' := by
  unfold chunkPath
  rw [List.cons.injEq, nameOf_inj]
  exact and_iff_left rfl

theorem isChunk_nameOf : isChunk (nameOf key) = true := isChunk_chunkName

/-- No file of a folder is on the way to a folder. -/
theorem not_suffix_stagingPath : ¬ name :: stagingPath transferId <:+ stagingPath other :=
  fun hsuffix => by
    have hlength := hsuffix.length_le
    simp [stagingPath] at hlength

theorem not_suffix_chunkPath : ¬ chunkPath transferId key <:+ stagingPath other :=
  not_suffix_stagingPath

/-! ## What is written -/

/-- A folder that is made leaves the chunks as they were. -/
theorem Stages.makes (hstages : Stages disk transferId chunks)
    (hmakes : Makes (stagingPath other) disk disk') : Stages disk' transferId chunks where
  creatable := hmakes.creatable hstages.creatable
  isDir := by
    intro key hkey
    have hdir := hstages.isDir key hkey
    unfold Disk.isDir at hdir ⊢
    rw [Bool.or_eq_true_iff] at hdir ⊢
    refine hdir.imp id fun hsome => ?_
    rw [decide_eq_true_eq] at hsome ⊢
    rw [hmakes.kept _ (AList.lookup_isSome.mp (Option.isSome_of_eq_some hsome)), hsome]
  content := by
    intro key
    rw [← hstages.content key]
    unfold Disk.content
    rw [hmakes.lookup_eq not_suffix_chunkPath]
  named := by
    intro name hname hmem
    apply hstages.named name hname
    rw [← AList.lookup_isSome] at hmem ⊢
    rwa [hmakes.lookup_eq not_suffix_stagingPath] at hmem

/-- A file that is no chunk of the folder leaves the chunks as they were. -/
theorem Stages.put (hstages : Stages disk transferId chunks)
    (hway : ¬ path <:+ stagingPath transferId)
    (hpath : ∀ name, isChunk name = true → path ≠ name :: stagingPath transferId) :
    Stages (disk.put path data) transferId chunks where
  creatable := hstages.creatable.put hway
  isDir := by
    intro key hkey
    have hne : stagingPath transferId ≠ path := fun heq => hway (heq ▸ List.suffix_rfl)
    rw [isDir_put_of_ne hne]
    exact hstages.isDir key hkey
  content := by
    intro key
    have hne : chunkPath transferId key ≠ path := (hpath _ isChunk_nameOf).symm
    rw [content_put_of_ne hne]
    exact hstages.content key
  named := by
    intro name hname hmem
    refine hstages.named name hname ((mem_put.mp hmem).resolve_left ?_)
    exact (hpath name hname).symm

/-- A chunk is added. -/
theorem Stages.put_chunk (hstages : Stages disk transferId chunks)
    (hdir : disk.isDir (stagingPath transferId) = true) :
    Stages (disk.put (chunkPath transferId key) data) transferId
      (Function.update chunks key (some data)) where
  creatable := hstages.creatable.put not_suffix_chunkPath
  isDir := by
    intro _ _
    rwa [isDir_put_of_ne]
    exact (List.cons_ne_self _ _).symm
  content := by
    intro key'
    by_cases hkey : key' = key
    · rw [hkey, content_put, Function.update_self]
    · rw [content_put_of_ne (mt chunkPath_inj.mp hkey), Function.update_of_ne hkey]
      exact hstages.content key'
  named := by
    intro name hname hmem
    rcases mem_put.mp hmem with heq | hmem
    · refine ⟨key, (List.cons.inj heq).1, ?_⟩
      rw [Function.update_self]
      rfl
    · obtain ⟨key', rfl, hkey'⟩ := hstages.named name hname hmem
      refine ⟨key', rfl, ?_⟩
      by_cases hkey : key' = key
      · rw [hkey, Function.update_self]
        rfl
      · rwa [Function.update_of_ne hkey]

/-! ## Files of the folder -/

theorem nul_staging (hnul : (0 : UInt8) ∉ name) :
    (stagingDir transferId ++ name).contains 0 = false := by
  have hdir : (0 : UInt8) ∉ stagingDir transferId := by
    unfold stagingDir
    simp only [List.mem_append, not_or]
    exact ⟨⟨by decide, not_mem_str rfl⟩, by decide⟩
  rw [List.contains_eq_mem, decide_eq_false_iff_not, List.mem_append]
  exact not_or.mpr ⟨hdir, hnul⟩

/-- A name of the folder that is no directory can be written. -/
theorem writable_staging (hcreatable : disk.Creatable (stagingPath transferId))
    (hplain : plain name = true) (hslash : slash ∉ name) (hnul : (0 : UInt8) ∉ name)
    (hfile : disk.isDir (name :: stagingPath transferId) = false) :
    Writable env disk (stagingDir transferId ++ name) (name :: stagingPath transferId) where
  nul := nul_staging hnul
  target := target_staging hplain hslash
  file := hfile
  creatable := hcreatable
  parent := fun hnil => absurd (dirname_staging hslash ▸ hnil) stagingText_ne_nil

theorem readable_staging (hplain : plain name = true) (hslash : slash ∉ name)
    (hnul : (0 : UInt8) ∉ name)
    (hcontent : disk.content (name :: stagingPath transferId) = some data) :
    Readable env disk (stagingDir transferId ++ name) (name :: stagingPath transferId) data where
  nul := nul_staging hnul
  target := target_staging hplain hslash
  content := hcontent

theorem slash_not_mem_nameOf : slash ∉ nameOf key := not_mem_chunkName rfl (by decide)

theorem nul_not_mem_nameOf : (0 : UInt8) ∉ nameOf key := not_mem_chunkName rfl (by decide)

/-- A chunk of the folder is no directory. -/
theorem Stages.isDir_chunkPath (hstages : Stages disk transferId chunks) :
    disk.isDir (chunkPath transferId key) = false := by
  rw [Bool.eq_false_iff]
  intro hdir
  have hnone := content_eq_none_of_isDir hdir (List.cons_ne_nil _ _)
  have hmem : chunkPath transferId key ∈ disk := by
    unfold Disk.isDir at hdir
    rcases Bool.or_eq_true_iff.mp hdir with hnil | hsome
    · exact absurd (of_decide_eq_true hnil) (List.cons_ne_nil _ _)
    · exact AList.lookup_isSome.mp (Option.isSome_of_eq_some (of_decide_eq_true hsome))
  obtain ⟨key', hname, hsome⟩ := hstages.named _ isChunk_nameOf hmem
  rw [← hstages.content key', ← nameOf_inj.mp hname, hnone] at hsome
  exact Bool.noConfusion hsome

theorem Stages.writable (hstages : Stages disk transferId chunks) :
    Writable env disk (stagingDir transferId ++ nameOf key) (chunkPath transferId key) :=
  writable_staging hstages.creatable plain_chunkName slash_not_mem_nameOf nul_not_mem_nameOf
    hstages.isDir_chunkPath

theorem readable_chunk (hcontent : disk.content (chunkPath transferId key) = some data) :
    Readable env disk (stagingDir transferId ++ nameOf key) (chunkPath transferId key) data :=
  readable_staging plain_chunkName slash_not_mem_nameOf nul_not_mem_nameOf hcontent

/-- A chunk is written, and its folder was made. -/
theorem ensures_writeChunk (hreliable : env.Reliable) (hstages : Stages disk transferId chunks)
    (hat : h.At disk sent) (seqNum seqLen : ℕ) :
    Ensures (writeChunk env transferId seqNum seqLen data) (fun _ h' => ∃ disk',
      Makes (stagingPath transferId) disk disk' ∧
      h'.At (disk'.put (chunkPath transferId (seqNum, seqLen)) data) sent) h := by
  unfold writeChunk
  have hwritable : Writable env _ _ (chunkPath transferId (seqNum, seqLen)) := hstages.writable
  refine (ensures_safeOpenW hreliable hwritable hat).bind ?_
  rintro _ h' ⟨rfl, disk', hmakes, hat'⟩
  refine (ensures_write hreliable content_put hat').imp ?_
  intro _ h'' hat''
  rw [Disk.put_put, List.nil_append] at hat''
  exact ⟨disk', hmakes, hat''⟩

/-! ## The chunks of a folder -/

/-- Keys are sorted by their numbers. -/
def before (key key' : Key) : Prop := key.1 ≤ key'.1

instance : DecidableRel before := fun key key' => inferInstanceAs (Decidable (key.1 ≤ key'.1))

instance : Std.Total before := ⟨fun key key' => le_total key.1 key'.1⟩

instance : IsTrans Key before := ⟨fun _ _ _ h h' => le_trans (α := ℕ) h h'⟩

/-- A number is read back from each name. -/
theorem mapM_keyOf (keys : List Key) :
    ((keys.map nameOf).mapM fun name => do return (← keyOf name, name)) =
      .ok (keys.map fun key => ((key.1 : ℤ), nameOf key)) := by
  induction keys with
  | nil => rfl
  | cons key keys ih =>
    rw [List.map_cons, List.mapM_cons, ih]
    unfold nameOf
    rw [keyOf_chunkName]
    rfl

/-- The names of the folder that are names of chunks. -/
theorem Stages.exists_keys (hstages : Stages disk transferId chunks) {names : List Name}
    (hperm : names.Perm (disk.names (stagingPath transferId))) :
    ∃ keys : List Key, names.filter isChunk = keys.map nameOf ∧ keys.Nodup ∧
      ∀ key, key ∈ keys ↔ (chunks key).isSome = true := by
  have hrange : ∀ name ∈ names.filter isChunk, name ∈ Set.range nameOf := by
    intro name hname
    obtain ⟨hmem, hchunk⟩ := List.mem_filter.mp hname
    obtain ⟨key, rfl, -⟩ := hstages.named name hchunk (mem_names.mp (hperm.mem_iff.mp hmem))
    exact ⟨key, rfl⟩
  obtain ⟨keys, hkeys⟩ : names.filter isChunk ∈ Set.range (List.map nameOf) := by
    rw [Set.range_list_map]
    exact hrange
  have hnodup : (keys.map nameOf).Nodup := by
    rw [hkeys]
    exact (hperm.nodup_iff.mpr nodup_names).filter isChunk
  refine ⟨keys, hkeys.symm, hnodup.of_map, ?_⟩
  intro key
  have hmem : key ∈ keys ↔ nameOf key ∈ names.filter isChunk := by
    rw [← hkeys]
    constructor
    · exact fun h => List.mem_map_of_mem h
    · intro h
      obtain ⟨key', hkey', heq⟩ := List.mem_map.mp h
      rwa [← nameOf_inj.mp heq]
  rw [hmem, List.mem_filter, hperm.mem_iff, mem_names, and_iff_left isChunk_nameOf]
  constructor
  · intro h
    obtain ⟨key', heq, hsome⟩ := hstages.named _ isChunk_nameOf h
    rwa [nameOf_inj.mp heq]
  · intro h
    obtain ⟨data, hdata⟩ := Option.isSome_iff_exists.mp h
    rw [← hstages.content key, Disk.content_eq_some] at hdata
    exact AList.lookup_isSome.mp (Option.isSome_of_eq_some hdata)

theorem sortedKeys_insertionSort {keys : List Key} (hnodup : keys.Nodup)
    (hmem : ∀ key, key ∈ keys ↔ (chunks key).isSome = true) :
    SortedKeys chunks (keys.insertionSort before) where
  sorted := List.pairwise_insertionSort before keys
  nodup := (List.perm_insertionSort before keys).nodup_iff.mpr hnodup
  mem := fun key => (List.perm_insertionSort before keys).mem_iff.trans (hmem key)

theorem Stages.exists_sortedKeys (hstages : Stages disk transferId chunks) :
    ∃ keys, SortedKeys chunks keys := by
  obtain ⟨keys, -, hnodup, hmem⟩ := hstages.exists_keys (.refl _)
  exact ⟨_, sortedKeys_insertionSort hnodup hmem⟩

/-- The chunks of a folder are sorted from the order in which their names are listed. -/
theorem ensures_sortedChunks_listed (hreliable : env.Reliable)
    (hstages : Stages disk transferId chunks)
    (hdir : disk.isDir (stagingPath transferId) = true) (hat : h.At disk sent) :
    Ensures (sortedChunks env transferId)
      (fun names h' => h'.At disk sent ∧ ∃ (n : ℕ) (listed : List Key),
      (env.order n (disk.names (stagingPath transferId))).filter isChunk = listed.map nameOf ∧
      SortedKeys chunks (listed.insertionSort before) ∧
      names = (listed.insertionSort before).map nameOf) h := by
  unfold sortedChunks
  refine (ensures_listdir hreliable resolve_stagingDir hdir hat).bind ?_
  rintro _ h' ⟨hat', n, rfl⟩
  obtain ⟨listed, hlisted, hnodup, hmem⟩ := hstages.exists_keys (env.perm n _)
  dsimp only
  rw [hlisted, mapM_keyOf, Ensures, wp_bind, wp_raise_ok, wp_pure]
  refine ⟨hat', n, listed, hlisted, sortedKeys_insertionSort hnodup hmem, ?_⟩
  rw [← List.map_insertionSort before (fun p p' : ℤ × Name => p.1 ≤ p'.1)
    (fun key : Key => ((key.1 : ℤ), nameOf key)) listed fun _ _ _ _ => Int.ofNat_le.symm,
    List.map_map]
  rfl

/-- **The chunks of a folder are found**, sorted by their numbers, for each order of its names. -/
theorem ensures_sortedChunks (hreliable : env.Reliable) (hstages : Stages disk transferId chunks)
    (hdir : disk.isDir (stagingPath transferId) = true) (hat : h.At disk sent) :
    Ensures (sortedChunks env transferId) (fun names h' => h'.At disk sent ∧
      ∃ keys, SortedKeys chunks keys ∧ names = keys.map nameOf) h := by
  refine (ensures_sortedChunks_listed hreliable hstages hdir hat).imp ?_
  rintro _ h' ⟨hat', n, listed, -, hkeys, rfl⟩
  exact ⟨hat', _, hkeys, rfl⟩

end ClickA.Files
