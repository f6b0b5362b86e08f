import ClickA.Python.Csv
import ClickA.Python.Text
import Mathlib.Data.List.Induction
import Mathlib.Data.List.Nodup

/-!
# The index of the logs

`file_manager.py`: when a `ManagedFileOpen` is left, `update_index` writes the index of the
directory anew, with a row for the tags of the file. The index is a table whose header grows with
the keys of the tags, and the rows before are written again below the new header.

## Main definitions

* `Tags`: the tags of a file, a dictionary
* `RowDict`, `dictRow`, `dictToList`: the rows of `csv.DictReader` and `csv.DictWriter`
* `updateIndex`, `closes`: `update_index`, and the files that are left one after the other
* `entry`: what the index has on a file

## Main results

* `updateIndex_table`: a row is added, and the others keep their values
* `reader_closes`: the index has a row on every file, and a column for each key
-/

namespace ClickA.Logs

open Python

/-! ## Dictionaries -/

/-- A dictionary of texts, in the order of its keys. -/
structure Tags where
  items : List (Bytes × Bytes)
  nodup : (items.map Prod.fst).Nodup

/-- `d.keys()`. -/
def Tags.keys (t : Tags) : List Bytes := t.items.map Prod.fst

/-- `d.get(key)`. -/
def Tags.get (t : Tags) (key : Bytes) : Option Bytes := t.items.lookup key

/-- A row of `csv.DictReader`: the values of the field names, where `None` stands for those that
are missing, and whether the row has fields without a name, which have the key `None`. -/
structure RowDict where
  items : List (Bytes × Option Bytes)
  rest : Bool

/-- The dictionary of a row: the last field of a name counts. -/
def dictRow (fieldnames row : List Bytes) : RowDict where
  items := (fieldnames.zip
    (row.map some ++ List.replicate (fieldnames.length - row.length) none)).reverse
  rest := fieldnames.length < row.length

/-- The dictionary of tags. -/
def Tags.toDict (t : Tags) : RowDict where
  items := t.items.map fun item => (item.1, some item.2)
  rest := false

/-- `_dict_to_list` of `csv.DictWriter`, and the texts that the writer makes of the values: `None`
is written as the empty text. -/
def dictToList (fieldnames : List Bytes) (d : RowDict) : Except Csv.Error (List Bytes) :=
  if d.rest || d.items.any fun item => !fieldnames.contains item.1 then .error .valueError
  else .ok (fieldnames.map fun key =>
    match d.items.lookup key with
    | some (some value) => value
    | _ => [])

/-! ## The code -/

/-- The keys of a new index. -/
def firstKeys : List Bytes := [ascii "_name", ascii "_time", ascii "_size"]

/-- `old_keys + [k for k in new_keys if k not in old_keys]`. -/
def addKeys (oldKeys newKeys : List Bytes) : List Bytes :=
  oldKeys ++ newKeys.filter fun k => !oldKeys.contains k

/-- `update_index`, for the index that there is. Where it raises, that index is left. -/
def updateIndex (index : Option Bytes) (tags : Tags) : Except Csv.Error Bytes :=
  match index with
  | some content => do
    let rows ← Csv.reader content
    let oldKeys := rows.headD []
    let keys := if oldKeys ≠ [] then addKeys oldKeys tags.keys else tags.keys
    -- the reader of dictionaries passes over empty rows
    let written ← (rows.tail.filter (· ≠ [])).mapM fun row => dictToList keys (dictRow oldKeys row)
    let row ← dictToList keys tags.toDict
    return (keys :: (written ++ [row])).flatMap Csv.writeRow
  | none => do
    let keys := addKeys firstKeys tags.keys
    let row ← dictToList keys tags.toDict
    return [keys, row].flatMap Csv.writeRow

/-- The index after some files are left, one after the other. -/
def closes (index : Option Bytes) (ts : List Tags) : Except Csv.Error (Option Bytes) :=
  ts.foldlM (fun index tags => some <$> updateIndex index tags) index

/-! ## Tables -/

/-- What the index has on a file: its tags, by the keys of the header. -/
def entry (keys : List Bytes) (t : Tags) : List Bytes := keys.map fun key => (t.get key).getD []

/-- Keys and values that the reader and the writer leave as they are. -/
def Tags.Plain (t : Tags) : Prop := ∀ item ∈ t.items, Csv.Plain item.1 ∧ Csv.Plain item.2

instance (t : Tags) : Decidable t.Plain := inferInstanceAs (Decidable (∀ item ∈ t.items, _ ∧ _))

section Tables

variable {keys : List Bytes} {t : Tags} {ts : List Tags} {key : Bytes}

theorem lookup_map_self (f : Bytes → Option Bytes) (l : List Bytes) (key : Bytes) :
    (l.map fun k => (k, f k)).lookup key = if key ∈ l then some (f key) else none := by
  induction l with
  | nil => rfl
  | cons k l ih =>
    rw [List.map_cons, List.lookup_cons, ih]
    by_cases hk : key = k
    · simp [hk]
    · rw [beq_eq_false_iff_ne.mpr hk]
      simp [hk]

theorem Tags.get_eq_none (h : key ∉ t.keys) : t.get key = none := by
  rw [Tags.get, List.lookup_eq_none_iff]
  intro item hitem
  rw [bne_iff_ne]
  rintro rfl
  exact h (List.mem_map_of_mem hitem)

theorem length_entry (keys : List Bytes) (t : Tags) : (entry keys t).length = keys.length :=
  List.length_map _

/-- A dictionary whose keys are all field names. -/
theorem dictToList_eq {d : RowDict} (hrest : d.rest = false) (h : ∀ item ∈ d.items, item.1 ∈ keys) :
    dictToList keys d = .ok (keys.map fun key =>
      match d.items.lookup key with
      | some (some value) => value
      | _ => []) := by
  have hany : (d.items.any fun item => !keys.contains item.1) = false := by
    rw [List.any_eq_false]
    intro item hitem
    simp [h item hitem]
  rw [dictToList, hrest, hany]
  rfl

/-- The tags of a file are written below the header. -/
theorem dictToList_toDict (h : ∀ key ∈ t.keys, key ∈ keys) :
    dictToList keys t.toDict = .ok (entry keys t) := by
  have hitems : ∀ item ∈ t.toDict.items, item.1 ∈ keys := by
    intro item hitem
    obtain ⟨item', hitem', rfl⟩ := List.mem_map.mp hitem
    exact h _ (List.mem_map_of_mem hitem')
  have hlookup (key : Bytes) : t.toDict.items.lookup key = (t.get key).map some := by
    rw [Tags.get, Tags.toDict]
    induction t.items with
    | nil => rfl
    | cons item items ih =>
      rw [List.map_cons, List.lookup_cons, List.lookup_cons, ih]
      split <;> rfl
  rw [dictToList_eq rfl hitems, entry]
  refine congrArg Except.ok (List.map_congr_left fun key _ => ?_)
  rw [hlookup]
  cases t.get key <;> rfl

/-- A row that was written is written again below a longer header. -/
theorem dictToList_dictRow {keys' : List Bytes} (hkeys : ∀ key ∈ keys, key ∈ keys')
    (ht : ∀ key ∈ t.keys, key ∈ keys) :
    dictToList keys' (dictRow keys (entry keys t)) = .ok (entry keys' t) := by
  have hitems : (dictRow keys (entry keys t)).items =
      keys.reverse.map fun k => (k, some ((t.get k).getD [])) := by
    have hzip : keys.map (fun k => (k, some ((t.get k).getD []))) =
        keys.zip ((entry keys t).map some) :=
      List.zip_of_prod (by rw [List.map_map]; exact List.map_id _) (by simp [entry])
    rw [dictRow, length_entry, Nat.sub_self, List.replicate_zero, List.append_nil, ← hzip,
      List.map_reverse]
  have hrest : (dictRow keys (entry keys t)).rest = false := by
    rw [dictRow, length_entry]
    simp
  have hknown : ∀ item ∈ (dictRow keys (entry keys t)).items, item.1 ∈ keys' := by
    rw [hitems]
    intro item hitem
    obtain ⟨k, hk, rfl⟩ := List.mem_map.mp hitem
    exact hkeys k (List.mem_reverse.mp hk)
  rw [dictToList_eq hrest hknown, hitems]
  refine congrArg Except.ok (List.map_congr_left fun key _ => ?_)
  rw [lookup_map_self]
  by_cases hkey : key ∈ keys
  · rw [if_pos (List.mem_reverse.mpr hkey)]
  · rw [if_neg (mt List.mem_reverse.mp hkey), Tags.get_eq_none fun h => hkey (ht key h)]
    rfl

theorem nodup_addKeys {newKeys : List Bytes} (hkeys : keys.Nodup) (hnew : newKeys.Nodup) :
    (addKeys keys newKeys).Nodup := by
  refine List.Nodup.append hkeys (hnew.filter _) fun k hk hk' => ?_
  have hnot := (List.mem_filter.mp hk').2
  simp [hk] at hnot

theorem mem_addKeys {newKeys : List Bytes} :
    key ∈ addKeys keys newKeys ↔ key ∈ keys ∨ key ∈ newKeys := by
  rw [addKeys, List.mem_append, List.mem_filter]
  by_cases h : key ∈ keys <;> simp [h]

/-- The index is a table of the tags of some files. -/
structure Table (keys : List Bytes) (ts : List Tags) (content : Bytes) : Prop where
  nodup : keys.Nodup
  ne_nil : keys ≠ []
  plain : ∀ key ∈ keys, Csv.Plain key
  covers : ∀ t ∈ ts, ∀ key ∈ t.keys, key ∈ keys
  content_eq : content = (keys :: ts.map (entry keys)).flatMap Csv.writeRow

theorem plain_get (ht : t.Plain) (key : Bytes) : Csv.Plain ((t.get key).getD []) := by
  cases hget : t.get key with
  | none => exact ⟨List.not_mem_nil, Nat.zero_le _⟩
  | some value =>
    obtain ⟨l₁, l₂, hitems, -⟩ := List.lookup_eq_some_iff.mp hget
    exact (ht (key, value) (hitems ▸ List.mem_append_right _ List.mem_cons_self)).2

/-- A table is read as what it is. -/
theorem Table.reader_eq {content : Bytes} (h : Table keys ts content) (hts : ∀ t ∈ ts, t.Plain) :
    Csv.reader content = .ok (keys :: ts.map (entry keys)) := by
  rw [h.content_eq]
  refine Csv.reader_flatMap_writeRow fun row hrow => ?_
  rcases List.mem_cons.mp hrow with rfl | hrow
  · exact h.plain
  · obtain ⟨t, ht, rfl⟩ := List.mem_map.mp hrow
    intro field hfield
    obtain ⟨key, -, rfl⟩ := List.mem_map.mp hfield
    exact plain_get (hts t ht) key

theorem plain_key (ht : t.Plain) : ∀ key ∈ t.keys, Csv.Plain key := by
  intro key hkey
  obtain ⟨item, hitem, rfl⟩ := List.mem_map.mp hkey
  exact (ht item hitem).1

/-- The rows of the files before are written again. -/
theorem mapM_dictRow {keys' : List Bytes} (hkeys : ∀ key ∈ keys, key ∈ keys')
    (hts : ∀ t ∈ ts, ∀ key ∈ t.keys, key ∈ keys) :
    ((ts.map (entry keys)).mapM fun row => dictToList keys' (dictRow keys row)) =
      .ok (ts.map (entry keys')) := by
  induction ts with
  | nil => rfl
  | cons t ts ih =>
    rw [List.map_cons, List.mapM_cons, dictToList_dictRow hkeys (hts t List.mem_cons_self), ok_bind,
      ih fun t' ht' => hts t' (List.mem_cons_of_mem t ht')]
    rfl

/-- **A row is added, and the others keep their values.** -/
theorem updateIndex_table {content : Bytes} (h : Table keys ts content) (hts : ∀ t ∈ ts, t.Plain)
    (ht : t.Plain) : ∃ content', updateIndex (some content) t = .ok content' ∧
      Table (addKeys keys t.keys) (ts ++ [t]) content' := by
  have hfilter : (ts.map (entry keys)).filter (· ≠ []) = ts.map (entry keys) := by
    refine List.filter_eq_self.mpr fun row hrow => ?_
    obtain ⟨t', -, rfl⟩ := List.mem_map.mp hrow
    have hlen := length_entry keys t'
    simpa [← List.length_eq_zero_iff, hlen] using h.ne_nil
  have hkeys : ∀ key ∈ keys, key ∈ addKeys keys t.keys :=
    fun key hkey => mem_addKeys.mpr (.inl hkey)
  have hwritten := mapM_dictRow hkeys h.covers
  have hrow : dictToList (addKeys keys t.keys) t.toDict = .ok (entry (addKeys keys t.keys) t) :=
    dictToList_toDict fun key hkey => mem_addKeys.mpr (.inr hkey)
  refine ⟨_, ?_, nodup_addKeys h.nodup t.nodup, ?_, ?_, ?_, rfl⟩
  · rw [updateIndex, h.reader_eq hts, ok_bind]
    dsimp only [List.headD_cons, List.tail_cons]
    rw [if_pos h.ne_nil, hfilter, hwritten, ok_bind, hrow, ok_bind, List.map_append,
      List.map_singleton]
    rfl
  · exact List.append_ne_nil_of_left_ne_nil h.ne_nil _
  · intro key hkey
    exact (mem_addKeys.mp hkey).elim (h.plain key) (plain_key ht key)
  · intro t' ht' key hkey
    rcases List.mem_append.mp ht' with ht' | ht'
    · exact mem_addKeys.mpr (.inl (h.covers t' ht' key hkey))
    · obtain rfl := List.mem_singleton.mp ht'
      exact mem_addKeys.mpr (.inr hkey)

/-- The first file makes a table with one row. -/
theorem updateIndex_none (ht : t.Plain) : ∃ content, updateIndex none t = .ok content ∧
    Table (addKeys firstKeys t.keys) [t] content := by
  have hrow : dictToList (addKeys firstKeys t.keys) t.toDict =
      .ok (entry (addKeys firstKeys t.keys) t) :=
    dictToList_toDict fun key hkey => mem_addKeys.mpr (.inr hkey)
  have hfirst : ∀ key ∈ firstKeys, Csv.Plain key := by decide
  refine ⟨_, ?_, nodup_addKeys (by decide) t.nodup, ?_, ?_, ?_, rfl⟩
  · rw [updateIndex, hrow]
    rfl
  · exact List.append_ne_nil_of_left_ne_nil (by decide) _
  · intro key hkey
    exact (mem_addKeys.mp hkey).elim (hfirst key) (plain_key ht key)
  · intro t' ht' key hkey
    obtain rfl := List.mem_singleton.mp ht'
    exact mem_addKeys.mpr (.inr hkey)

end Tables

/-! ## Runs -/

/-- The header behind some files: the keys in the order in which they came. -/
def header (ts : List Tags) : List Bytes := ts.foldl (fun keys t => addKeys keys t.keys) firstKeys

section Runs

variable {ts : List Tags}

theorem header_concat (ts : List Tags) (t : Tags) :
    header (ts ++ [t]) = addKeys (header ts) t.keys := by
  rw [header, List.foldl_append]
  rfl

theorem mem_header {key : Bytes} :
    key ∈ header ts ↔ key ∈ firstKeys ∨ ∃ t ∈ ts, key ∈ t.keys := by
  induction ts using List.reverseRecOn with
  | nil => simp [header]
  | append_singleton ts t ih =>
    rw [header_concat, mem_addKeys, ih, or_assoc]
    simp [or_and_right, exists_or]

theorem closes_concat (index : Option Bytes) (ts : List Tags) (t : Tags) :
    closes index (ts ++ [t]) =
      closes index ts >>= fun index' => some <$> updateIndex index' t := by
  rw [closes, List.foldlM_append]
  refine bind_congr fun index' => ?_
  rw [List.foldlM_cons]
  cases updateIndex index' t <;> rfl

/-- Behind some files there is a table of them, or no index if there was none. -/
theorem exists_table (hts : ∀ t ∈ ts, t.Plain) :
    (ts = [] ∧ closes none ts = .ok none) ∨
      ∃ content, closes none ts = .ok (some content) ∧ Table (header ts) ts content := by
  induction ts using List.reverseRecOn with
  | nil => exact .inl ⟨rfl, rfl⟩
  | append_singleton ts t ih =>
    have ht := hts t (List.mem_append_right ts List.mem_cons_self)
    have hts' : ∀ t ∈ ts, t.Plain := fun t' h => hts t' (List.mem_append_left [t] h)
    right
    rw [closes_concat, header_concat]
    rcases ih hts' with ⟨rfl, hnone⟩ | ⟨content, hcontent, htable⟩
    · obtain ⟨content, hfirst, htable⟩ := updateIndex_none ht
      exact ⟨content, by rw [hnone, ok_bind, hfirst]; rfl, htable⟩
    · obtain ⟨content', hnext, htable'⟩ := updateIndex_table htable hts' ht
      exact ⟨content', by rw [hcontent, ok_bind, hnext]; rfl, htable'⟩

/-- **Behind any files, the index reads as a row on each of them, in order, below a header with
each key once: a file has its tags there, and nothing in the columns of the others.** -/
theorem reader_closes (hts : ∀ t ∈ ts, t.Plain) (hne : ts ≠ []) : ∃ content,
    closes none ts = .ok (some content) ∧
    Csv.reader content = .ok (header ts :: ts.map (entry (header ts))) ∧
    (header ts).Nodup ∧
    ∀ key, key ∈ header ts ↔ key ∈ firstKeys ∨ ∃ t ∈ ts, key ∈ t.keys := by
  rcases exists_table hts with ⟨hnil, -⟩ | ⟨content, hcontent, htable⟩
  · exact absurd hnil hne
  · exact ⟨content, hcontent, htable.reader_eq hts, htable.nodup, fun key => mem_header⟩

/-- A log with a tag of its own, and one without. -/
def tagged : List Tags :=
  [⟨[(ascii "_name", ascii "a.gz"), (ascii "tree", ascii "I, groot")], by decide⟩,
    ⟨[(ascii "_name", ascii "b.gz")], by decide⟩]

theorem reader_closes_tagged : ∃ content,
    closes none tagged = .ok (some content) ∧
    Csv.reader content = .ok (header tagged :: tagged.map (entry (header tagged))) ∧
    (header tagged).Nodup ∧
    ∀ key, key ∈ header tagged ↔ key ∈ firstKeys ∨ ∃ t ∈ tagged, key ∈ t.keys :=
  reader_closes (by decide) (List.cons_ne_nil _ _)

end Runs

end ClickA.Logs
