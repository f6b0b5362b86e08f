import ClickA.Files.Transfer

/-!
# Names of chunks

The numbers in the name of a chunk are read back from it, and the names of the staging folder are
the last names of their paths.

## Main definitions

* `stagingPath`: the path of the staging folder of a transfer

## Main results

* `numbersOf_chunkName`, `totalOf_chunkName`, `keyOf_chunkName`: what is read back from a name
* `chunkName_inj`: the name of a chunk has its two numbers
* `matchesChunkName_chunkName`: names with numbers of at most five digits match the pattern
* `target_staging`, `resolve_stagingDir`: where the texts of the staging folder lead
-/

namespace ClickA.Files

open Python

variable {a b a' b' transferId : ℕ} {cwd : Path} {name : Name}

/-! ## Numbers -/

theorem chunkName_eq : chunkName a b = str a ++ underscore :: (str b ++ ascii ".chunk") := by
  unfold chunkName
  rw [List.append_assoc, List.append_assoc]
  rfl

theorem splitAt_chunkName :
    splitAt underscore (chunkName a b) = [str a, str b ++ ascii ".chunk"] := by
  have hsecond : underscore ∉ str b ++ ascii ".chunk" := by
    rw [List.mem_append]
    exact not_or.mpr ⟨not_mem_str rfl, by decide⟩
  rw [chunkName_eq, splitAt_append, splitAt_of_not_mem (not_mem_str rfl),
    splitAt_of_not_mem hsecond]
  rfl

theorem parts_chunkName : parts (chunkName a b) = .ok (str a, str b ++ ascii ".chunk") := by
  unfold parts
  rw [splitAt_chunkName]

/-- Without its last six bytes, the second part is the number of chunks. -/
theorem slice_chunk : slice (str b ++ ascii ".chunk") 0 (-6) = str b := by
  have hbound : bound (str b ++ ascii ".chunk").length (-6) = (str b).length := by
    have hlength : (ascii ".chunk").length = 6 := by decide
    unfold bound
    rw [if_neg (by decide), List.length_append, hlength]
    omega
  unfold slice
  rw [hbound, List.take_left' rfl]
  have hzero : bound (str b ++ ascii ".chunk").length 0 = 0 := by
    unfold bound
    rw [if_pos (le_refl 0)]
    exact Nat.zero_min _
  rw [hzero, List.drop_zero]

theorem totalOf_chunkName : totalOf (chunkName a b) = .ok (b : ℤ) := by
  unfold totalOf
  rw [parts_chunkName, ok_bind]
  dsimp only
  rw [slice_chunk, intOf_str]

theorem numbersOf_chunkName : numbersOf (chunkName a b) = .ok ((a : ℤ), (b : ℤ)) := by
  unfold numbersOf
  rw [parts_chunkName, ok_bind]
  dsimp only
  rw [slice_chunk, intOf_str, intOf_str]
  rfl

theorem keyOf_chunkName : keyOf (chunkName a b) = .ok (a : ℤ) := by
  unfold keyOf
  rw [splitAt_chunkName]
  exact intOf_str a

/-- The name of a chunk has its two numbers. -/
theorem chunkName_inj : chunkName a b = chunkName a' b' ↔ a = a' ∧ b = b' := by
  constructor
  · intro h
    have hnumbers := numbersOf_chunkName (a := a) (b := b)
    rw [h, numbersOf_chunkName, Except.ok.injEq, Prod.mk.injEq] at hnumbers
    exact ⟨(Int.natCast_inj.mp hnumbers.1).symm, (Int.natCast_inj.mp hnumbers.2).symm⟩
  · rintro ⟨rfl, rfl⟩
    rfl

/-! ## Patterns -/

theorem isChunk_chunkName : isChunk (chunkName a b) = true := by
  unfold isChunk chunkName
  rw [List.isSuffixOf_iff_suffix]
  exact List.suffix_append _ _

theorem isChunk_hashName : isChunk hashName = false := by
  decide

theorem hashName_ne_chunkName : hashName ≠ chunkName a b := fun h => by
  have hchunk := isChunk_hashName
  rw [h, isChunk_chunkName] at hchunk
  exact Bool.noConfusion hchunk

/-- Names with numbers of at most five digits match the pattern. -/
theorem matchesChunkName_chunkName (ha : a < 100000) (hb : b < 100000) :
    matchesChunkName (chunkName a b) = true := by
  have hfirst := (length_str_le_iff (n := a) (k := 5) (by omega)).mpr ha
  have hsecond := (length_str_le_iff (n := b) (k := 5) (by omega)).mpr hb
  unfold matchesChunkName
  rw [List.any_eq_true]
  refine ⟨(str a).length, List.mem_range'_1.mpr ⟨length_str_pos a, by omega⟩, ?_⟩
  rw [List.any_eq_true]
  refine ⟨(str b).length, List.mem_range'_1.mpr ⟨length_str_pos b, by omega⟩, ?_⟩
  have hdot : ascii ".chunk" = 46 :: ascii "chunk" := by decide
  rw [chunkName_eq, List.drop_left' rfl, List.take_left' rfl]
  dsimp only
  rw [List.drop_left' rfl, List.take_left' rfl, hdot]
  dsimp only
  rw [all_isDigit_str, all_isDigit_str]
  simp

/-! ## Paths -/

/-- The path of the staging folder of a transfer. -/
def stagingPath (transferId : ℕ) : Path := [str transferId, ascii "file_staging", ascii "root"]

/-- The text of the staging folder of a transfer, without the slash at its end. -/
def stagingText (transferId : ℕ) : Bytes := ascii "/root/file_staging/" ++ str transferId

theorem stagingDir_append :
    stagingDir transferId ++ name = stagingText transferId ++ slash :: name := by
  unfold stagingDir stagingText
  rw [List.append_assoc]
  rfl

theorem stagingText_ne_nil : stagingText transferId ≠ [] := by
  unfold stagingText
  exact List.append_ne_nil_of_left_ne_nil (by decide) _

theorem resolve_stagingText : resolve cwd (stagingText transferId) = stagingPath transferId := by
  have htext : stagingText transferId = ascii "/root/file_staging" ++ slash :: str transferId := by
    unfold stagingText
    rw [show ascii "/root/file_staging/" = ascii "/root/file_staging" ++ [slash] by decide,
      List.append_assoc]
    rfl
  have hroot : resolve cwd (ascii "/root/file_staging") = [ascii "file_staging", ascii "root"] := by
    unfold resolve
    rw [if_pos (by decide)]
    decide
  rw [htext, resolve_append (plain_str transferId) (not_mem_str rfl) (by decide), hroot]
  rfl

theorem resolve_stagingDir : resolve cwd (stagingDir transferId) = stagingPath transferId := by
  have htext : stagingDir transferId = stagingText transferId ++ List.replicate 1 slash := rfl
  rw [htext, resolve_append_slashes stagingText_ne_nil, resolve_stagingText]

/-- A name of the staging folder. -/
theorem target_staging (hplain : plain name = true) (hslash : slash ∉ name) :
    target cwd (stagingDir transferId ++ name) = some (name :: stagingPath transferId) := by
  rw [stagingDir_append, target_append hplain hslash stagingText_ne_nil, resolve_stagingText]

theorem dirname_staging (hslash : slash ∉ name) :
    dirname (stagingDir transferId ++ name) = stagingText transferId := by
  have hlast : (stagingText transferId).getLast? ≠ some slash := by
    unfold stagingText
    rw [List.getLast?_append_of_ne_nil _ (str_ne_nil transferId)]
    intro h
    exact not_mem_str rfl (List.mem_of_getLast? h)
  rw [stagingDir_append, dirname_append hslash stagingText_ne_nil hlast]

theorem plain_chunkName : plain (chunkName a b) = true := by
  have hne : ∀ s : Name, isChunk s = false → chunkName a b ≠ s := fun s hs heq => by
    rw [← heq, isChunk_chunkName] at hs
    exact Bool.noConfusion hs
  unfold plain
  simp [hne [] (by decide), hne (ascii ".") (by decide), hne (ascii "..") (by decide)]

theorem not_mem_chunkName {byte : UInt8} (hdigit : isDigit byte = false)
    (hother : byte ∉ ascii "_.chunk") : byte ∉ chunkName a b := by
  have hunder : byte ∉ ascii "_" := fun h => hother (by
    rw [show ascii "_.chunk" = ascii "_" ++ ascii ".chunk" by decide]
    exact List.mem_append_left _ h)
  have hchunk : byte ∉ ascii ".chunk" := fun h => hother (by
    rw [show ascii "_.chunk" = ascii "_" ++ ascii ".chunk" by decide]
    exact List.mem_append_right _ h)
  unfold chunkName
  simp only [List.mem_append, not_or]
  exact ⟨⟨⟨not_mem_str hdigit, hunder⟩, not_mem_str hdigit⟩, hchunk⟩

end ClickA.Files
