import ClickA.Files.Uplinks

/-!
# Assembly

The loop of `assemble_file` walks the positions of the sorted chunks. A chunk is added to the file
where its number is the one behind its position, and the position is reported as missing otherwise.

## Main definitions

* `Uniform`: all chunks of a folder say the same number of chunks
* `inPlace`, `pieceAt`: the chunk at a position has the number behind it, and its bytes
* `Assembled`: the files while a file is put together

## Main results

* `ensures_assembleChunks`: what the loop adds and reports
* `wp_assemble`, `wp_assemble_of_lt`: how the body of `assemble_file` ends, where the folder has
  enough chunks for all positions and where it does not
-/

namespace ClickA.Files

open Python Python.Disk

/-- All chunks say the same number of chunks. -/
def Uniform (chunks : Chunks) (seqLen : ℕ) : Prop :=
  ∀ key, (chunks key).isSome = true → key.1 ≤ seqLen ∧ key.2 = seqLen

/-- The chunk at a position has the number behind it. -/
def inPlace (keys : List Key) (i : ℕ) : Bool := keys[i]?.any fun key => key.1 = i + 1

/-- The bytes of the chunk at a position. -/
def pieceAt (chunks : Chunks) (keys : List Key) (i : ℕ) : Bytes := (keys[i]?.bind chunks).getD []

/-- The positions that are reported, of the first ones. -/
def gaps (keys : List Key) (n : ℕ) : List ℕ := (List.range n).filter fun i => !inPlace keys i

/-- What is added to the file, of the first positions. -/
def added (chunks : Chunks) (keys : List Key) (n : ℕ) : Bytes :=
  ((List.range n).filter (inPlace keys)).flatMap (pieceAt chunks keys)

/-- The files while a file is put together of chunks. Where it is none of the chunks itself, they
stay as they were. -/
structure Assembled (chunks : Chunks) (transferId : ℕ) (outFile : Path) (disk : Disk)
    (out : Bytes) :
    Prop where
  there : ∀ key, (chunks key).isSome = true →
    (disk.content (chunkPath transferId key)).isSome = true
  opened : (disk.content outFile).isSome = true
  apart : (∀ key, (chunks key).isSome = true → outFile ≠ chunkPath transferId key) →
    disk.content outFile = some out ∧
      ∀ key, (chunks key).isSome = true → disk.content (chunkPath transferId key) = chunks key

variable {env : Env} {h : Host} {disk disk' : Disk} {sent : List Bytes} {transferId seqLen n : ℕ}
  {chunks : Chunks} {key : Key} {keys keys' : List Key} {text out data written : Bytes}
  {path outFile : Path}

/-! ## Keys -/

/-- With the same number of chunks, the numbers of the keys grow. -/
theorem SortedKeys.strict (hkeys : SortedKeys chunks keys) (huniform : Uniform chunks seqLen) :
    keys.Pairwise fun key key' => key.1 < key'.1 := by
  have hboth := hkeys.sorted.and hkeys.nodup
  refine hboth.imp_of_mem ?_
  rintro key key' hkey hkey' ⟨hle, hne⟩
  refine lt_of_le_of_ne hle fun heq => hne (Prod.ext heq ?_)
  rw [(huniform key ((hkeys.mem key).mp hkey)).2, (huniform key' ((hkeys.mem key').mp hkey')).2]

/-- There is one order of the keys. -/
theorem SortedKeys.unique (hkeys : SortedKeys chunks keys) (hkeys' : SortedKeys chunks keys')
    (huniform : Uniform chunks seqLen) : keys = keys' := by
  have hperm : keys.Perm keys' := (List.perm_ext_iff_of_nodup hkeys.nodup hkeys'.nodup).mpr
    fun key => (hkeys.mem key).trans (hkeys'.mem key).symm
  refine hperm.eq_of_pairwise ?_ (hkeys.strict huniform) (hkeys'.strict huniform)
  intro key key' _ _ hlt hlt'
  exact absurd hlt' (Nat.not_lt.mpr hlt.le)

/-! ## The loop -/

@[simp] theorem wp_within {α : Type} {missing : List ℕ} {x : Stmt α} {Q : α → Host → Prop}
    {E : Err × List ℕ → Host → Prop} :
    Wp (within missing x) Q E h ↔ Wp x Q (fun e h' => E (e, missing) h') h := by
  unfold Wp within
  cases x h with
  | ok a h' => exact Iff.rfl
  | error e h' => exact Iff.rfl

theorem gaps_succ : gaps keys (n + 1) =
    if inPlace keys n then gaps keys n else gaps keys n ++ [n] := by
  unfold gaps
  rw [List.range_succ, List.filter_append]
  cases hplace : inPlace keys n with
  | false => simp [hplace]
  | true => simp [hplace]

theorem added_succ : added chunks keys (n + 1) =
    if inPlace keys n then added chunks keys n ++ pieceAt chunks keys n
    else added chunks keys n := by
  unfold added
  rw [List.range_succ, List.filter_append, List.flatMap_append]
  cases hplace : inPlace keys n with
  | false => simp [hplace]
  | true => simp [hplace]

/-- A chunk is added to the file. -/
theorem Assembled.put (hassembled : Assembled chunks transferId outFile disk out)
    (hout : disk.content outFile = some written)
    (hdata : disk.content (chunkPath transferId key) = some data)
    (hkey : (chunks key).isSome = true) :
    Assembled chunks transferId outFile (disk.put outFile (written ++ data))
      (out ++ (chunks key).getD []) where
  there := by
    intro key' hkey'
    by_cases heq : chunkPath transferId key' = outFile
    · rw [heq, content_put]
      rfl
    · rw [content_put_of_ne heq]
      exact hassembled.there key' hkey'
  opened := by
    rw [content_put]
    rfl
  apart := by
    intro hapart
    obtain ⟨hout', hchunks⟩ := hassembled.apart hapart
    rw [hout, Option.some.injEq] at hout'
    rw [content_put, hout', ← hchunks key hkey, hdata]
    refine ⟨rfl, fun key' hkey' => ?_⟩
    rw [content_put_of_ne (hapart key' hkey').symm]
    exact hchunks key' hkey'

/-- A turn of the loop adds the chunk, or reports its position. -/
theorem ensures_assembleChunk (hreliable : env.Reliable) (hmem : ∀ key ∈ keys,
      (chunks key).isSome = true ∧ key.1 < 100000 ∧ key.2 = seqLen)
    (hseqLen : seqLen < 100000) (hn : n < keys.length)
    (hassembled : Assembled chunks transferId outFile disk (added chunks keys n))
    (hat : h.At disk sent) :
    Ensures (assembleChunk env transferId outFile (keys.map nameOf) seqLen (gaps keys n) n)
      (fun missing h' => missing = gaps keys (n + 1) ∧ ∃ disk', h'.At disk' sent ∧
        Assembled chunks transferId outFile disk' (added chunks keys (n + 1))) h := by
  obtain ⟨hkey, hlt, hlen⟩ := hmem keys[n] (List.getElem_mem hn)
  obtain ⟨data, hdata⟩ := Option.isSome_iff_exists.mp (hassembled.there _ hkey)
  obtain ⟨written, hwritten⟩ := Option.isSome_iff_exists.mp hassembled.opened
  have hreadable : Readable env _ _ _ _ := readable_chunk hdata
  have hindex : index (keys.map nameOf) n = .ok (nameOf keys[n]) := by
    rw [index_of_lt (by rwa [List.length_map]), List.getElem_map]
  have hmatches : matchesChunkName (nameOf keys[n]) = true :=
    matchesChunkName_chunkName hlt (hlen ▸ hseqLen)
  have hnumbers : numbersOf (nameOf keys[n]) = .ok ((keys[n].1 : ℤ), (seqLen : ℤ)) := by
    rw [← hlen]
    exact numbersOf_chunkName
  unfold assembleChunk
  rw [hindex, Ensures, wp_bind, wp_raise_ok, hmatches, hnumbers]
  dsimp only
  rw [if_neg (by simp), wp_bind, wp_raise_ok]
  dsimp only
  rw [if_neg (not_not.mpr rfl)]
  refine (ensures_stat hreliable hreadable hat).bind ?_
  rintro _ h' ⟨-, hat'⟩
  rw [gaps_succ, added_succ]
  by_cases hplace : keys[n].1 = n + 1
  · have hin : inPlace keys n = true := by simp [inPlace, hn, hplace]
    have hpiece : pieceAt chunks keys n = (chunks keys[n]).getD [] := by simp [pieceAt, hn]
    rw [if_neg (by simp [hplace]), if_pos hin, if_pos hin, hpiece]
    refine (ensures_openRead hreliable hreadable hat').bind ?_
    rintro _ h' ⟨rfl, hat'⟩
    refine (ensures_readAll hreliable hdata hat').bind ?_
    rintro _ h' ⟨rfl, hat'⟩
    refine (ensures_write hreliable hwritten hat').bind ?_
    intro _ h' hat'
    exact ⟨rfl, _, hat', hassembled.put hwritten hdata hkey⟩
  · have hin : inPlace keys n = false := by simp [inPlace, hn, hplace]
    rw [if_pos (by exact_mod_cast hplace), hin, if_neg Bool.false_ne_true,
      if_neg Bool.false_ne_true]
    exact ⟨rfl, disk, hat', hassembled⟩

/-- **The loop adds the chunks in place and reports the other positions.** -/
theorem ensures_assembleChunks (hreliable : env.Reliable) (hmem : ∀ key ∈ keys,
      (chunks key).isSome = true ∧ key.1 < 100000 ∧ key.2 = seqLen)
    (hseqLen : seqLen < 100000) (hn : n ≤ keys.length)
    (hassembled : Assembled chunks transferId outFile disk []) (hat : h.At disk sent) :
    Ensures ((List.range n).foldlM (fun missing i => within missing
        (assembleChunk env transferId outFile (keys.map nameOf) seqLen missing i)) [])
      (fun missing h' => missing = gaps keys n ∧ ∃ disk', h'.At disk' sent ∧
        Assembled chunks transferId outFile disk' (added chunks keys n)) h := by
  induction n with
  | zero => exact ⟨rfl, disk, hat, hassembled⟩
  | succ n ih =>
    rw [List.range_succ, List.foldlM_append]
    refine (ih (Nat.le_of_succ_le hn)).bind ?_
    rintro _ h' ⟨rfl, disk', hat', hassembled'⟩
    rw [List.foldlM_cons, Ensures, wp_bind, wp_within]
    exact ensures_assembleChunk hreliable hmem hseqLen hn hassembled' hat'

/-! ## The body -/

/-- The destination is opened. -/
theorem assembled_nil (hstages : Stages disk transferId chunks) (hmakes : Makes path disk disk') :
    Assembled chunks transferId outFile (disk'.put outFile []) [] := by
  have hcontent {key : Key} {data : Bytes} (hdata : chunks key = some data) :
      disk'.content (chunkPath transferId key) = some data :=
    hmakes.content_eq_some ((hstages.content key).trans hdata)
  refine ⟨?_, by rw [content_put]; rfl, ?_⟩
  · intro key hkey
    obtain ⟨data, hdata⟩ := Option.isSome_iff_exists.mp hkey
    by_cases heq : chunkPath transferId key = outFile
    · rw [heq, content_put]
      rfl
    · rw [content_put_of_ne heq, hcontent hdata]
      rfl
  · intro hapart
    refine ⟨content_put, fun key hkey => ?_⟩
    obtain ⟨data, hdata⟩ := Option.isSome_iff_exists.mp hkey
    rw [content_put_of_ne (hapart key hkey).symm, hcontent hdata, hdata]

/-- The body of `assemble_file` comes to its loop. -/
theorem wp_assemble_of_loop {Q : Unit → Host → Prop} {E : Err × List ℕ → Host → Prop}
    (hreliable : env.Reliable) (hstages : Stages disk transferId chunks)
    (hkeys : SortedKeys chunks keys) (huniform : Uniform chunks seqLen) (hne : keys ≠ [])
    (hwritable : Writable env disk text path) (hat : h.At disk sent)
    (hloop : ∀ h' disk', h'.At disk' sent → Assembled chunks transferId path disk' [] →
      Wp ((List.range seqLen).foldlM (fun missing i => within missing
        (assembleChunk env transferId path (keys.map nameOf) seqLen missing i)) [])
        (fun missing h' => Wp (if missing ≠ [] then throw (.file flErrMissingChunk, missing)
          else pure () : EStateM (Err × List ℕ) Host Unit) Q E h') E h') :
    Wp (assemble env transferId text) Q E h := by
  obtain ⟨key, keys, rfl⟩ := List.exists_cons_of_ne_nil hne
  have hkey := (hkeys.mem key).mp List.mem_cons_self
  obtain ⟨data, hdata⟩ := Option.isSome_iff_exists.mp hkey
  have hreadable : Readable env _ _ _ _ := readable_chunk ((hstages.content key).trans hdata)
  -- the number of chunks is read off the first name
  have htotal : totalOf (nameOf key) = .ok (seqLen : ℤ) := by
    rw [← (huniform key hkey).2]
    exact totalOf_chunkName
  unfold assemble
  rw [wp_bind, wp_within]
  refine (ensures_sortedChunks hreliable hstages (hstages.isDir key hkey) hat).mono ?_
    fun _ _ hfalse => hfalse.elim
  rintro _ h' ⟨hat', keys', hkeys', rfl⟩
  rw [hkeys'.unique hkeys huniform, List.map_cons]
  dsimp only
  rw [wp_bind, wp_within, htotal, wp_raise_ok, wp_bind, wp_within]
  refine (ensures_stat hreliable hreadable hat').mono ?_ fun _ _ hfalse => hfalse.elim
  rintro _ h' ⟨-, hat'⟩
  rw [wp_bind, wp_within]
  refine (ensures_safeOpenW hreliable hwritable hat').mono ?_ fun _ _ hfalse => hfalse.elim
  rintro _ h' ⟨rfl, disk', hmakes, hat'⟩
  rw [wp_bind]
  exact hloop h' _ hat' (assembled_nil hstages hmakes)

/-- Each key of the folder is that of a chunk. -/
theorem SortedKeys.bounds (hkeys : SortedKeys chunks keys) (huniform : Uniform chunks seqLen)
    (hseqLen : seqLen < 2 ^ 16) : ∀ key ∈ keys,
      (chunks key).isSome = true ∧ key.1 < 100000 ∧ key.2 = seqLen := by
  intro key hmem
  have hkey := (hkeys.mem key).mp hmem
  obtain ⟨hle, hlen⟩ := huniform key hkey
  exact ⟨hkey, by omega, hlen⟩

/-- **Where the folder has enough chunks, the body reports the positions without one in place.** -/
theorem wp_assemble (hreliable : env.Reliable) (hstages : Stages disk transferId chunks)
    (hkeys : SortedKeys chunks keys) (huniform : Uniform chunks seqLen) (hseqLen : seqLen < 2 ^ 16)
    (hne : keys ≠ []) (hlength : seqLen ≤ keys.length) (hwritable : Writable env disk text path)
    (hat : h.At disk sent) :
    Wp (assemble env transferId text)
      (fun _ h' => gaps keys seqLen = [] ∧ ∃ disk', h'.At disk' sent ∧
        Assembled chunks transferId path disk' (added chunks keys seqLen))
      (fun e h' => gaps keys seqLen ≠ [] ∧
        e = (.file flErrMissingChunk, gaps keys seqLen) ∧ ∃ disk', h'.At disk' sent) h := by
  apply wp_assemble_of_loop hreliable hstages hkeys huniform hne hwritable hat
  intro h' disk' hat' hassembled
  refine (ensures_assembleChunks hreliable (hkeys.bounds huniform hseqLen) (by omega) hlength
    hassembled hat').mono ?_ fun _ _ hfalse => hfalse.elim
  rintro _ h' ⟨rfl, disk', hat', hassembled'⟩
  by_cases hgaps : gaps keys seqLen = []
  · rw [if_neg (not_not.mpr hgaps), wp_pure]
    exact ⟨hgaps, disk', hat', hassembled'⟩
  · rw [if_pos hgaps, wp_throw]
    exact ⟨hgaps, rfl, disk', hat'⟩

/-- **Where the folder has too few chunks, the body raises** at the first position without one. -/
theorem wp_assemble_of_lt (hreliable : env.Reliable) (hstages : Stages disk transferId chunks)
    (hkeys : SortedKeys chunks keys) (huniform : Uniform chunks seqLen) (hseqLen : seqLen < 2 ^ 16)
    (hne : keys ≠ []) (hlength : keys.length < seqLen) (hwritable : Writable env disk text path)
    (hat : h.At disk sent) :
    Wp (assemble env transferId text) (fun _ _ => False)
      (fun e _ => e.1 = .raised .indexError) h := by
  apply wp_assemble_of_loop hreliable hstages hkeys huniform hne hwritable hat
  intro h' disk' hat' hassembled
  obtain ⟨k, rfl⟩ : ∃ k, seqLen = keys.length + (1 + k) := ⟨seqLen - keys.length - 1, by omega⟩
  rw [List.range_add, List.foldlM_append, wp_bind]
  refine (ensures_assembleChunks hreliable (hkeys.bounds huniform hseqLen) (by omega) le_rfl
    hassembled hat').mono ?_ fun _ _ hfalse => hfalse.elim
  rintro _ h' ⟨rfl, -, -, -⟩
  rw [Nat.add_comm 1 k, List.range_succ_eq_map, List.map_cons, List.foldlM_cons, wp_bind, wp_within]
  unfold assembleChunk
  rw [index_of_le (by rw [List.length_map]; exact le_rfl), wp_bind, wp_raise_error]

end ClickA.Files
