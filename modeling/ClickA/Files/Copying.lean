import ClickA.Files.Assembly
import ClickA.Files.Faults

/-!
# The copying of chunks

What the loop of `assemble_file` leaves in the destination, for any names in the staging folder and
whichever operation fails. The destination is emptied when it is opened, and the chunks are added to
it one by one while they are checked.

## Main definitions

* `Copy`: what the loop goes by
* `Copy.passes`, `Copy.copied`, `Copy.torn`: a position is passed, and what was written up to it and
  at a position that is not
* `Copy.left`: what a failed assembly leaves in the destination
* `Opens`: the assembly opens the destination

## Main results

* `Copy.wp_assembleChunk`, `Copy.wp_assembleChunks`: what a turn of the loop and the loop do
* `wp_assemble_left`: the body of `assemble_file` leaves the destination as it was, or opens it
-/

namespace ClickA.Files

open Python Python.Disk

/-- The state behind an operation that writes nothing. -/
def Host.next (h : Host) : Host := { h with operations := h.operations + 1 }

/-- The chunks of a folder, sorted by their numbers. -/
def sorted (names : List Name) : Except Exn (List Name) := do
  let keyed ← (names.filter isChunk).mapM fun name => do return (← keyOf name, name)
  return (keyed.insertionSort (·.1 ≤ ·.1)).map Prod.snd

/-- What the loop over the chunks goes by: the sorted names, the number of chunks that the first one
says, and the host when the destination was opened. -/
@[ext]
structure Copy where
  transferId : ℕ
  chunks : List Name
  seqLenAll : ℤ
  outFile : Path
  host : Host

namespace Copy

variable (env : Env) (c : Copy)

def name (i : ℕ) : Name := c.chunks.getD i []

/-- The text of the path of the chunk at a position. -/
def text (i : ℕ) : Bytes := stagingDir c.transferId ++ c.name i

/-- The chunk at a position has the number behind it. -/
def inPlace (i : ℕ) : Bool :=
  (numbersOf (c.name i)).toOption.any fun numbers => numbers.1 = (i + 1 : ℤ)

/-- The positions that are reported, of the first ones. -/
def missing (n : ℕ) : List ℕ := (List.range n).filter fun i => !c.inPlace i

/-- The number of the first operation at a position. A chunk that is not in place is looked at only,
the others are opened, read and written too. -/
def operations : ℕ → ℕ
  | 0 => c.host.operations
  | i + 1 => operations i + if c.inPlace i then 4 else 1

/-- The bytes of the chunk at a position, which may be the destination itself. -/
def piece? (out : Bytes) (i : ℕ) : Option Bytes :=
  (target env.cwd (c.text i)).bind (c.host.disk.put c.outFile out).content

/-- What was written before a position. -/
def copied : ℕ → Bytes
  | 0 => []
  | i + 1 => copied i ++ if c.inPlace i then (c.piece? env (copied i) i).getD [] else []

def disk (i : ℕ) : Disk := c.host.disk.put c.outFile (c.copied env i)

/-- The host before a position. -/
def hostAt (i : ℕ) : Host :=
  { c.host with disk := c.disk env i, operations := c.operations i }

/-- The chunk at a position is there, and its name and its number of chunks are right. -/
def checked (i : ℕ) : Bool :=
  i < c.chunks.length && matchesChunkName (c.name i) &&
    ((numbersOf (c.name i)).toOption.any fun numbers => numbers.2 = c.seqLenAll) &&
    env.fault (c.operations i) = none && (c.disk env i).exists? (resolve env.cwd (c.text i))

/-- The chunk at a position is a file that can be read. -/
def readable (i : ℕ) : Bool :=
  !(c.text i).contains 0 && env.fault (c.operations i + 1) = none &&
    (c.piece? env (c.copied env i) i).isSome && env.fault (c.operations i + 2) = none

/-- The loop goes on behind a position. -/
def passes (i : ℕ) : Bool :=
  c.checked env i && (!c.inPlace i || c.readable env i && env.fault (c.operations i + 3) = none)

/-- What is written where the loop breaks off, by a write that fails after some bytes. -/
def torn (i : ℕ) : Bytes :=
  if c.checked env i && c.inPlace i && c.readable env i then
    match env.fault (c.operations i + 3) with
    | some n => ((c.piece? env (c.copied env i) i).getD []).take n
    | none => []
  else []

/-- A turn ends normally behind a position that is passed. -/
def GoesOn (i : ℕ) (reported : List ℕ) (h' : Host) : Prop :=
  c.passes env i = true ∧ reported = c.missing (i + 1) ∧ h' = c.hostAt env (i + 1)

/-- A turn raises at a position that is not passed, and leaves what was written so far. -/
def BreaksOff (i : ℕ) (h' : Host) : Prop :=
  c.passes env i = false ∧
    h'.disk.content c.outFile = some (c.copied env i ++ c.torn env i)

/-- The first of some positions that is not passed. -/
def broken (n : ℕ) : Option ℕ := (List.range n).find? fun i => !c.passes env i

/-- What is in the destination when the assembly fails. It does not fail where each position is
passed and has its chunk. -/
def left : Option Bytes :=
  match c.broken env c.seqLenAll.toNat with
  | some i => some (c.copied env i ++ c.torn env i)
  | none => if c.missing c.seqLenAll.toNat = [] then none
    else some (c.copied env c.seqLenAll.toNat)

end Copy

/-- The assembly opens the destination: the folder has chunks and each has a number, the first one
says how many there are, and `safe_open_w` does not fail. -/
structure Opens (env : Env) (h : Host) (transferId : ℕ) (text : Bytes) (c : Copy) : Prop where
  transfer : c.transferId = transferId
  listed : env.fault h.operations = none
  folder : h.disk.isDir (stagingPath transferId) = true
  chunks : sorted (env.order (h.operations + 1) (h.disk.names (stagingPath transferId))) =
    .ok c.chunks
  nonempty : c.chunks ≠ []
  seqLenAll : totalOf (c.name 0) = .ok c.seqLenAll
  looked : env.fault (h.operations + 1) = none
  first : h.disk.exists? (resolve env.cwd (c.text 0)) = true
  opened : safeOpenW env text { h with operations := h.operations + 2 } = .ok c.outFile c.host

variable {env : Env} {h h' : Host} {text : Bytes} {path : Path} {transferId i n : ℕ}
  {content data : Bytes} {c c' : Copy}

/-! ## Operations -/

theorem wp_operate : Ensures (operate env)
    (fun fault h' => fault = env.fault h.operations ∧ h' = h.next) h := ⟨rfl, rfl⟩

theorem wp_operation : Wp (operation env)
    (fun _ h' => env.fault h.operations = none ∧ h' = h.next)
    (fun _ h' => env.fault h.operations ≠ none ∧ h' = h.next) h := by
  unfold operation
  rw [wp_bind]
  refine wp_operate.mono ?_ fun _ _ hfalse => hfalse.elim
  rintro fault h' ⟨rfl, rfl⟩
  cases hfault : env.fault h.operations with
  | none => exact ⟨rfl, rfl⟩
  | some n => exact ⟨Option.some_ne_none n, rfl⟩

theorem wp_listdir_next : Wp (listdir env text)
    (fun names h' => h' = h.next ∧ env.fault h.operations = none ∧
      h.disk.isDir (resolve env.cwd text) = true ∧
      names = env.order (h.operations + 1) (h.disk.names (resolve env.cwd text)))
    (fun _ h' => Reads h h' ∧ ¬ (env.fault h.operations = none ∧
      h.disk.isDir (resolve env.cwd text) = true)) h := by
  unfold listdir
  rw [wp_bind]
  refine wp_operation.mono ?_ ?_
  · rintro _ h' ⟨hfault, rfl⟩
    rw [wp_bind, wp_get]
    dsimp only
    split
    · rename_i hdir
      exact ⟨rfl, hfault, hdir, rfl⟩
    · rename_i hdir
      split
      · exact ⟨rfl, fun hnot => hdir hnot.2⟩
      · exact ⟨rfl, fun hnot => hdir hnot.2⟩
  · rintro _ h' ⟨hfault, rfl⟩
    exact ⟨rfl, fun hnot => hfault hnot.1⟩

theorem wp_stat_next : Wp (stat env text)
    (fun _ h' => h' = h.next ∧ env.fault h.operations = none ∧
      h.disk.exists? (resolve env.cwd text) = true)
    (fun _ h' => Reads h h' ∧ ¬ (env.fault h.operations = none ∧
      h.disk.exists? (resolve env.cwd text) = true)) h := by
  unfold stat
  rw [wp_bind]
  refine wp_operation.mono ?_ ?_
  · rintro _ h' ⟨hfault, rfl⟩
    rw [wp_bind, wp_get]
    dsimp only
    split
    · rename_i hexists
      exact ⟨rfl, hfault, hexists⟩
    · rename_i hexists
      exact ⟨rfl, fun hnot => hexists hnot.2⟩
  · rintro _ h' ⟨hfault, rfl⟩
    exact ⟨rfl, fun hnot => hfault hnot.1⟩

theorem wp_openRead_next : Wp (openRead env text)
    (fun path h' => h' = h.next ∧ text.contains 0 = false ∧ env.fault h.operations = none ∧
      target env.cwd text = some path ∧ ∃ content, h.disk.content path = some content)
    (fun _ h' => Reads h h' ∧ ¬ (text.contains 0 = false ∧ env.fault h.operations = none ∧
      ((target env.cwd text).bind h.disk.content).isSome = true)) h := by
  unfold openRead
  dsimp only
  split
  · rename_i hnul
    exact ⟨rfl, fun hnot => Bool.noConfusion (hnot.1.symm.trans hnul)⟩
  · rename_i hnul
    rw [wp_bind]
    refine wp_operation.mono ?_ ?_
    · rintro _ h' ⟨hfault, rfl⟩
      rw [wp_bind, wp_get]
      cases htarget : target env.cwd text with
      | none => exact ⟨rfl, fun hnot => Bool.noConfusion hnot.2.2⟩
      | some path =>
        dsimp only [Option.bind_some]
        have hne := target_ne_nil htarget
        cases hlookup : h.disk.lookup path with
        | none => simp [Host.next, Disk.isDir, Disk.exists?, Disk.content, Reads, hne, hlookup]
        | some node =>
          cases node with
          | file content =>
            simp_all [Host.next, Disk.isDir, Disk.exists?, Disk.content]
          | dir => simp [Host.next, Disk.isDir, Disk.content, Reads, hlookup]
    · rintro _ h' ⟨hfault, rfl⟩
      exact ⟨rfl, fun hnot => hfault hnot.2.1⟩

theorem wp_readAll_next (hcontent : h.disk.content path = some content) : Wp (readAll env path)
    (fun bytes h' => h' = h.next ∧ env.fault h.operations = none ∧ bytes = content)
    (fun _ h' => Reads h h' ∧ env.fault h.operations ≠ none) h := by
  unfold readAll
  rw [wp_bind]
  refine wp_operation.mono ?_ ?_
  · rintro _ h' ⟨hfault, rfl⟩
    refine ⟨rfl, hfault, ?_⟩
    show (h.disk.content path).getD [] = content
    rw [hcontent, Option.getD_some]
  · rintro _ h' ⟨hfault, rfl⟩
    exact ⟨rfl, hfault⟩

theorem wp_write_next (hcontent : h.disk.content path = some content) : Wp (write env path data)
    (fun _ h' => env.fault h.operations = none ∧
      h' = { h.next with disk := h.disk.put path (content ++ data) })
    (fun _ h' => ∃ n, env.fault h.operations = some n ∧
      h'.disk.content path = some (content ++ data.take n)) h := by
  unfold write
  rw [wp_bind]
  refine wp_operate.mono ?_ fun _ _ hfalse => hfalse.elim
  rintro fault h' ⟨rfl, rfl⟩
  have hnext : h.next.disk.content path = some content := hcontent
  cases hfault : env.fault h.operations with
  | none =>
    rw [wp_bind, wp_modify, hnext]
    exact ⟨rfl, rfl⟩
  | some n =>
    rw [wp_bind, wp_modify]
    refine ⟨n, rfl, ?_⟩
    rw [hnext]
    exact content_put

/-! ## The loop -/

namespace Copy

@[simp] theorem content_disk : (c.disk env i).content c.outFile = some (c.copied env i) :=
  content_put

theorem name_of_lt (hi : i < c.chunks.length) : c.chunks[i] = c.name i := by
  simp [name, hi]

theorem missing_succ : c.missing (n + 1) =
    if c.inPlace n then c.missing n else c.missing n ++ [n] := by
  unfold missing
  rw [List.range_succ, List.filter_append]
  cases hplace : c.inPlace n with
  | false => simp [hplace]
  | true => simp [hplace]

theorem broken_succ : c.broken env (n + 1) =
    (c.broken env n).or (if c.passes env n then none else some n) := by
  unfold broken
  rw [List.range_succ, List.find?_append]
  cases hpasses : c.passes env n with
  | false => simp [hpasses]
  | true => simp [hpasses]

/-- A chunk that fails a check is not written. -/
theorem breaksOff_of_not_checked (hnot : ¬ c.checked env i = true)
    (hreads : Reads (c.hostAt env i) h') : c.BreaksOff env i h' := by
  rw [Bool.not_eq_true] at hnot
  unfold BreaksOff
  rw [hreads]
  simp [passes, torn, hnot, hostAt]

/-- A chunk that cannot be read is not written. -/
theorem breaksOff_of_not_readable (hplace : c.inPlace i = true)
    (hnot : ¬ c.readable env i = true) (hreads : Reads (c.hostAt env i) h') :
    c.BreaksOff env i h' := by
  rw [Bool.not_eq_true] at hnot
  unfold BreaksOff
  rw [hreads]
  simp [passes, torn, hplace, hnot, hostAt]

theorem hostAt_succ_of_not_inPlace (hplace : c.inPlace i = false) :
    c.hostAt env (i + 1) = (c.hostAt env i).next := by
  simp [hostAt, Host.next, disk, copied, operations, hplace]

/-- What a turn does that writes a chunk. -/
theorem hostAt_succ_of_inPlace (hplace : c.inPlace i = true)
    (hpiece : c.piece? env (c.copied env i) i = some data) :
    c.hostAt env (i + 1) = { (c.hostAt env i).next.next.next.next with
      disk := (c.disk env i).put c.outFile (c.copied env i ++ data) } := by
  simp [hostAt, Host.next, disk, copied, operations, hplace, hpiece]

/-- A chunk that was checked and is in place is read, and added to the destination. -/
theorem wp_copyChunk (hchecked : c.checked env i = true) (hplace : c.inPlace i = true) :
    Wp (do
        let chunk ← openRead env (c.text i)
        write env c.outFile (← readAll env chunk)
        return c.missing i)
      (c.GoesOn env i) (fun _ h' => c.BreaksOff env i h') (c.hostAt env i).next := by
  rw [wp_bind]
  refine wp_openRead_next.mono ?_ ?_
  case refine_2 =>
    rintro _ h' ⟨hreads, hnot⟩
    refine breaksOff_of_not_readable hplace (fun hreadable => hnot ?_) hreads
    simp only [readable, Bool.and_eq_true, Bool.not_eq_true', decide_eq_true_eq] at hreadable
    exact ⟨hreadable.1.1.1, hreadable.1.1.2, hreadable.1.2⟩
  rintro source h' ⟨rfl, hnul, hopened, htarget, data, hdata⟩
  have hpiece : c.piece? env (c.copied env i) i = some data := by
    unfold piece?
    rw [htarget]
    exact hdata
  have hdata' : (c.hostAt env i).next.next.disk.content source = some data := hdata
  rw [wp_bind]
  refine (wp_readAll_next hdata').mono ?_ ?_
  case refine_2 =>
    rintro _ h' ⟨hreads, hnot⟩
    refine breaksOff_of_not_readable hplace (fun hreadable => hnot ?_) hreads
    simp only [readable, Bool.and_eq_true, decide_eq_true_eq] at hreadable
    exact hreadable.2
  rintro _ h' ⟨rfl, hread, rfl⟩
  have hreadable : c.readable env i = true := by
    simp only [readable, Bool.and_eq_true, Bool.not_eq_true', decide_eq_true_eq, hpiece]
    exact ⟨⟨⟨hnul, hopened⟩, rfl⟩, hread⟩
  have hout : (c.hostAt env i).next.next.next.disk.content c.outFile = some (c.copied env i) :=
    content_disk
  rw [wp_bind]
  refine (wp_write_next hout).mono ?_ ?_
  · rintro _ h' ⟨hwritten, rfl⟩
    rw [wp_pure]
    unfold GoesOn
    rw [missing_succ, hplace, hostAt_succ_of_inPlace hplace hpiece]
    refine ⟨?_, rfl, rfl⟩
    simp only [passes, hchecked, hplace, hreadable, Bool.and_eq_true, Bool.not_true,
      Bool.false_or, decide_eq_true_eq]
    exact ⟨trivial, trivial, hwritten⟩
  · rintro _ h' ⟨n, hwritten, hcontent⟩
    have hfault : env.fault (c.operations i + 3) = some n := hwritten
    unfold BreaksOff
    rw [hcontent]
    simp [passes, torn, hchecked, hplace, hreadable, hfault, hpiece]

/-- **A turn of the loop** goes to the next position, or leaves what was written so far. -/
theorem wp_assembleChunk :
    Wp (assembleChunk env c.transferId c.outFile c.chunks c.seqLenAll (c.missing i) i)
      (c.GoesOn env i) (fun _ h' => c.BreaksOff env i h') (c.hostAt env i) := by
  unfold assembleChunk
  -- the checks in the order of the source: each one that fails leaves the destination as it is
  by_cases hi : i < c.chunks.length
  case neg =>
    rw [index_of_le (Nat.not_lt.mp hi), wp_bind, wp_raise_error]
    exact breaksOff_of_not_checked (by simp [checked, hi]) rfl
  rw [index_of_lt hi, wp_bind, wp_raise_ok, name_of_lt hi]
  dsimp only
  by_cases hmatches : matchesChunkName (c.name i) = true
  case neg =>
    rw [if_pos (by simpa using hmatches), wp_bind, wp_throw]
    exact breaksOff_of_not_checked (by simp [checked, hmatches]) rfl
  rw [if_neg (by simpa using hmatches), wp_bind]
  cases hnumbers : numbersOf (c.name i) with
  | error e => exact breaksOff_of_not_checked (by simp [checked, hnumbers, Except.toOption]) rfl
  | ok numbers =>
    obtain ⟨seqNum, seqLen⟩ := numbers
    rw [wp_raise_ok]
    dsimp only
    by_cases hlen : seqLen = c.seqLenAll
    case neg =>
      rw [if_pos hlen, wp_bind, wp_throw]
      exact breaksOff_of_not_checked (by simp [checked, hnumbers, Except.toOption, hlen]) rfl
    rw [if_neg (not_not.mpr hlen), wp_bind]
    refine wp_stat_next.mono ?_ ?_
    case refine_2 =>
      rintro _ h' ⟨hreads, hnot⟩
      refine breaksOff_of_not_checked (fun hchecked => hnot ?_) hreads
      simp only [checked, Bool.and_eq_true, decide_eq_true_eq] at hchecked
      exact ⟨hchecked.1.2, hchecked.2⟩
    rintro _ h' ⟨rfl, hfault, hexists⟩
    have hchecked : c.checked env i = true := by
      simp [checked, hi, hmatches, hnumbers, Except.toOption, hlen]
      exact ⟨hfault, hexists⟩
    have hplace : c.inPlace i = decide (seqNum = (i + 1 : ℤ)) := by
      simp [inPlace, hnumbers, Except.toOption]
    by_cases hnum : seqNum = (i + 1 : ℤ)
    case neg =>
      rw [decide_eq_false hnum] at hplace
      rw [if_pos hnum, wp_pure]
      unfold GoesOn
      rw [missing_succ, hplace, hostAt_succ_of_not_inPlace hplace]
      exact ⟨by simp [passes, hchecked, hplace], rfl, rfl⟩
    rw [decide_eq_true hnum] at hplace
    rw [if_neg (not_not.mpr hnum)]
    exact wp_copyChunk hchecked hplace

/-- **The loop** passes all its positions, or leaves what was written up to the first one that it
does not pass. -/
theorem wp_assembleChunks (n : ℕ) :
    Wp ((List.range n).foldlM (fun missing i => within missing
        (assembleChunk env c.transferId c.outFile c.chunks c.seqLenAll missing i)) [])
      (fun reported h' => c.broken env n = none ∧ reported = c.missing n ∧ h' = c.hostAt env n)
      (fun _ h' => ∃ i, c.broken env n = some i ∧
        h'.disk.content c.outFile = some (c.copied env i ++ c.torn env i)) (c.hostAt env 0) := by
  induction n with
  | zero => exact ⟨rfl, rfl, rfl⟩
  | succ n ih =>
    rw [List.range_succ, List.foldlM_append, wp_bind]
    refine ih.mono ?_ ?_
    · rintro _ h' ⟨hbroken, rfl, rfl⟩
      rw [List.foldlM_cons, wp_bind, wp_within, broken_succ, hbroken, Option.none_or]
      refine wp_assembleChunk.mono ?_ ?_
      · rintro _ h' ⟨hpasses, rfl, rfl⟩
        exact ⟨if_pos hpasses, rfl, rfl⟩
      · rintro _ h' ⟨hpasses, hcontent⟩
        exact ⟨n, if_neg (by simp [hpasses]), hcontent⟩
    · rintro _ h' ⟨i, hbroken, hcontent⟩
      refine ⟨i, ?_, hcontent⟩
      rw [broken_succ, hbroken, Option.some_or]

/-- What is left behind the loop, and where positions are reported. -/
theorem wp_left : Wp (do
      let missing ← (List.range c.seqLenAll.toNat).foldlM (fun missing i => within missing
        (assembleChunk env c.transferId c.outFile c.chunks c.seqLenAll missing i)) []
      if missing ≠ [] then throw (.file flErrMissingChunk, missing))
    (fun _ _ => c.left env = none)
    (fun _ h' => ∃ bytes, c.left env = some bytes ∧ h'.disk.content c.outFile = some bytes)
    (c.hostAt env 0) := by
  rw [wp_bind]
  refine (wp_assembleChunks c.seqLenAll.toNat).mono ?_ ?_
  · rintro _ h' ⟨hbroken, rfl, rfl⟩
    by_cases hmissing : c.missing c.seqLenAll.toNat = []
    · rw [if_neg (not_not.mpr hmissing), wp_pure]
      unfold left
      rw [hbroken]
      exact if_pos hmissing
    · rw [if_pos hmissing, wp_throw]
      refine ⟨_, ?_, content_disk⟩
      unfold left
      rw [hbroken]
      exact if_neg hmissing
  · rintro _ h' ⟨i, hbroken, hcontent⟩
    refine ⟨_, ?_, hcontent⟩
    unfold left
    rw [hbroken]

end Copy

/-! ## The opening -/

theorem raise_bind {α β : Type} {x : Except Exn α} {f : α → Except Exn β} :
    raise (x >>= f) = raise x >>= fun a => raise (f a) := by
  cases x with
  | error e => rfl
  | ok a => rfl

theorem sortedChunks_eq : sortedChunks env transferId = (do
    let names ← listdir env (stagingDir transferId)
    raise (sorted names)) := by
  unfold sortedChunks
  refine bind_congr fun names => ?_
  unfold sorted
  rw [raise_bind]
  rfl

theorem touches_of_reads {α : Type} {x : Stmt α} {touched : Path → Prop} (hx : Keeps Reads x) :
    Keeps (Touches touched) x :=
  hx.imp fun _ _ hreads => hreads.touches

theorem touches_mkdir : Keeps (Touches (· = path)) (mkdir env path) := by
  refine keeps_bind (touches_of_reads reads_operation) fun _ => ?_
  refine keeps_bind (touches_of_reads reads_get) fun h => ?_
  refine keeps_ite (keeps_throw _) (keeps_ite ?_ (keeps_ite (keeps_throw _) (keeps_throw _)))
  intro h' path' hne
  exact AList.lookup_insert_ne hne

/-- What is made is on the way. -/
theorem touches_makedirs : Keeps (Touches (· <:+ path)) (makedirs env path) := by
  induction path with
  | nil =>
    rw [makedirs]
    exact touches_mkdir.imp fun _ _ htouches p hnot => htouches p fun heq =>
      hnot (heq ▸ List.suffix_rfl)
  | cons name parent ih =>
    have hparent : Keeps (Touches (· <:+ name :: parent)) (makedirs env parent) :=
      ih.imp fun _ _ htouches p hnot => htouches p fun hsuffix =>
        hnot (hsuffix.trans (List.suffix_cons name parent))
    have hmkdir : Keeps (Touches (· <:+ name :: parent)) (mkdir env (name :: parent)) :=
      touches_mkdir.imp fun _ _ htouches p hnot => htouches p fun heq =>
        hnot (heq ▸ List.suffix_rfl)
    rw [makedirs]
    refine keeps_bind (touches_of_reads reads_get) fun h => ?_
    split
    · refine keeps_bind (keeps_tryCatch hparent fun e => ?_) fun _ => hmkdir
      exact keeps_ite (keeps_pure _) (keeps_throw _)
    · exact hmkdir

theorem touches_makeDirs : Keeps (Touches (· <:+ path)) (makeDirs env path) := by
  refine keeps_tryCatch touches_makedirs fun e => ?_
  refine keeps_bind (touches_of_reads reads_get) fun h => ?_
  exact keeps_ite (keeps_pure _) (keeps_throw _)

/-- `safe_open_w` empties the file, or leaves it as it was. -/
theorem wp_safeOpenW (htarget : target env.cwd text = some path) : Wp (safeOpenW env text)
    (fun outFile h' => outFile = path ∧ ∃ disk : Disk, h'.disk = disk.put path [])
    (fun _ h' => h'.disk.lookup path = h.disk.lookup path) h := by
  have hopen : ∀ h₁ : Host, h₁.disk.lookup path = h.disk.lookup path → Wp (openWrite env text)
      (fun outFile h' => outFile = path ∧ ∃ disk : Disk, h'.disk = disk.put path [])
      (fun _ h' => h'.disk.lookup path = h.disk.lookup path) h₁ := by
    intro h₁ hlookup
    refine wp_openWrite.mono ?_ ?_
    · rintro outFile h' ⟨htarget', hdisk⟩
      rw [htarget, Option.some.injEq] at htarget'
      subst htarget'
      exact ⟨rfl, _, hdisk⟩
    · intro _ h' hreads
      rw [hreads, hlookup]
  unfold safeOpenW
  dsimp only
  by_cases hdir : dirname text = []
  · rw [if_neg (not_not.mpr hdir)]
    exact hopen h rfl
  · rw [if_pos hdir, wp_bind, resolve_dirname htarget hdir]
    have hnot : ¬ path <:+ path.tail := by
      obtain ⟨name, parent, rfl⟩ := List.exists_cons_of_ne_nil (target_ne_nil htarget)
      intro hsuffix
      simpa using hsuffix.length_le
    exact (touches_makeDirs h).mono (fun _ h₁ htouches => hopen h₁ (htouches path hnot))
      fun _ _ htouches => htouches path hnot

/-- What is opened is the file that the text names. -/
theorem target_of_safeOpenW (hopen : safeOpenW env text h = .ok path h') :
    target env.cwd text = some path := by
  have hallows : Allows (safeOpenW env text) (fun outFile _ => target env.cwd text = some outFile)
      h := by
    have hwrite (h₁ : Host) : Allows (openWrite env text)
        (fun outFile _ => target env.cwd text = some outFile) h₁ :=
      wp_openWrite.mono (fun _ _ hends => hends.1) fun _ _ _ => trivial
    unfold safeOpenW
    dsimp only
    split
    · rw [Allows, wp_bind]
      exact wp_true.mono (fun _ h₁ _ => hwrite h₁) fun _ _ _ => trivial
    · exact hwrite h
  exact (wp_of_ok hopen).mp hallows

/-- The assembly opens the destination in one way. -/
theorem Opens.unique (hopens : Opens env h transferId text c)
    (hopens' : Opens env h transferId text c') : c = c' := by
  have hchunks : c.chunks = c'.chunks :=
    Except.ok.inj (hopens.chunks.symm.trans hopens'.chunks)
  have hseqLenAll := hopens.seqLenAll
  have hopened := hopens.opened.symm.trans hopens'.opened
  unfold Copy.name at hseqLenAll
  rw [hchunks] at hseqLenAll
  rw [EStateM.Result.ok.injEq] at hopened
  exact Copy.ext (hopens.transfer.trans hopens'.transfer.symm) hchunks
    (Except.ok.inj (hseqLenAll.symm.trans hopens'.seqLenAll)) hopened.1 hopened.2

/-- The loop begins with an empty destination. -/
theorem Opens.hostAt_zero (hopens : Opens env h transferId text c) :
    c.hostAt env 0 = c.host := by
  have hsafe := wp_safeOpenW (h := { h with operations := h.operations + 2 })
    (target_of_safeOpenW hopens.opened)
  rw [wp_of_ok hopens.opened] at hsafe
  obtain ⟨-, disk, hdisk⟩ := hsafe
  unfold Copy.hostAt Copy.disk
  rw [Copy.copied, hdisk, put_put, ← hdisk]
  rfl

/-- **The body of `assemble_file`** ends normally where nothing is left, and leaves the destination
as it was only where it does not open it. -/
theorem wp_assemble_left (htarget : target env.cwd text = some path) :
    Wp (assemble env transferId text)
      (fun _ _ => ∃ c, Opens env h transferId text c ∧ c.left env = none)
      (fun _ h' => (h'.disk.lookup path = h.disk.lookup path ∧
          ∀ c, ¬ Opens env h transferId text c) ∨
        ∃ c bytes, Opens env h transferId text c ∧ c.outFile = path ∧ c.left env = some bytes ∧
          h'.disk.content path = some bytes) h := by
  unfold assemble
  rw [wp_bind, wp_within, sortedChunks_eq, wp_bind]
  refine wp_listdir_next.mono ?_ ?_
  case refine_2 =>
    rintro _ h' ⟨hreads, hnot⟩
    rw [resolve_stagingDir] at hnot
    exact .inl ⟨by rw [hreads], fun c hopens => hnot ⟨hopens.listed, hopens.folder⟩⟩
  rintro _ h' ⟨rfl, hlisted, hfolder, rfl⟩
  rw [resolve_stagingDir] at hfolder ⊢
  cases hsorted : sorted (env.order (h.operations + 1) (h.disk.names (stagingPath transferId))) with
  | error e =>
    rw [wp_raise_error]
    refine .inl ⟨rfl, fun c hopens => ?_⟩
    rw [hopens.chunks] at hsorted
    cases hsorted
  | ok chunks =>
    rw [wp_raise_ok]
    have hchunks (c : Copy) (hopens : Opens env h transferId text c) : chunks = c.chunks :=
      Except.ok.inj (hsorted.symm.trans hopens.chunks)
    cases chunks with
    | nil =>
      dsimp only
      rw [wp_throw]
      exact .inl ⟨rfl, fun c hopens => hopens.nonempty (hchunks c hopens).symm⟩
    | cons first rest =>
      dsimp only
      have hfirst (c : Copy) (hopens : Opens env h transferId text c) : c.name 0 = first := by
        unfold Copy.name
        rw [← hchunks c hopens]
        rfl
      rw [wp_bind, wp_within]
      cases htotal : totalOf first with
      | error e =>
        rw [wp_raise_error]
        refine .inl ⟨rfl, fun c hopens => ?_⟩
        rw [← hfirst c hopens, hopens.seqLenAll] at htotal
        cases htotal
      | ok seqLenAll =>
        rw [wp_raise_ok, wp_bind, wp_within]
        refine wp_stat_next.mono ?_ ?_
        case refine_2 =>
          rintro _ h' ⟨hreads, hnot⟩
          refine .inl ⟨by rw [hreads]; rfl, fun c hopens => hnot ⟨hopens.looked, ?_⟩⟩
          have hexists := hopens.first
          unfold Copy.text at hexists
          rwa [hopens.transfer, hfirst c hopens] at hexists
        rintro _ h' ⟨rfl, hlooked, hexists⟩
        rw [wp_bind, wp_within]
        have hsafe := wp_safeOpenW (h := h.next.next) htarget
        cases hopen : safeOpenW env text h.next.next with
        | error e h' =>
          rw [wp_of_error hopen] at hsafe ⊢
          refine .inl ⟨hsafe, fun c hopens => ?_⟩
          have hopened : safeOpenW env text h.next.next = .ok c.outFile c.host := hopens.opened
          rw [hopen] at hopened
          cases hopened
        | ok outFile host =>
          rw [wp_of_ok hopen] at hsafe ⊢
          obtain ⟨rfl, -⟩ := hsafe
          have hopens : Opens env h transferId text
              ⟨transferId, first :: rest, seqLenAll, outFile, host⟩ :=
            ⟨rfl, hlisted, hfolder, hsorted, List.cons_ne_nil first rest, htotal, hlooked, hexists,
              hopen⟩
          have hloop := @Copy.wp_left env ⟨transferId, first :: rest, seqLenAll, outFile, host⟩
          rw [hopens.hostAt_zero] at hloop
          exact hloop.mono (fun _ _ hnone => ⟨_, hopens, hnone⟩)
            fun _ _ ⟨bytes, hbytes, hcontent⟩ => .inr ⟨_, bytes, hopens, rfl, hbytes, hcontent⟩

end ClickA.Files
