import ClickA.Files.Reassembly
import ClickA.Stream.Segments

/-!
# Disassembly

`disassemble_file` writes a file as chunks into the staging folder of a transfer, beside the digest
of the file. The file itself may be one of those that are written.

## Main definitions

* `chunkCount`: the number of chunks of a file
* `hashPath`: the path of the digest in the folder of a transfer
* `Beside`: other files are as they were
* `cutFrom`, `cutInto`: the bytes of each chunk, and the chunks of the folder with them

## Main results

* `ensures_cutChunks`: the loop writes the chunks before the last one
* `ensures_disassembleFile`: the folder after a file was written as chunks
* `restored`: a file is put together again of the chunks that it was written as
-/

namespace ClickA.Files

open Python Python.Disk Stream

/-- The number of chunks of a file. -/
def chunkCount (fileLen chunkSize : ℕ) : ℕ := (fileLen + chunkSize - 1) / chunkSize

/-- The path of the digest of a file in the folder of a transfer. -/
def hashPath (transferId : ℕ) : Path := hashName :: stagingPath transferId

/-- Files are as they were, beside the chunks of a folder and the directories on the way to it. -/
def Beside (transferId : ℕ) (disk disk' : Disk) : Prop :=
  ∀ path, ¬ path <:+ stagingPath transferId → (∀ key, path ≠ chunkPath transferId key) →
    disk'.lookup path = disk.lookup path

/-- The file is one of the chunks that are written before the one with this number. -/
def overwritten (transferId seqLen : ℕ) (source : Path) (seqNum : ℕ) : Bool :=
  (List.range' 1 (seqNum - 1)).any fun i => source = chunkPath transferId (i, seqLen)

/-- The bytes of the chunk with a number. Behind a chunk that the file itself is there are none. -/
def cutFrom (transferId seqLen chunkSize : ℕ) (source : Path) (content : Bytes) (seqNum : ℕ) :
    Bytes :=
  if overwritten transferId seqLen source seqNum then [] else piece chunkSize content (seqNum - 1)

/-- The chunks of the folder, with those up to a number. -/
def cutInto (transferId seqLen chunkSize : ℕ) (source : Path) (content : Bytes) (chunks : Chunks)
    (seqNum : ℕ) : Chunks := fun key =>
  if key.2 = seqLen ∧ 1 ≤ key.1 ∧ key.1 ≤ seqNum then
    some (cutFrom transferId seqLen chunkSize source content key.1)
  else chunks key

variable {env : Env} {h : Host} {disk disk' disk'' : Disk} {sent : List Bytes}
  {transferId chunkSize seqLen seqNum n : ℕ} {chunks : Chunks} {key : Key}
  {raw text content data : Bytes} {path source : Path}

/-! ## The number of chunks -/

theorem mul_lt_of_lt_chunkCount (h : n < chunkCount content.length chunkSize) :
    n * chunkSize < content.length := by
  have hpos : 0 < chunkSize := by
    rcases Nat.eq_zero_or_pos chunkSize with rfl | hpos
    · unfold chunkCount at h
      rw [Nat.div_zero] at h
      exact absurd h (Nat.not_lt_zero n)
    · exact hpos
  have hle := (Nat.le_div_iff_mul_le hpos).mp (Nat.succ_le_of_lt h)
  rw [Nat.succ_mul] at hle
  omega

theorem length_le_chunkCount_mul (hpos : 1 ≤ chunkSize) :
    content.length ≤ chunkCount content.length chunkSize * chunkSize := by
  have hlt := Nat.lt_mul_div_succ (content.length + chunkSize - 1) hpos
  rw [Nat.mul_succ, Nat.mul_comm] at hlt
  unfold chunkCount
  omega

theorem chunkCount_pos (hpos : 1 ≤ chunkSize) (hcontent : content ≠ []) :
    1 ≤ chunkCount content.length chunkSize := by
  have hlength := List.length_pos_iff.mpr hcontent
  exact (Nat.le_div_iff_mul_le hpos).mpr (by omega)

/-! ## The digest -/

/-- The loop hashes the file from its position on. -/
theorem ensures_hashBlocks (hreliable : env.Reliable)
    (hcontent : disk.content source = some content)
    (hat : h.At disk sent) (fuel position : ℕ) (hashed : Bytes)
    (hfuel : content.length < position + fuel) :
    Ensures (hashBlocks env source fuel position hashed)
      (fun bytes h' => bytes = hashed ++ content.drop position ∧ h'.At disk sent) h := by
  induction fuel generalizing h position hashed with
  | zero =>
    refine ⟨?_, hat⟩
    rw [List.drop_eq_nil_of_le (show content.length ≤ position by omega), List.append_nil]
  | succ fuel ih =>
    rw [hashBlocks]
    refine (ensures_read hreliable hcontent hat position 1024).bind ?_
    rintro buf h' ⟨rfl, hat'⟩
    by_cases hbuf : (content.drop position).take 1024 = []
    · rw [if_pos hbuf]
      have hnil : content.drop position = [] := by simpa using hbuf
      exact ⟨by rw [hnil, List.append_nil], hat'⟩
    · rw [if_neg hbuf]
      have hlength := List.length_pos_iff.mpr hbuf
      refine (ih hat' _ _ (by omega)).imp ?_
      rintro bytes h'' ⟨rfl, hat''⟩
      rw [List.append_assoc, block_append_drop]
      exact ⟨rfl, hat''⟩

theorem ensures_hashFile (hreliable : env.Reliable) (hcontent : disk.content source = some content)
    (hat : h.At disk sent) :
    Ensures (hashFile env source) (fun digest h' => digest = md5 content ∧ h'.At disk sent) h := by
  unfold hashFile
  rw [Ensures, wp_bind, wp_get]
  dsimp only
  rw [hat.disk, hcontent, Option.getD_some]
  refine (ensures_hashBlocks hreliable hcontent hat (content.length + 1) 0 [] (by omega)).bind ?_
  rintro hashed h' ⟨hhashed, hat'⟩
  rw [hhashed, List.nil_append, List.drop_zero]
  exact ⟨rfl, hat'⟩

/-! ## The loop -/

theorem overwritten_succ : overwritten transferId seqLen source (n + 2) =
    (overwritten transferId seqLen source (n + 1) || source =
      chunkPath transferId (n + 1, seqLen)) := by
  unfold overwritten
  rw [Nat.add_sub_cancel, show n + 2 - 1 = n + 1 by omega, List.range'_1_concat, List.any_append,
    Nat.add_comm 1 n]
  simp

theorem cutInto_zero : cutInto transferId seqLen chunkSize source content chunks 0 = chunks := by
  funext key
  unfold cutInto
  rw [if_neg (by omega)]

theorem cutInto_succ : cutInto transferId seqLen chunkSize source content chunks (n + 1) =
    Function.update (cutInto transferId seqLen chunkSize source content chunks n) (n + 1, seqLen)
      (some (cutFrom transferId seqLen chunkSize source content (n + 1))) := by
  funext key
  by_cases hkey : key = (n + 1, seqLen)
  · rw [hkey, Function.update_self]
    unfold cutInto
    rw [if_pos ⟨rfl, Nat.succ_pos n, le_rfl⟩]
  · rw [Function.update_of_ne hkey]
    unfold cutInto
    have hiff : (key.2 = seqLen ∧ 1 ≤ key.1 ∧ key.1 ≤ n + 1) ↔
        (key.2 = seqLen ∧ 1 ≤ key.1 ∧ key.1 ≤ n) := by
      refine and_congr_right fun hlen => and_congr_right fun _ => ?_
      have hne : key.1 ≠ n + 1 := fun hnum => hkey (Prod.ext hnum hlen)
      omega
    simp only [hiff]

/-- The files of the loop, when the chunks up to a number are written. -/
structure Cutting (chunks : Chunks) (transferId seqLen chunkSize : ℕ) (source : Path)
    (content : Bytes) (disk : Disk) (n : ℕ) (disk' : Disk) : Prop where
  stages : Stages disk' transferId (cutInto transferId seqLen chunkSize source content chunks n)
  beside : Beside transferId disk disk'
  source : ∃ now, disk'.content source = some now ∧
    if overwritten transferId seqLen source (n + 1) then now.length ≤ chunkSize else now = content

theorem length_cutFrom_le :
    (cutFrom transferId seqLen chunkSize source content n).length ≤ chunkSize := by
  unfold cutFrom
  split
  · exact Nat.zero_le _
  · exact length_piece_le

/-- What is read of the file for a chunk. -/
theorem take_drop_eq_cutFrom {now : Bytes}
    (hsize : chunkSize ≤ n ∨ content.length ≤ n + seqNum * chunkSize)
    (hle : n ≤ chunkSize)
    (hnow : if overwritten transferId seqLen source (seqNum + 1) then now.length ≤ chunkSize
      else now = content) :
    (now.drop (seqNum * chunkSize)).take n =
      cutFrom transferId seqLen chunkSize source content (seqNum + 1) := by
  unfold cutFrom
  split at hnow
  · rename_i hover
    rw [if_pos hover]
    have hpos : 1 ≤ seqNum := by
      by_contra hzero
      obtain rfl : seqNum = 0 := by omega
      exact Bool.noConfusion hover
    have hlength : now.length ≤ seqNum * chunkSize :=
      hnow.trans (Nat.le_mul_of_pos_left chunkSize hpos)
    rw [List.drop_eq_nil_of_le hlength, List.take_nil]
  · rename_i hover
    rw [if_neg hover, hnow]
    unfold piece
    rw [Nat.add_sub_cancel]
    rcases hsize with hsize | hsize
    · rw [Nat.le_antisymm hle hsize]
    · have hlength : (content.drop (seqNum * chunkSize)).length ≤ n := by
        rw [List.length_drop]
        omega
      rw [List.take_of_length_le hlength, List.take_of_length_le (hlength.trans hle)]

theorem Beside.trans (hbeside : Beside transferId disk disk')
    (hbeside' : Beside transferId disk' disk'') : Beside transferId disk disk'' :=
  fun path hway hchunk => (hbeside' path hway hchunk).trans (hbeside path hway hchunk)

/-- A chunk is written in its place. -/
theorem Cutting.step (hcutting : Cutting chunks transferId seqLen chunkSize source content disk n
    disk')
    (hmakes : Makes (stagingPath transferId) disk' disk'') :
    Cutting chunks transferId seqLen chunkSize source content disk (n + 1)
      (disk''.put (chunkPath transferId (n + 1, seqLen))
        (cutFrom transferId seqLen chunkSize source content (n + 1))) where
  stages := by
    rw [cutInto_succ]
    exact (hcutting.stages.makes hmakes).put_chunk hmakes.made
  beside := by
    refine hcutting.beside.trans ?_
    intro path hway hchunk
    unfold Disk.put
    rw [AList.lookup_insert_ne (hchunk _), hmakes.lookup_eq hway]
  source := by
    obtain ⟨now, hnow, hcase⟩ := hcutting.source
    rw [overwritten_succ]
    by_cases heq : source = chunkPath transferId (n + 1, seqLen)
    · refine ⟨_, by rw [heq]; exact content_put, ?_⟩
      rw [decide_eq_true heq, Bool.or_true, if_pos rfl]
      exact length_cutFrom_le
    · refine ⟨now, by rw [content_put_of_ne heq]; exact hmakes.content_eq_some hnow, ?_⟩
      rwa [decide_eq_false heq, Bool.or_false]

/-- The loop writes the chunks before the last one. -/
theorem ensures_cutChunks (hreliable : env.Reliable) (hpos : 1 ≤ chunkSize)
    (hseqLen : chunkCount content.length chunkSize = seqLen + 1) (fuel : ℕ)
    (hfuel : seqLen ≤ fuel + n) (hn : n ≤ seqLen)
    (hcutting : Cutting chunks transferId (seqLen + 1) chunkSize source content disk n disk')
    (hat : h.At disk' sent) :
    Ensures (cutChunks env transferId chunkSize content.length (seqLen + 1) source fuel (n + 1))
      (fun seqNum h' => seqNum = seqLen + 1 ∧ ∃ disk', h'.At disk' sent ∧
        Cutting chunks transferId (seqLen + 1) chunkSize source content disk seqLen disk') h := by
  induction fuel generalizing h n disk' with
  | zero =>
    obtain rfl : n = seqLen := by omega
    exact ⟨rfl, disk', hat, hcutting⟩
  | succ fuel ih =>
    rw [cutChunks]
    by_cases hlt : (n + 1) * chunkSize < content.length
    · have hn' : n + 1 ≤ seqLen := by
        by_contra hge
        obtain rfl : n = seqLen := by omega
        have hle : content.length ≤ _ := length_le_chunkCount_mul hpos
        rw [hseqLen] at hle
        omega
      obtain ⟨now, hnow, hcase⟩ := hcutting.source
      rw [if_pos hlt, Nat.add_sub_cancel]
      refine (ensures_read hreliable hnow hat _ _).bind ?_
      rintro _ h' ⟨rfl, hat'⟩
      -- what is read is the chunk, also when the source was written over before
      rw [take_drop_eq_cutFrom (.inl le_rfl) le_rfl hcase]
      refine (ensures_writeChunk hreliable hcutting.stages hat' (n + 1) (seqLen + 1)).bind ?_
      rintro _ h' ⟨disk'', hmakes, hat'⟩
      exact ih (by omega) hn' (hcutting.step hmakes) hat'
    · rw [if_neg hlt]
      obtain rfl : n = seqLen := by
        by_contra hne
        exact hlt (mul_lt_of_lt_chunkCount (by omega))
      exact ⟨rfl, disk', hat, hcutting⟩

/-! ## The body -/

/-- The bytes of a file once its digest is written, which may be in its place. -/
def besideHash (transferId : ℕ) (source : Path) (content : Bytes) : Bytes :=
  if source = hashPath transferId then md5 content else content

/-- The packet reports the number of chunks. -/
def ReportsChunks (packet : Bytes) (transferId seqLen : ℕ) : Prop :=
  ∃ payload, TxPacket.decode packet = .ok (tlmDisassembleFile, payload) ∧
    unpack (network [.H, .H]) payload = .ok [.int transferId, .int seqLen]

theorem hashPath_ne_chunkPath : hashPath transferId ≠ chunkPath transferId key := fun heq =>
  hashName_ne_chunkName (List.cons.inj heq).1

theorem writable_hashName (hcreatable : disk.Creatable (stagingPath transferId))
    (hhash : disk.isDir (hashPath transferId) = false) :
    Writable env disk (stagingDir transferId ++ hashName) (hashPath transferId) :=
  writable_staging hcreatable (by decide) (by decide) (by decide) hhash

theorem besideHash_ne_nil (hcontent : content ≠ []) :
    besideHash transferId source content ≠ [] := by
  unfold besideHash
  split
  · intro hnil
    have hlength := length_md5 content
    rw [hnil] at hlength
    exact absurd hlength (by decide)
  · exact hcontent

/-- The folder with the digest, before the first chunk is written. -/
theorem cutting_zero (hstages : Stages disk transferId chunks)
    (hmakes : Makes (stagingPath transferId) disk disk')
    (hsource : disk.content source = some content) :
    Cutting chunks transferId seqLen chunkSize source (besideHash transferId source content)
      (disk'.put (hashPath transferId) (md5 content)) 0
      (disk'.put (hashPath transferId) (md5 content)) where
  stages := by
    rw [cutInto_zero]
    refine (hstages.makes hmakes).put not_suffix_stagingPath ?_
    rintro name hname heq
    rw [← (List.cons.inj heq).1, isChunk_hashName] at hname
    exact Bool.noConfusion hname
  beside := fun _ _ _ => rfl
  source := by
    refine ⟨besideHash transferId source content, ?_, rfl⟩
    unfold besideHash
    split
    · rename_i heq
      rw [heq, content_put]
    · rename_i hne
      rw [content_put_of_ne hne, hmakes.content_eq_some hsource]

/-- The packet of a report. -/
structure Report (transferId seqLen : ℕ) (payload packet : Bytes) : Prop where
  pack : pack (network [.H, .H]) [.int transferId, .int seqLen] = .ok payload
  encode : TxPacket.encode tlmDisassembleFile payload = .ok packet
  reports : ReportsChunks packet transferId seqLen

theorem exists_report (ht : transferId < 2 ^ 16) (hseqLen : seqLen < 2 ^ 16) :
    ∃ payload packet, Report transferId seqLen payload packet := by
  have hpack : pack (network [.H, .H]) [.int transferId, .int seqLen] =
      .ok (ordered false (leBytes 2 transferId) ++ ordered false (leBytes 2 seqLen)) := by
    unfold pack
    rw [packFrom_cons (by decide), packFrom_cons (by decide), packOne_H_network ht,
      packOne_H_network hseqLen]
    simp [packFrom, gap]
  have hencode := TxPacket.encode_eq (show tlmDisassembleFile < 2 ^ 16 by decide)
    (show (ordered false (leBytes 2 transferId) ++ ordered false (leBytes 2 seqLen)).length < 2 ^ 16
      by simp)
  have hunpack := unpack_pack (.cons (exact_int 2 _) (.cons (exact_int 2 _) .nil)) hpack
  exact ⟨_, _, hpack, hencode, _, TxPacket.decode_encode hencode, hunpack⟩

/-- The body of `disassemble_file` writes the digest and the chunks, and reports their number. -/
theorem ensures_disassemble (hreliable : env.Reliable) (hstages : Stages disk transferId chunks)
    (hhash : disk.isDir (hashPath transferId) = false)
    (hreadable : Readable env disk text source content) (hcontent : content ≠ [])
    (hpos : 1 ≤ chunkSize) (ht : transferId < 2 ^ 16)
    (hcount : chunkCount (besideHash transferId source content).length chunkSize = seqLen)
    (hseqLen : seqLen < 2 ^ 16) (hat : h.At disk sent) :
    Ensures (disassemble env transferId chunkSize text) (fun _ h' => ∃ made disk' packet,
      Makes (stagingPath transferId) disk made ∧
      Cutting chunks transferId seqLen chunkSize source (besideHash transferId source content)
        (made.put (hashPath transferId) (md5 content)) seqLen disk' ∧
      h'.At disk' (sent ++ [packet]) ∧ ReportsChunks packet transferId seqLen) h := by
  have hne : besideHash transferId source content ≠ [] := besideHash_ne_nil hcontent
  obtain ⟨last, rfl⟩ : ∃ last, seqLen = last + 1 :=
    ⟨seqLen - 1, by have := chunkCount_pos hpos hne; omega⟩
  obtain ⟨payload, packet, hreport⟩ := exists_report ht hseqLen
  unfold disassemble
  refine (ensures_openRead hreliable hreadable hat).bind ?_
  rintro source h' ⟨rfl, hat'⟩
  refine (ensures_hashFile hreliable hreadable.content hat').bind ?_
  rintro _ h' ⟨rfl, hat'⟩
  refine (ensures_safeOpenW hreliable (writable_hashName hstages.creatable hhash) hat').bind ?_
  rintro _ h' ⟨rfl, made, hmakes, hat'⟩
  refine (ensures_write hreliable content_put hat').bind ?_
  intro _ h' hat'
  rw [Disk.put_put, List.nil_append] at hat'
  have hcutting : Cutting chunks transferId (last + 1) chunkSize source
      (besideHash transferId source content) (made.put (hashPath transferId) (md5 content)) 0
      (made.put (hashPath transferId) (md5 content)) :=
    cutting_zero hstages hmakes hreadable.content
  obtain ⟨now, hnow, hcase⟩ := hcutting.source
  obtain rfl : now = besideHash transferId source content := hcase
  have hreadable' : Readable env _ text source _ := ⟨hreadable.nul, hreadable.target, hnow⟩
  refine (ensures_openRead hreliable hreadable' hat').bind ?_
  rintro source h' ⟨rfl, hat'⟩
  refine (ensures_stat hreliable hreadable' hat').bind ?_
  rintro _ h' ⟨rfl, hat'⟩
  have hlast : last * chunkSize < (besideHash transferId source content).length :=
    mul_lt_of_lt_chunkCount (by omega)
  have hfuel : last ≤ (besideHash transferId source content).length + 0 := by
    have hle := Nat.le_mul_of_pos_right last hpos
    omega
  unfold ceilDiv
  rw [if_neg (by omega), Ensures, wp_bind, wp_pure]
  unfold chunkCount at hcount
  rw [hcount]
  refine (ensures_cutChunks hreliable hpos hcount _ hfuel (Nat.zero_le last) hcutting hat').bind ?_
  rintro _ h' ⟨rfl, disk', hat', hcutting'⟩
  obtain ⟨now, hnow', hcase⟩ := hcutting'.source
  rw [hreport.pack, Nat.add_sub_cancel, if_pos hlast]
  refine (ensures_read hreliable hnow' hat' _ _).bind ?_
  rintro _ h' ⟨rfl, hat'⟩
  have hrest : (besideHash transferId source content).length - last * chunkSize ≤ chunkSize := by
    have hle : (besideHash transferId source content).length ≤ _ := length_le_chunkCount_mul hpos
    unfold chunkCount at hle
    rw [hcount, Nat.succ_mul] at hle
    omega
  rw [take_drop_eq_cutFrom (.inr (by omega)) hrest hcase]
  refine (ensures_writeChunk hreliable hcutting'.stages hat' (last + 1) (last + 1)).bind ?_
  rintro _ h' ⟨disk'', hmakes', hat'⟩
  rw [Ensures, wp_bind, wp_raise_ok]
  refine (ensures_sendPacket hreport.encode hat').imp ?_
  intro _ h' hat'
  exact ⟨made, _, packet, hmakes, hcutting'.step hmakes', hat', hreport.reports⟩

/-! ## `disassemble_file` -/

/-- The payload of a command names a transfer, a size of chunks and a file. -/
def NamesSource (raw : Bytes) (transferId chunkSize : ℕ) (text : Bytes) : Prop :=
  ∃ fileNameLen fileNamePayload, unpackNamed raw =
    .ok (transferId, chunkSize, fileNameLen, fileNamePayload) ∧
    fileNamePayload.take fileNameLen = text

theorem NamesSource.lt (hsource : NamesSource raw transferId chunkSize text) :
    transferId < 2 ^ 16 := by
  obtain ⟨fileNameLen, fileNamePayload, heq, -⟩ := hsource
  unfold unpackNamed at heq
  split at heq
  · cases heq
  · unfold unpack at heq
    split at heq
    · rw [ok_bind] at heq
      simp only [unpackFrom, unpackOne, pure_eq_ok, Except.ok.injEq, Prod.mk.injEq,
        Int.toNat_natCast] at heq
      rw [← heq.1]
      exact leNat_two_lt _
    · cases heq

/-- **`disassemble_file` writes the digest and the chunks of a file, and reports their number.** -/
theorem ensures_disassembleFile (hreliable : env.Reliable)
    (hstages : Stages disk transferId chunks) (hhash : disk.isDir (hashPath transferId) = false)
    (hnames : NamesSource raw transferId chunkSize text)
    (hreadable : Readable env disk text source content) (hcontent : content ≠ [])
    (hpos : 1 ≤ chunkSize)
    (hcount : chunkCount (besideHash transferId source content).length chunkSize = seqLen)
    (hseqLen : seqLen < 2 ^ 16) (hat : h.At disk sent) :
    Ensures (disassembleFile env raw) (fun _ h' => ∃ made disk' packet,
      Makes (stagingPath transferId) disk made ∧
      Cutting chunks transferId seqLen chunkSize source (besideHash transferId source content)
        (made.put (hashPath transferId) (md5 content)) seqLen disk' ∧
      h'.At disk' (sent ++ [packet]) ∧ ReportsChunks packet transferId seqLen) h := by
  have ht := hnames.lt
  obtain ⟨fileNameLen, fileNamePayload, hunpack, rfl⟩ := hnames
  unfold disassembleFile
  rw [hunpack, Ensures, wp_bind, wp_raise_ok]
  dsimp only
  rw [wp_tryCatch]
  exact (ensures_disassemble hreliable hstages hhash hreadable hcontent hpos ht hcount hseqLen
    hat).mono (fun _ _ hq => hq) fun _ _ hfalse => hfalse.elim

/-- A file that is not in the folder is written as its pieces. -/
theorem cutFrom_eq_piece (hsource : ∀ key, source ≠ chunkPath transferId key) :
    cutFrom transferId seqLen chunkSize source content seqNum =
      piece chunkSize content (seqNum - 1) := by
  have hover : overwritten transferId seqLen source seqNum = false := by
    unfold overwritten
    rw [List.any_eq_false]
    intro i _
    rw [decide_eq_false (hsource _)]
    exact Bool.false_ne_true
  unfold cutFrom
  rw [hover, if_neg Bool.false_ne_true]

theorem complete_cutInto :
    Complete (cutInto transferId seqLen chunkSize source content (fun _ => none) seqLen)
      seqLen := by
  intro key
  unfold cutInto
  split
  · rename_i hkey
    exact iff_of_true rfl ⟨hkey.2.1, hkey.2.2, hkey.1⟩
  · rename_i hkey
    exact iff_of_false Bool.false_ne_true fun h => hkey ⟨h.2.2, h.1, h.2.1⟩

/-- The chunks of a file that is not in the folder are its pieces. -/
theorem cutInto_eq_piece (hin : ∀ name, source ≠ name :: stagingPath transferId)
    (hfst : 1 ≤ seqNum) (hle : seqNum ≤ seqLen) :
    cutInto transferId seqLen chunkSize source content (fun _ => none) seqLen (seqNum, seqLen) =
      some (piece chunkSize content (seqNum - 1)) := by
  unfold cutInto
  rw [if_pos ⟨rfl, hfst, hle⟩, cutFrom_eq_piece fun key => hin (nameOf key)]

/-- The pieces give the file. -/
theorem added_cutInto (hin : ∀ name, source ≠ name :: stagingPath transferId)
    (hpos : 1 ≤ chunkSize) (hcount : chunkCount content.length chunkSize = seqLen) :
    added (cutInto transferId seqLen chunkSize source content (fun _ => none) seqLen)
      (completeKeys seqLen) seqLen = content := by
  have hlength : ((List.range seqLen).map (piece chunkSize content)).length = seqLen := by simp
  have hwhole : ((List.range seqLen).map (piece chunkSize content)).flatten = content := by
    rw [flatten_pieces, List.take_of_length_le]
    rw [← hcount]
    exact length_le_chunkCount_mul hpos
  have hpieces : ∀ i, cutInto transferId seqLen chunkSize source content (fun _ => none) seqLen
      (i + 1, ((List.range seqLen).map (piece chunkSize content)).length) =
      ((List.range seqLen).map (piece chunkSize content))[i]? := by
    intro i
    rw [hlength]
    rcases Nat.lt_or_ge i seqLen with hi | hi
    · rw [cutInto_eq_piece hin (Nat.succ_pos i) hi]
      simp [hi]
    · have hnot : ¬ (seqLen = seqLen ∧ 1 ≤ i + 1 ∧ i + 1 ≤ seqLen) := by omega
      unfold cutInto
      rw [if_neg hnot]
      simp [hi]
  have hadded := added_completeKeys hpieces
  rwa [hlength, hwhole] at hadded

/-- The names in a folder that was empty are those of the digest and of the chunks. -/
theorem Cutting.mem_iff (hcutting : Cutting (fun _ => none) transferId seqLen chunkSize source
      content (disk.put (hashPath transferId) data) seqLen disk')
    (hin : ∀ name, source ≠ name :: stagingPath transferId)
    (hempty : ∀ name, name :: stagingPath transferId ∉ disk) (name : Name) :
    name :: stagingPath transferId ∈ disk' ↔
      name = hashName ∨ ∃ i, 1 ≤ i ∧ i ≤ seqLen ∧ name = chunkName i seqLen := by
  cases hchunk : isChunk name with
  | false =>
    have hnot : ∀ key, name :: stagingPath transferId ≠ chunkPath transferId key :=
        fun key heq => by
      rw [(List.cons.inj heq).1, isChunk_nameOf] at hchunk
      exact Bool.noConfusion hchunk
    rw [← AList.lookup_isSome, hcutting.beside _ not_suffix_stagingPath hnot, AList.lookup_isSome,
      mem_put]
    constructor
    · rintro (heq | hmem)
      · exact .inl (List.cons.inj heq).1
      · exact absurd hmem (hempty name)
    · rintro (rfl | ⟨i, -, -, rfl⟩)
      · exact .inl rfl
      · exact absurd rfl (hnot (i, seqLen))
  | true =>
    constructor
    · intro hmem
      obtain ⟨key, rfl, hkey⟩ := hcutting.stages.named name hchunk hmem
      obtain ⟨hfst, hle, hsnd⟩ := (complete_cutInto key).mp hkey
      exact .inr ⟨key.1, hfst, hle, by rw [← hsnd]; rfl⟩
    · rintro (rfl | ⟨i, hfst, hle, rfl⟩)
      · rw [isChunk_hashName] at hchunk
        exact Bool.noConfusion hchunk
      · exact mem_of_content ((hcutting.stages.content (i, seqLen)).trans
          (cutInto_eq_piece hin hfst hle))

/-- **A file is put together again of the chunks that it was written as**, from an empty folder. -/
theorem restored (hreliable : env.Reliable)
    (hcreatable : h.disk.Creatable (stagingPath transferId))
    (hempty : ∀ name, name :: stagingPath transferId ∉ h.disk)
    (hnames : NamesSource raw transferId chunkSize text)
    (hreadable : Readable env h.disk text source content) (hcontent : content ≠ [])
    (hpos : 1 ≤ chunkSize) (hcount : chunkCount content.length chunkSize = seqLen)
    (hseqLen : seqLen ≤ 65535) :
    Ensures (disassembleFile env raw) (fun _ h₁ =>
      (∀ name, name :: stagingPath transferId ∈ h₁.disk ↔
        name = hashName ∨ ∃ i, 1 ≤ i ∧ i ≤ seqLen ∧ name = chunkName i seqLen) ∧
      (∀ i, 1 ≤ i → i ≤ seqLen → h₁.disk.content (chunkPath transferId (i, seqLen)) =
        some ((content.drop ((i - 1) * chunkSize)).take chunkSize)) ∧
      (∃ packet, h₁.sent = h.sent ++ [packet] ∧ ReportsChunks packet transferId seqLen) ∧
      ∀ raw' text' path, Names raw' transferId text' → Writable env h₁.disk text' path →
        (∀ i, 1 ≤ i → i ≤ seqLen → path ≠ chunkPath transferId (i, seqLen)) →
        Ensures (assembleFile env raw') (fun _ h₂ => h₂.disk.content path = some content ∧
          ∃ packet, h₂.sent = h₁.sent ++ [packet] ∧ Answers packet transferId flSuccess []) h₁)
      h := by
  have hstages := stages_empty hcreatable fun name _ => hempty name
  have hin (name : Name) : source ≠ name :: stagingPath transferId := fun heq => by
    have hmem := mem_of_content hreadable.content
    rw [heq] at hmem
    exact hempty name hmem
  have hbeside : besideHash transferId source content = content := if_neg (hin hashName)
  have hhash : h.disk.isDir (hashPath transferId) = false := by
    unfold Disk.isDir hashPath
    rw [AList.lookup_eq_none.mpr (hempty hashName)]
    rfl
  refine (ensures_disassembleFile hreliable hstages hhash hnames hreadable hcontent hpos
    (by rw [hbeside, hcount]) (by omega) ⟨rfl, rfl⟩).imp ?_
  rintro _ h₁ ⟨made, disk', packet, hmakes, hcutting, hat, hreports⟩
  rw [hbeside] at hcutting
  have hmade (name : Name) : name :: stagingPath transferId ∉ made := by
    rw [← AList.lookup_eq_none, hmakes.lookup_eq not_suffix_stagingPath, AList.lookup_eq_none]
    exact hempty name
  refine ⟨?_, ?_, ⟨packet, hat.sent, hreports⟩, ?_⟩
  · intro name
    rw [hat.disk]
    exact hcutting.mem_iff hin hmade name
  · intro i hfst hle
    rw [hat.disk, hcutting.stages.content, cutInto_eq_piece hin hfst hle]
    rfl
  · intro raw' text' path hnames' hwritable hapart
    rw [hat.disk] at hwritable
    refine (ensures_assembleFile hreliable hcutting.stages complete_cutInto
      (hcount ▸ chunkCount_pos hpos hcontent) (by omega) hnames.lt hnames' hwritable hat).imp ?_
    rintro _ h₂ ⟨disk'', packet', hat', hanswers, hassembled⟩
    refine ⟨?_, packet', by rw [hat'.sent, hat.sent], hanswers⟩
    rw [hat'.disk, ← added_cutInto hin hpos hcount]
    refine (hassembled.apart fun key hkey => ?_).1
    obtain ⟨hfst, hle, hsnd⟩ := (complete_cutInto key).mp hkey
    rw [show key = (key.1, seqLen) from Prod.ext rfl hsnd]
    exact hapart key.1 hfst hle

/-- A host with the file `/a`. -/
@[irreducible]
def fileHost : Host := { disk := Disk.put ∅ [ascii "a"] [8, 9, 7] }

/-- The payload that names the transfer, chunks of two bytes and the file `/a`. -/
def disassemblePayload : Bytes := [0, 5, 0, 2, 0, 2, 47, 97]

theorem namesSource_disassemblePayload : NamesSource disassemblePayload 5 2 (ascii "/a") :=
  ⟨2, ascii "/a", rfl, rfl⟩

theorem restored_threeBytes : Ensures (disassembleFile plainEnv disassemblePayload) (fun _ h₁ =>
    (∀ name, name :: stagingPath 5 ∈ h₁.disk ↔
      name = hashName ∨ ∃ i, 1 ≤ i ∧ i ≤ 2 ∧ name = chunkName i 2) ∧
    (∀ i, 1 ≤ i → i ≤ 2 → h₁.disk.content (chunkPath 5 (i, 2)) =
      some (([8, 9, 7].drop ((i - 1) * 2)).take 2)) ∧
    (∃ packet, h₁.sent = fileHost.sent ++ [packet] ∧ ReportsChunks packet 5 2) ∧
    ∀ raw' text' path, Names raw' 5 text' → Writable plainEnv h₁.disk text' path →
      (∀ i, 1 ≤ i → i ≤ 2 → path ≠ chunkPath 5 (i, 2)) →
      Ensures (assembleFile plainEnv raw') (fun _ h₂ => h₂.disk.content path = some [8, 9, 7] ∧
        ∃ packet, h₂.sent = h₁.sent ++ [packet] ∧ Answers packet 5 flSuccess []) h₁) fileHost := by
  apply restored
  case hreliable => exact fun _ => rfl
  case hcreatable =>
    intro dir hdir node hnode
    have hne : dir ≠ [ascii "a"] := by
      rintro rfl
      exact absurd hdir (by decide +kernel)
    unfold fileHost Disk.put at hnode
    rw [AList.lookup_insert_ne hne] at hnode
    cases hnode
  case hempty =>
    intro name hmem
    unfold fileHost at hmem
    rcases mem_put.mp hmem with heq | hmem
    · simpa [stagingPath] using congrArg List.length heq
    · exact AList.notMem_empty _ hmem
  case hnames => exact namesSource_disassemblePayload
  case hreadable =>
    unfold fileHost
    exact ⟨by decide, by decide, content_put⟩
  case hcontent => exact List.cons_ne_nil _ _
  case hpos => decide
  case hcount => rfl
  case hseqLen => decide

end ClickA.Files
