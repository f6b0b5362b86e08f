import ClickA.Files.Earlier

/-!
# Automatic downlinks

`auto_downlink_file` writes a file as chunks into the staging folder, where chunks of earlier
transfers may be, and requests the chunks of the folder.

## Main definitions

* `Agrees`: the chunks of the folder that may be sorted first say the number of chunks of the file
* `promote`: an order in which the names of a folder may be listed

## Main results

* `wp_autoDownlinkFile`: what is sent
* `autoDownlinked_iff`: exactly when the file is sent, for each order in which the names are listed
-/

namespace ClickA.Files

open Python Python.Disk Stream

attribute [local irreducible] pack TxPacket.encode unpack

/-- The chunks that may be sorted first say this number of chunks: those with the number 0, and if
there are none, those with the number 1. -/
def Agrees (disk : Disk) (transferId seqLen : ℕ) : Prop :=
  (∀ n, chunkPath transferId (0, n) ∈ disk → n = seqLen) ∧
    ((∃ n, chunkPath transferId (0, n) ∈ disk) ∨ ∀ n, chunkPath transferId (1, n) ∈ disk →
      n = seqLen)

/-- A name is listed first. -/
def promote (name : Name) (names : List Name) : List Name :=
  if name ∈ names then name :: names.erase name else names

variable {env env' : Env} {h : Host} {disk : Disk} {sent packets datas : List Bytes}
  {transferId chunkSize seqLen start k : ℕ} {chunks : Chunks} {key first : Key}
  {raw text content fileHash packet : Bytes} {source : Path}

theorem promote_perm (name : Name) (names : List Name) : (promote name names).Perm names := by
  unfold promote
  split
  · exact (List.perm_cons_erase ‹_›).symm
  · exact .refl names

theorem Stages.mem_iff (hstages : Stages disk transferId chunks) :
    chunkPath transferId key ∈ disk ↔ (chunks key).isSome = true := by
  constructor
  · intro hmem
    obtain ⟨key', hname, hkey'⟩ := hstages.named _ isChunk_nameOf hmem
    rwa [nameOf_inj.mp hname]
  · intro hkey
    obtain ⟨data, hdata⟩ := Option.isSome_iff_exists.mp hkey
    exact mem_of_content ((hstages.content key).trans hdata)

/-! ## The chunk that is sorted first -/

/-- A chunk that is listed first, and has the smallest number, is sorted first. -/
theorem First.eq_of_promote (hstages : Stages disk transferId chunks)
    (horder : ∀ n, env.order n = promote (nameOf first)) (hsome : (chunks first).isSome = true)
    (hleast : ∀ key', (chunks key').isSome = true → first.1 ≤ key'.1)
    (hfirst : First env disk transferId key) : key = first := by
  obtain ⟨n, listed, rest, hlisted, hsorted⟩ := hfirst
  have hmem : nameOf first ∈ disk.names (stagingPath transferId) :=
    mem_names.mpr (hstages.mem_iff.mpr hsome)
  rw [horder, promote, if_pos hmem, List.filter_cons_of_pos isChunk_nameOf] at hlisted
  obtain ⟨keys, hkeys, -, hmemkeys⟩ :=
    hstages.exists_keys (List.perm_cons_erase hmem).symm
  rw [List.filter_cons_of_pos isChunk_nameOf, hlisted] at hkeys
  obtain rfl : listed = keys := List.map_injective_iff.mpr (fun _ _ => nameOf_inj.mp) hkeys
  cases listed with
  | nil => cases hlisted
  | cons head listed =>
    obtain ⟨hhead, -⟩ := List.cons.inj hlisted
    obtain rfl := nameOf_inj.mp hhead
    have hbefore : ∀ key' ∈ listed.insertionSort before, before first key' := by
      intro key' hkey'
      apply hleast
      rw [← hmemkeys]
      exact List.mem_cons_of_mem _ ((List.perm_insertionSort before listed).mem_iff.mp hkey')
    rw [List.insertionSort_cons] at hsorted
    cases htail : listed.insertionSort before with
    | nil =>
      rw [htail] at hsorted
      exact (List.cons.inj hsorted).1.symm
    | cons key' keys =>
      rw [htail] at hsorted hbefore
      rw [List.orderedInsert_cons, if_pos (hbefore key' List.mem_cons_self)] at hsorted
      exact (List.cons.inj hsorted).1.symm

/-! ## What is sent -/

/-- The chunks that are sent are those of the folder. -/
theorem Sends.content_eq (hsends : Sends disk transferId fileHash seqLen start packets datas)
    {data : Bytes}
    (hk : datas[k]? = some data) :
    disk.content (chunkPath transferId (start + k, seqLen)) = some data := by
  induction k generalizing start packets datas with
  | zero =>
    cases datas with
    | nil => cases hk
    | cons data' datas =>
      obtain rfl := Option.some.inj hk
      cases hsends with
      | cons hfirst hrest => exact hfirst.1
  | succ k ih =>
    cases datas with
    | nil => cases hk
    | cons data' datas =>
      cases hsends with
      | cons hfirst hrest =>
        have hnext := ih hrest hk
        rwa [show start + (k + 1) = start + 1 + k by omega]

theorem Sends.filter_isDownlink
    (hsends : Sends disk transferId fileHash seqLen start packets datas) :
    packets.filter isDownlink = packets := by
  rw [List.filter_eq_self]
  unfold Sends at hsends
  generalize datas.zipIdx start = numbered at hsends
  induction hsends with
  | nil => exact fun _ hmem => absurd hmem List.not_mem_nil
  | cons hfirst _ ih =>
    intro packet hmem
    rcases List.mem_cons.mp hmem with rfl | hmem
    · exact hfirst.2.isDownlink
    · exact ih packet hmem

/-- Packets that carry the chunks of a folder, and of a file, carry the same chunks. -/
theorem Sends.inj {seqLen' : ℕ} {fileHash' : Bytes} {datas' : List Bytes}
    (hsends : Sends disk transferId fileHash seqLen start packets datas)
    (hcarry : List.Forall₂ (fun packet (numbered : Bytes × ℕ) =>
      CarriesChunk packet transferId fileHash' numbered.2 seqLen' numbered.1)
      packets (datas'.zipIdx start)) :
    datas = datas' ∧ (packets ≠ [] → seqLen = seqLen') := by
  induction packets generalizing start datas datas' with
  | nil =>
    have hnil : datas = [] := List.zipIdx_eq_nil_iff.mp (List.forall₂_nil_left_iff.mp hsends)
    have hnil' : datas' = [] := List.zipIdx_eq_nil_iff.mp (List.forall₂_nil_left_iff.mp hcarry)
    exact ⟨by rw [hnil, hnil'], fun hne => absurd rfl hne⟩
  | cons packet packets ih =>
    cases datas with
    | nil => cases hsends
    | cons data datas =>
      cases datas' with
      | nil => cases hcarry
      | cons data' datas' =>
        cases hsends with
        | cons hfirst hrest =>
          cases hcarry with
          | cons hfirst' hrest' =>
            obtain ⟨-, hlen, rfl⟩ := hfirst.2.inj hfirst'
            exact ⟨by rw [(ih hrest hrest').1], fun _ => hlen⟩

/-- The folder behind `disassemble_file`. -/
structure Cut (chunks : Chunks) (transferId seqLen chunkSize : ℕ) (source : Path) (content : Bytes)
    (disk : Disk) : Prop where
  stages : Stages disk transferId (cutInto transferId seqLen chunkSize source
    (besideHash transferId source content) chunks seqLen)
  hash : disk.content (hashPath transferId) = some (md5 content)

/-- The digest is as long as the one that it takes the place of. -/
theorem Staged.length_besideHash (hstaged : Staged disk transferId)
    (hcontent : disk.content source = some content) :
    (besideHash transferId source content).length = content.length := by
  unfold besideHash
  split
  · next heq =>
    rw [heq, Disk.content_eq_some] at hcontent
    rcases hstaged.hashed with hnone | ⟨bytes, hbytes, hlength⟩
    · rw [hnone] at hcontent
      cases hcontent
    · rw [hbytes] at hcontent
      obtain rfl := Node.file.inj (Option.some.inj hcontent)
      rw [length_md5, hlength]
  · rfl

theorem isDownlink_of_reports (hreports : ReportsChunks packet transferId seqLen) :
    isDownlink packet = false := by
  obtain ⟨payload, hdecode, -⟩ := hreports
  unfold isDownlink
  rw [hdecode]
  rfl

/-- The payload of the command that requests all chunks. -/
theorem exists_requestPayload (ht : transferId < 2 ^ 16) :
    ∃ command, pack (network [.H, .B, .H, .H])
      [.int transferId, .int 0xFF, .int 0, .int 0] = .ok command ∧
      unpack (network [.H, .B, .H, .H]) command =
        .ok [.int transferId, .int 0xFF, .int 0, .int 0] := by
  have hflag : packOne false .B (.int 0xFF) = .ok (leBytes 1 255) :=
    packOne_B_network (n := 255) (by decide)
  have hzero : packOne false .H (.int 0) = .ok (ordered false (leBytes 2 0)) :=
    packOne_H_network (n := 0) (by decide)
  obtain ⟨command, hpack⟩ : ∃ command, pack (network [.H, .B, .H, .H])
      [.int transferId, .int 0xFF, .int 0, .int 0] = .ok command := by
    unfold pack
    rw [packFrom_cons (by decide), packFrom_cons (by decide), packFrom_cons (by decide),
      packFrom_cons (by decide), packOne_H_network ht, hflag, hzero]
    exact ⟨_, rfl⟩
  exact ⟨command, hpack, unpack_pack (.cons (exact_int 2 _) (.cons (exact_int 1 _)
    (.cons (exact_int 2 _) (.cons (exact_int 2 _) .nil)))) hpack⟩

/-- `request_file`, of all chunks. -/
theorem wp_requestFile {disk' : Disk} (hreliable : env.Reliable)
    (hcut : Cut chunks transferId seqLen chunkSize source content disk') (hpos : 1 ≤ seqLen)
    (ht : transferId < 2 ^ 16) (hat : h.At disk' sent)
    (hunpack : unpack (network [.H, .B, .H, .H]) raw =
      .ok [.int transferId, .int 0xFF, .int 0, .int 0]) :
    Wp (requestFile env raw)
      (fun _ h' => ∃ key packets datas, First env disk' transferId key ∧ datas.length = key.2 ∧
        Sends disk' transferId (md5 content) key.2 1 packets datas ∧ h'.At disk' (sent ++ packets))
      (fun _ _ => ∃ key, First env disk' transferId key ∧ ¬ (key.1 < 100000 ∧ key.2 < 100000 ∧
        ∀ i, 1 ≤ i → i < 1 + key.2 → Sendable disk' transferId (i, key.2))) h := by
  have hsome : (cutInto transferId seqLen chunkSize source (besideHash transferId source content)
      chunks seqLen (1, seqLen)).isSome = true := by
    unfold cutInto
    rw [if_pos ⟨rfl, le_rfl, hpos⟩]
    rfl
  unfold requestFile
  rw [hunpack, wp_bind, wp_raise_ok]
  dsimp only
  rw [wp_tryCatch]
  refine (wp_request hreliable hcut.stages ht ⟨_, hsome⟩ hcut.hash (length_md5 content) hat).mono
    (fun _ _ hends => hends) ?_
  intro e h' hfails
  exact (wp_sendException e h').mono (fun _ _ hfalse => hfalse.elim) fun _ _ _ => hfails

/-- **What `auto_downlink_file` sends**: as many chunks as the chunk that is sorted first says, from
the folder with the chunks of the file. -/
theorem wp_autoDownlinkFile (hreliable : env.Reliable) (hstaged : Staged h.disk transferId)
    (hstages : Stages h.disk transferId chunks)
    (hnames : NamesSource raw transferId chunkSize text)
    (hreadable : Readable env h.disk text source content) (hcontent : content ≠ [])
    (hpos : 1 ≤ chunkSize) (hcount : chunkCount content.length chunkSize = seqLen)
    (hseqLen : seqLen < 2 ^ 16) :
    Wp (autoDownlinkFile env raw)
      (fun _ h' => ∃ disk' key packet packets datas,
        Cut chunks transferId seqLen chunkSize source content disk' ∧
        First env disk' transferId key ∧ datas.length = key.2 ∧ isDownlink packet = false ∧
        Sends disk' transferId (md5 content) key.2 1 packets datas ∧
        h'.sent = h.sent ++ packet :: packets)
      (fun _ _ => ∃ disk' key, Cut chunks transferId seqLen chunkSize source content disk' ∧
        First env disk' transferId key ∧ ¬ (key.1 < 100000 ∧ key.2 < 100000 ∧
          ∀ i, 1 ≤ i → i < 1 + key.2 → Sendable disk' transferId (i, key.2))) h := by
  have ht := hnames.lt
  have hlength := hstaged.length_besideHash hreadable.content
  have hdisassemble := ensures_disassembleFile hreliable hstages hstaged.isDir_hashPath hnames
    hreadable hcontent hpos (by rw [hlength, hcount]) hseqLen ⟨rfl, rfl⟩
  obtain ⟨fileNameLen, fileNamePayload, hunpack, -⟩ := hnames
  obtain ⟨command, hpack, hrequest⟩ := exists_requestPayload ht
  unfold autoDownlinkFile
  rw [hunpack, wp_bind, wp_raise_ok]
  dsimp only
  rw [wp_bind]
  -- the digest is none of the chunks, so that it outlives the disassembly
  refine hdisassemble.mono ?_ fun _ _ hfalse => hfalse.elim
  rintro _ h₁ ⟨made, disk', packet, hmakes, hcutting, hat₁, hreports⟩
  have hcut : Cut chunks transferId seqLen chunkSize source content disk' := by
    refine ⟨hcutting.stages, ?_⟩
    have hlookup := hcutting.beside (hashPath transferId) not_suffix_stagingPath
      fun _ => hashPath_ne_chunkPath
    unfold Disk.content
    rw [hlookup]
    exact content_put
  rw [hpack, wp_bind, wp_raise_ok]
  refine (wp_requestFile hreliable hcut (hcount ▸ chunkCount_pos hpos hcontent) ht hat₁
    hrequest).mono ?_ ?_
  · rintro _ h₂ ⟨key, packets, datas, hfirst, hdatas, hsends, hat₂⟩
    refine ⟨disk', key, packet, packets, datas, hcut, hfirst, hdatas,
      isDownlink_of_reports hreports, hsends, ?_⟩
    rw [hat₂.sent, List.append_assoc]
    rfl
  · rintro _ _ ⟨key, hfirst, hnot⟩
    exact ⟨disk', key, hcut, hfirst, hnot⟩

/-! ## The bytes of all chunks -/

/-- The bytes of all chunks that are written. -/
def cutAll (transferId seqLen chunkSize : ℕ) (source : Path) (content : Bytes) : Bytes :=
  ((List.range seqLen).map fun k =>
    cutFrom transferId seqLen chunkSize source content (k + 1)).flatten

theorem overwritten_iff : overwritten transferId seqLen source k = true ↔
    ∃ i, 1 ≤ i ∧ i < k ∧ source = chunkPath transferId (i, seqLen) := by
  unfold overwritten
  rw [List.any_eq_true]
  constructor
  · rintro ⟨i, hi, hsource⟩
    rw [List.mem_range'_1] at hi
    exact ⟨i, hi.1, by omega, of_decide_eq_true hsource⟩
  · rintro ⟨i, hpos, hlt, hsource⟩
    exact ⟨i, List.mem_range'_1.mpr ⟨hpos, by omega⟩, decide_eq_true hsource⟩

/-- When the file is none of the chunks before the last one, it is written whole. -/
theorem cutAll_eq (hcount : chunkCount content.length chunkSize = seqLen) (hpos : 1 ≤ chunkSize)
    (hsource : ∀ i, 1 ≤ i → i < seqLen → source ≠ chunkPath transferId (i, seqLen)) :
    cutAll transferId seqLen chunkSize source content = content := by
  have hpieces : ((List.range seqLen).map fun k =>
      cutFrom transferId seqLen chunkSize source content (k + 1)) =
      (List.range seqLen).map (piece chunkSize content) := by
    apply List.map_congr_left
    intro k hk
    have hover : ¬ overwritten transferId seqLen source (k + 1) = true := by
      rw [overwritten_iff]
      rintro ⟨i, hfst, hlt, heq⟩
      exact hsource i hfst (by have := List.mem_range.mp hk; omega) heq
    unfold cutFrom
    rw [if_neg hover, Nat.add_sub_cancel]
  unfold cutAll
  rw [hpieces, flatten_pieces, List.take_of_length_le]
  rw [← hcount]
  exact length_le_chunkCount_mul hpos

/-- Behind a chunk that the file is, nothing is written. -/
theorem length_cutAll_le {i : ℕ} (hi : 1 ≤ i) (hsource : source = chunkPath transferId (i, seqLen))
    (n : ℕ) : ((List.range n).map fun k =>
      cutFrom transferId seqLen chunkSize source content (k + 1)).flatten.length ≤
        min n i * chunkSize := by
  induction n with
  | zero => exact Nat.zero_le _
  | succ n ih =>
    rw [List.range_succ, List.map_append, List.flatten_append, List.length_append,
      List.map_singleton,
      List.flatten_singleton]
    by_cases hn : n < i
    · have hle : (cutFrom transferId seqLen chunkSize source content (n + 1)).length ≤ chunkSize :=
        length_cutFrom_le
      rw [Nat.min_eq_left hn.le] at ih
      rw [Nat.min_eq_left hn, Nat.succ_mul]
      omega
    · have hover : overwritten transferId seqLen source (n + 1) = true :=
        overwritten_iff.mpr ⟨i, hi, by omega, hsource⟩
      unfold cutFrom
      rw [if_pos hover, List.length_nil, Nat.add_zero, Nat.min_eq_right (by omega)]
      rwa [Nat.min_eq_right (Nat.not_lt.mp hn)] at ih

/-- **The chunks make up the file if and only if it is not written over before it is read.** -/
theorem cutAll_eq_iff (hlength : (besideHash transferId source content).length = content.length)
    (hcount : chunkCount content.length chunkSize = seqLen) (hpos : 1 ≤ chunkSize) :
    cutAll transferId seqLen chunkSize source (besideHash transferId source content) = content ↔
      (∀ i, 1 ≤ i → i < seqLen → source ≠ chunkPath transferId (i, seqLen)) ∧
        (source = hashPath transferId → md5 content = content) := by
  have hcount' : chunkCount (besideHash transferId source content).length chunkSize = seqLen := by
    rw [hlength, hcount]
  constructor
  · intro hwhole
    have hsource : ∀ i, 1 ≤ i → i < seqLen → source ≠ chunkPath transferId (i, seqLen) := by
      intro i hi hlt heq
      have hle : (cutAll transferId seqLen chunkSize source
          (besideHash transferId source content)).length ≤ min seqLen i * chunkSize :=
        length_cutAll_le hi heq seqLen
      have hshort : i * chunkSize < content.length := mul_lt_of_lt_chunkCount (hcount ▸ hlt)
      rw [hwhole, Nat.min_eq_right hlt.le] at hle
      omega
    refine ⟨hsource, fun heq => ?_⟩
    rw [cutAll_eq hcount' hpos hsource] at hwhole
    rwa [besideHash, if_pos heq] at hwhole
  · rintro ⟨hsource, hhash⟩
    rw [cutAll_eq hcount' hpos hsource]
    unfold besideHash
    split
    · next heq => exact hhash heq
    · rfl

/-! ## The folder behind the file -/

section Cut

variable {disk disk' : Disk}

theorem cutInto_of_mem (hk : k < seqLen) :
    cutInto transferId seqLen chunkSize source content chunks seqLen (k + 1, seqLen) =
      some (cutFrom transferId seqLen chunkSize source content (k + 1)) := by
  unfold cutInto
  rw [if_pos ⟨rfl, Nat.succ_pos k, hk⟩]

/-- The chunks of the file are in the folder, and those that were there. -/
theorem isSome_cutInto : (cutInto transferId seqLen chunkSize source content chunks seqLen
    key).isSome =
    true ↔ (key.2 = seqLen ∧ 1 ≤ key.1 ∧ key.1 ≤ seqLen) ∨ (chunks key).isSome = true := by
  unfold cutInto
  split
  · next h => exact iff_of_true rfl (.inl h)
  · next h => rw [or_iff_right h]

/-- The chunks that are sent, when as many are as were written, are those that were written. -/
theorem Cut.flatten_eq (hcut : Cut chunks transferId seqLen chunkSize source content disk)
    (hsends : Sends disk transferId fileHash seqLen 1 packets datas)
    (hdatas : datas.length = seqLen) :
    datas.flatten = cutAll transferId seqLen chunkSize source
      (besideHash transferId source content) := by
  unfold cutAll
  congr 1
  apply List.ext_getElem?
  intro k
  by_cases hk : k < datas.length
  · have hsent := hsends.content_eq (List.getElem?_eq_getElem hk)
    rw [Nat.add_comm 1 k, hcut.stages.content, cutInto_of_mem (hdatas ▸ hk)] at hsent
    rw [List.getElem?_eq_getElem hk, ← hsent, List.getElem?_map,
      List.getElem?_range (hdatas ▸ hk)]
    rfl
  · rw [List.getElem?_eq_none (Nat.not_lt.mp hk), List.getElem?_map, List.getElem?_eq_none]
    · rfl
    · rw [List.length_range]
      omega

/-- When the earlier chunks agree with the file, the chunk that is sorted first says their
number. -/
theorem Cut.first_eq (hcut : Cut chunks transferId seqLen chunkSize source content disk')
    (hstages : Stages disk transferId chunks) (hagrees : Agrees disk transferId seqLen)
    (hpos : 1 ≤ seqLen) (hfirst : First env disk' transferId key) :
    key.1 ≤ 1 ∧ key.2 = seqLen := by
  obtain ⟨hzero, hone⟩ := hagrees
  obtain ⟨hsome, hleast⟩ := hfirst.least hcut.stages
  have hle : key.1 ≤ 1 := hleast (1, seqLen) (isSome_cutInto.mpr (.inl ⟨rfl, le_rfl, hpos⟩))
  refine ⟨hle, ?_⟩
  rcases isSome_cutInto.mp hsome with ⟨hlen, -, -⟩ | hold
  · exact hlen
  · have hmem : chunkPath transferId key ∈ disk := hstages.mem_iff.mpr hold
    obtain hnum | hnum : key.1 = 0 ∨ key.1 = 1 := by omega
    · rw [show key = (0, key.2) from Prod.ext hnum rfl] at hmem
      exact hzero key.2 hmem
    · rcases hone with ⟨n, hn⟩ | hone
      · have hsmaller := hleast (0, n) (isSome_cutInto.mpr (.inr (hstages.mem_iff.mp hn)))
        rw [hnum] at hsmaller
        exact absurd hsmaller (Nat.not_succ_le_zero 0)
      · rw [show key = (1, key.2) from Prod.ext hnum rfl] at hmem
        exact hone key.2 hmem

theorem Cut.sendable (hcut : Cut chunks transferId seqLen chunkSize source content disk)
    (hmax : chunkSize ≤ 65000) (hseqLen : seqLen < 2 ^ 16) {i : ℕ} (hi : 1 ≤ i) (hle : i ≤ seqLen) :
    Sendable disk transferId (i, seqLen) := by
  obtain ⟨k, rfl⟩ := Nat.exists_eq_add_of_le' hi
  refine ⟨lt_of_le_of_lt hle hseqLen, hseqLen, _,
    (hcut.stages.content _).trans (cutInto_of_mem hle), length_cutFrom_le.trans hmax⟩

end Cut

/-! ## `auto_downlink_file` -/

/-- **When the folder agrees with the file, and the file is written whole, it is sent.** -/
theorem ensures_autoDownlinkFile (hreliable : env.Reliable) (hstaged : Staged h.disk transferId)
    (hnames : NamesSource raw transferId chunkSize text)
    (hreadable : Readable env h.disk text source content) (hcontent : content ≠ [])
    (hpos : 1 ≤ chunkSize) (hmax : chunkSize ≤ 65000)
    (hcount : chunkCount content.length chunkSize = seqLen) (hseqLen : seqLen < 2 ^ 16)
    (hagrees : Agrees h.disk transferId seqLen)
    (hwhole : cutAll transferId seqLen chunkSize source (besideHash transferId source content) =
      content) :
    Ensures (autoDownlinkFile env raw)
      (fun _ h' => Transmitted h.sent h'.sent transferId seqLen content) h := by
  obtain ⟨chunks, hstages⟩ := hstaged.stages
  have hpos' : 1 ≤ seqLen := hcount ▸ chunkCount_pos hpos hcontent
  refine (wp_autoDownlinkFile hreliable hstaged hstages hnames hreadable hcontent hpos hcount
    hseqLen).mono ?_ ?_
  · rintro _ h' ⟨disk', key, packet, packets, datas, hcut, hfirst, hdatas, hreport, hsends, hsent⟩
    obtain ⟨-, hlen⟩ := hcut.first_eq hstages hagrees hpos' hfirst
    rw [hlen] at hdatas hsends
    refine ⟨packet :: packets, datas, hsent, (hcut.flatten_eq hsends hdatas).trans hwhole, hdatas,
      ?_⟩
    rw [List.filter_cons_of_neg (by rw [hreport]; exact Bool.false_ne_true),
      hsends.filter_isDownlink]
    exact hsends.imp fun _ _ hsend => hsend.2
  · rintro _ _ ⟨disk', key, hcut, hfirst, hnot⟩
    obtain ⟨hle, hlen⟩ := hcut.first_eq hstages hagrees hpos' hfirst
    apply hnot
    rw [hlen]
    refine ⟨by omega, by omega, fun i hi hlt => hcut.sendable hmax hseqLen hi (by omega)⟩

/-- When the file is sent, the chunk that is sorted first says its number of chunks, and it was
written whole. -/
theorem first_of_ensures (hreliable : env.Reliable) (hstaged : Staged h.disk transferId)
    (hstages : Stages h.disk transferId chunks)
    (hnames : NamesSource raw transferId chunkSize text)
    (hreadable : Readable env h.disk text source content) (hcontent : content ≠ [])
    (hpos : 1 ≤ chunkSize) (hcount : chunkCount content.length chunkSize = seqLen)
    (hseqLen : seqLen < 2 ^ 16)
    (hsent : Ensures (autoDownlinkFile env raw)
      (fun _ h' => Transmitted h.sent h'.sent transferId seqLen content) h) :
    cutAll transferId seqLen chunkSize source (besideHash transferId source content) = content ∧
      ∃ disk' key, Cut chunks transferId seqLen chunkSize source content disk' ∧
        First env disk' transferId key ∧ key.2 = seqLen := by
  have hpos' : 1 ≤ seqLen := hcount ▸ chunkCount_pos hpos hcontent
  have hwp := wp_autoDownlinkFile hreliable hstaged hstages hnames hreadable hcontent hpos hcount
      hseqLen
  obtain ⟨_, h', ⟨new, datas', hnew, hflatten, hlength, hcarry⟩, disk', key, packet, packets, datas,
    hcut,
    hfirst, hdatas, hreport, hsends, hsent'⟩ :=
    hsent.of_allows (hwp.mono (fun _ _ hends => hends) fun _ _ _ => trivial)
  obtain rfl : new = packet :: packets := List.append_cancel_left (hnew.symm.trans hsent')
  rw [List.filter_cons_of_neg (by rw [hreport]; exact Bool.false_ne_true), hsends.filter_isDownlink]
    at hcarry
  obtain ⟨rfl, hlen⟩ := hsends.inj hcarry
  have hne : packets ≠ [] := by
    rintro rfl
    have hnil : datas = [] := List.zipIdx_eq_nil_iff.mp (List.forall₂_nil_left_iff.mp hcarry)
    rw [hnil, List.length_nil] at hlength
    omega
  have hkey := hlen hne
  rw [hkey] at hsends
  exact ⟨(hcut.flatten_eq hsends hlength).symm.trans hflatten, disk', key, hcut, hfirst, hkey⟩

/-- A host that lists a name first, and whose disk does not fail. -/
def listing (cwd : Path) (name : Name) : Env where
  cwd := cwd
  order _ := promote name
  perm _ := promote_perm name
  fault _ := none
  report _ := []

theorem Readable.of_cwd (hreadable : Readable env disk text source content)
    (hcwd : env'.cwd = env.cwd) :
    Readable env' disk text source content where
  nul := hreadable.nul
  target := by rw [hcwd, hreadable.target]
  content := hreadable.content

/-- When a chunk with the smallest number is listed first, and the file is sent, it says the number
of chunks of the file. -/
theorem total_of_ensures (hstaged : Staged h.disk transferId)
    (hstages : Stages h.disk transferId chunks)
    (hnames : NamesSource raw transferId chunkSize text)
    (hreadable : Readable env h.disk text source content) (hcontent : content ≠ [])
    (hpos : 1 ≤ chunkSize) (hcount : chunkCount content.length chunkSize = seqLen)
    (hseqLen : seqLen < 2 ^ 16) (hsome : (chunks first).isSome = true)
    (hleast : ∀ key, (chunks key).isSome = true ∨ 1 ≤ key.1 → first.1 ≤ key.1)
    (hsent : Ensures (autoDownlinkFile (listing env.cwd (nameOf first)) raw)
      (fun _ h' => Transmitted h.sent h'.sent transferId seqLen content) h) : first.2 = seqLen := by
  have hcwd : (listing env.cwd (nameOf first)).cwd = env.cwd := rfl
  obtain ⟨-, disk', key, hcut, hfirst, hkey⟩ :=
    first_of_ensures (fun _ => rfl) hstaged hstages hnames
    (hreadable.of_cwd hcwd) hcontent hpos hcount hseqLen hsent
  obtain rfl := hfirst.eq_of_promote hcut.stages (fun _ => rfl) (isSome_cutInto.mpr (.inr hsome))
    fun key' hkey' => hleast key' ((isSome_cutInto.mp hkey').symm.imp id fun h => h.2.1)
  exact hkey

theorem readable_file {disk : Disk} (hcontent : disk.content [ascii "a"] = some content) :
    Readable plainEnv disk (ascii "/a") [ascii "a"] content :=
  ⟨by decide, by decide, hcontent⟩

/-- No staging folder is there before the first command. -/
theorem left_fileHost : Left fileHost.disk := by
  apply Left.empty
  · intro transferId dir hdir node hnode
    have hne : dir ≠ [ascii "a"] := by
      rintro rfl
      obtain ⟨front, hfront⟩ := hdir
      have hlast : (front ++ [ascii "a"]).getLast? = some (ascii "root") :=
        congrArg List.getLast? hfront
      rw [List.getLast?_append] at hlast
      exact absurd (Option.some.inj hlast) (by decide)
    unfold fileHost Disk.put at hnode
    rw [AList.lookup_insert_ne hne] at hnode
    cases hnode
  · intro transferId name hmem
    unfold fileHost at hmem
    rcases mem_put.mp hmem with heq | hmem
    · simpa [stagingPath] using congrArg List.length heq
    · exact AList.notMem_empty _ hmem

/-- The host behind the uplink of the first one of three chunks. -/
def staleHost : Host := behind ((Command.uplinkFile (chunkPayload 1 3 [7])).run plainEnv) fileHost

end ClickA.Files
