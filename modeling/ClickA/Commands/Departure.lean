import ClickA.Commands.Acknowledged
import ClickA.Commands.Arrival
import ClickA.Driver.Ground
import ClickA.Files.AutoDownlink

/-!
# A file from the disk to the wire

A command handler sends a file as chunks to the packetizer, which receives them between the messages
of others, cuts them into packets and writes these to the driver, which shifts them out. The other
side puts the file together from the chunks that it hears. What it has is the file: nothing that
happens on the way makes it another one, and when no packet is left behind it is there.

## Main definitions

* `FileChunk`, `readChunk`: a chunk as the other side reads it
* `rebuild`: the file of a transfer, from the messages that are heard
* `Brought`: packets to the packetizer bring a file to the other side

## Main results

* `rebuild_eq_some`, `eq_of_rebuild`: from chunks of a file, the file is rebuilt and nothing else
* `brought_of_transmitted`: the packets of a downlink bring its file
* `brought_of_departed`: the whole way
-/

namespace ClickA.Files

open Python Python.Disk Stream
open Bus (Message heard)
open Driver (wire Sender)
open Driver.Sender (Accepting Drained messages)

attribute [local irreducible] pack unpack TxPacket.encode

/-! ## The other side -/

/-- A chunk of a file as the other side reads it. -/
structure FileChunk where
  transferId : ℕ
  fileHash : Bytes
  seqNum : ℕ
  seqLen : ℕ
  data : Bytes

/-- The chunk that a message carries. -/
def readChunk (m : BitVec 11 × Bytes) : Option FileChunk :=
  if m.1 = BitVec.ofNat 11 tlmDlFile then
    match unpack (network [.H, .s 16, .H, .H, .H, .s (m.2.length - 24)]) m.2 with
    | .ok [.int transferId, .str fileHash, .int seqNum, .int seqLen, .int chunkLen, .str data] =>
      if chunkLen = data.length then
        some ⟨transferId.toNat, fileHash, seqNum.toNat, seqLen.toNat, data⟩
      else none
    | _ => none
  else none

/-- The chunks of a transfer among the messages that are heard. -/
def chunksOf (transferId : ℕ) (ms : List (BitVec 11 × Bytes)) : List FileChunk :=
  (ms.filterMap readChunk).filter fun chunk => chunk.transferId = transferId

/-- The data of the first chunk with a number. -/
def dataOf (chunks : List FileChunk) (seqNum : ℕ) : Option Bytes :=
  (chunks.find? fun chunk => chunk.seqNum = seqNum).map FileChunk.data

/-- The file of a transfer, when all its chunks are heard and it has the digest they say. -/
def rebuild (transferId : ℕ) (ms : List (BitVec 11 × Bytes)) : Option Bytes :=
  let chunks := chunksOf transferId ms
  match chunks with
  | [] => none
  | chunk :: _ => do
    let file ← collected (dataOf chunks) (List.range' 1 chunk.seqLen)
    if md5 file = chunk.fileHash then some file else none

/-- A chunk is a piece of a file. -/
structure FileChunk.PieceOf (chunk : FileChunk) (datas : List Bytes) : Prop where
  fileHash : chunk.fileHash = md5 datas.flatten
  seqLen : chunk.seqLen = datas.length
  pos : 1 ≤ chunk.seqNum
  data : datas[chunk.seqNum - 1]? = some chunk.data

/-- The message is heard as a chunk of a transfer. -/
def OfTransfer (transferId : ℕ) (m : Message) : Prop :=
  ∃ chunk, readChunk m.content = some chunk ∧ chunk.transferId = transferId

/-- The packets bring a file to the other side: in every run of the packetizer and the driver,
unless another message is heard as a chunk of the transfer, nothing but the file is rebuilt, and it
is rebuilt when the packetizer received all of them and no packet is left behind. -/
def Brought (transferId : ℕ) (content : Bytes) (packets : List Bytes) : Prop :=
  ∀ es s, (∀ e ∈ es, Accepting e) → Sender.run .init es = some s →
    (∀ m ∈ messages es, OfTransfer transferId m → m.raw ∈ packets.filter isDownlink) →
    (∀ file, rebuild transferId (heard (wire s.driver)) = some file → file = content) ∧
    (Drained s → (∀ packet ∈ packets, ∃ m ∈ messages es, m.raw = packet) →
      rebuild transferId (heard (wire s.driver)) = some content)

variable {transferId seqNum seqLen : ℕ} {datas new sent sent' : List Bytes}
  {ms : List (BitVec 11 × Bytes)} {chunk : FileChunk} {file content fileHash data packet : Bytes}

section Rebuild

theorem mem_chunksOf : chunk ∈ chunksOf transferId ms ↔
    (∃ m ∈ ms, readChunk m = some chunk) ∧ chunk.transferId = transferId := by
  rw [chunksOf, List.mem_filter, List.mem_filterMap, decide_eq_true_iff]

theorem dataOf_eq_some {chunks : List FileChunk} (h : dataOf chunks seqNum = some data) :
    ∃ chunk ∈ chunks, chunk.seqNum = seqNum ∧ chunk.data = data := by
  obtain ⟨chunk, hfind, rfl⟩ := Option.map_eq_some_iff.mp h
  exact ⟨chunk, List.mem_of_find?_eq_some hfind, by simpa using List.find?_some hfind, rfl⟩

theorem isSome_dataOf {chunks : List FileChunk} (hmem : chunk ∈ chunks) :
    (dataOf chunks chunk.seqNum).isSome = true := by
  rw [dataOf, Option.isSome_map, List.find?_isSome]
  exact ⟨chunk, hmem, decide_eq_true rfl⟩

/-- The pieces of a file, by their numbers. -/
theorem flatMap_pieces (datas : List Bytes) :
    (List.range' 1 datas.length).flatMap (fun i => datas[i - 1]?.getD []) = datas.flatten := by
  rw [List.range'_eq_map_range, List.flatMap_map, List.flatMap_def]
  refine congrArg List.flatten (List.ext_getElem (by simp) fun i _ hi => ?_)
  simp [List.getElem?_eq_getElem hi]

/-- From chunks that are pieces of a file, the file is collected exactly when each one is there. -/
theorem collected_dataOf_iff (hpieces : ∀ chunk ∈ chunksOf transferId ms, chunk.PieceOf datas) :
    collected (dataOf (chunksOf transferId ms)) (List.range' 1 datas.length) = some file ↔
      file = datas.flatten ∧ ∀ i ∈ List.range' 1 datas.length,
        (dataOf (chunksOf transferId ms) i).isSome = true := by
  rw [← flatMap_pieces]
  refine collected_eq_some_iff fun i _ data hdata => ?_
  obtain ⟨chunk, hmem, rfl, rfl⟩ := dataOf_eq_some hdata
  rw [(hpieces chunk hmem).data, Option.getD_some]

/-- **Nothing but the file is rebuilt.** -/
theorem eq_of_rebuild (hpieces : ∀ chunk ∈ chunksOf transferId ms, chunk.PieceOf datas)
    (h : rebuild transferId ms = some file) : file = datas.flatten := by
  unfold rebuild at h
  cases hchunks : chunksOf transferId ms with
  | nil =>
    rw [hchunks] at h
    cases h
  | cons chunk chunks =>
    have hlen := (hpieces chunk (hchunks ▸ List.mem_cons_self)).seqLen
    rw [hchunks] at h
    obtain ⟨file', hcollected, hif⟩ := Option.bind_eq_some_iff.mp h
    rw [← hchunks, hlen] at hcollected
    obtain ⟨rfl, -⟩ := (collected_dataOf_iff hpieces).mp hcollected
    split_ifs at hif
    exact (Option.some.inj hif).symm

/-- **The file is rebuilt when all its chunks are heard.** -/
theorem rebuild_eq_some (hpieces : ∀ chunk ∈ chunksOf transferId ms, chunk.PieceOf datas)
    (hne : datas ≠ []) (hall : ∀ i < datas.length, ∃ chunk ∈ chunksOf transferId ms,
      chunk.seqNum = i + 1) : rebuild transferId ms = some datas.flatten := by
  obtain ⟨chunk₀, hmem₀, -⟩ := hall 0 (List.length_pos_iff.mpr hne)
  unfold rebuild
  cases hchunks : chunksOf transferId ms with
  | nil =>
    rw [hchunks] at hmem₀
    cases hmem₀
  | cons chunk chunks =>
    obtain ⟨hhash, hlen, -, -⟩ := hpieces chunk (hchunks ▸ List.mem_cons_self)
    refine Option.bind_eq_some_iff.mpr ⟨datas.flatten, ?_, if_pos hhash.symm⟩
    rw [← hchunks, hlen]
    refine (collected_dataOf_iff hpieces).mpr ⟨rfl, fun i hi => ?_⟩
    obtain ⟨hpos, hlt⟩ := List.mem_range'_1.mp hi
    obtain ⟨chunk, hmem, hnum⟩ := hall (i - 1) (by omega)
    obtain rfl : chunk.seqNum = i := by omega
    exact isSome_dataOf hmem

end Rebuild

/-! ## A downlink -/

section Downlink

/-- A message that carries a chunk is heard as it. -/
theorem readChunk_content {m : Message}
    (hcarries : CarriesChunk m.raw transferId fileHash seqNum seqLen data) :
    readChunk m.content = some ⟨transferId, fileHash, seqNum, seqLen, data⟩ := by
  obtain ⟨payload, hdecode, hunpack⟩ := hcarries
  rw [TxPacket.decode_encode m.encoded, Except.ok.injEq, Prod.mk.injEq] at hdecode
  obtain ⟨hapid, rfl⟩ := hdecode
  have hlen : m.payload.length - 24 = data.length := by
    have hsize := length_of_unpack hunpack
    simp [calcsize, endFrom, gap, Code.size] at hsize
    omega
  unfold readChunk Message.content
  rw [hapid, if_pos rfl, hlen, hunpack]
  dsimp only
  rw [if_pos rfl]
  rfl

/-- The packets of a downlink, by the numbers of their chunks. -/
theorem carriesChunk_getElem {packets : List Bytes} (h : List.Forall₂
      (fun packet (numbered : Bytes × ℕ) =>
        CarriesChunk packet transferId fileHash numbered.2 seqLen numbered.1)
      packets (datas.zipIdx 1)) :
    packets.length = datas.length ∧ ∀ i (hi : i < packets.length) (hi' : i < datas.length),
      CarriesChunk packets[i] transferId fileHash (i + 1) seqLen datas[i] := by
  obtain ⟨hlen, hcarries⟩ := List.forall₂_iff_get.mp h
  rw [List.length_zipIdx] at hlen
  refine ⟨hlen, fun i hi hi' => ?_⟩
  have hi₁ : i < (datas.zipIdx 1).length := by rwa [List.length_zipIdx]
  simpa [Nat.add_comm] using hcarries i hi hi₁

/-- **The packets of a downlink bring its file**. -/
theorem brought_of_transmitted (hcontent : content ≠ [])
    (htransmitted : Transmitted sent sent' transferId seqLen content) :
    ∃ new, sent' = sent ++ new ∧ Brought transferId content new := by
  obtain ⟨new, datas, hnew, rfl, rfl, hcarry⟩ := htransmitted
  obtain ⟨hlen, hcarries⟩ := carriesChunk_getElem hcarry
  refine ⟨new, hnew, fun es s hes hrun hothers => ?_⟩
  obtain ⟨hfirst, hdrained⟩ := Sender.heard_run hes hrun
  have hpieces : ∀ chunk ∈ chunksOf transferId (heard (wire s.driver)), chunk.PieceOf datas := by
    intro chunk hchunk
    obtain ⟨⟨m, hm, hread⟩, htransfer⟩ := mem_chunksOf.mp hchunk
    obtain ⟨m, hmem, rfl⟩ := List.mem_map.mp (hfirst.subset hm)
    obtain ⟨i, hi, hraw⟩ := List.getElem_of_mem (hothers m hmem ⟨chunk, hread, htransfer⟩)
    have hi' : i < datas.length := hlen ▸ hi
    have hcarry := hcarries i hi hi'
    rw [hraw] at hcarry
    obtain rfl := Option.some.inj ((readChunk_content hcarry).symm.trans hread)
    exact ⟨rfl, rfl, Nat.succ_pos i, List.getElem?_eq_getElem hi'⟩
  refine ⟨fun file hfile => eq_of_rebuild hpieces hfile, fun hs hall => ?_⟩
  have hne : datas ≠ [] := fun hnil => hcontent (by rw [hnil, List.flatten_nil])
  refine rebuild_eq_some hpieces hne fun i hi => ?_
  have hi' : i < (new.filter isDownlink).length := hlen.symm ▸ hi
  obtain ⟨m, hmem, hraw⟩ := hall _ (List.mem_of_mem_filter (List.getElem_mem hi'))
  have hcarry := hcarries i hi' hi
  rw [← hraw] at hcarry
  refine ⟨_, mem_chunksOf.mpr ⟨⟨_, ?_, readChunk_content hcarry⟩, rfl⟩, rfl⟩
  rw [hdrained hs]
  exact List.mem_map_of_mem hmem

end Downlink

end ClickA.Files

namespace ClickA.Commands

open Python Options
open Files (Left NamesSource Readable chunkCount Agrees chunkPath hashPath Brought)

attribute [local irreducible] pack HKControlPacket.encode TxPacket.encode

/-- **A file departs**: a command handler that is told to downlink a file, of which the earlier
transfers left nothing that disagrees, acknowledges it, and its packets bring the file to the other
side. -/
theorem brought_of_departed (other : Env → ℕ → Bytes → Stmt Unit) {job : Job} {h : Files.Host}
    {s ms transferId chunkSize seqLen : ℕ} {payload text content : Bytes} {source : Path}
    (hreliable : job.env.files.Reliable)
    (hdecode : RxCommandPacket.decode job.raw = .ok (cmdPlAutoDownlinkFile, s, ms, payload))
    (hleft : Left h.disk) (hnames : NamesSource payload transferId chunkSize text)
    (hreadable : Readable job.env.files h.disk text source content) (hcontent : content ≠ [])
    (hpos : 1 ≤ chunkSize) (hmax : chunkSize ≤ 65000)
    (hcount : chunkCount content.length chunkSize = seqLen) (hseqLen : seqLen ≤ 65535)
    (hagrees : Agrees h.disk transferId seqLen)
    (hsource : ∀ i, 1 ≤ i → i < seqLen → source ≠ chunkPath transferId (i, seqLen))
    (hhash : source = hashPath transferId → md5 content = content) :
    AckedWith cmdPlAutoDownlinkFile cmdAck (job.before h) (job.after other h) ∧
      ∃ new, (job.after other h).host.sent = h.sent ++ new ∧
        Brought transferId content new := by
  have hstaged := Files.tidy_of_left hleft transferId
  have hwhole := (Files.cutAll_eq_iff (hstaged.length_besideHash hreadable.content) hcount
    hpos).mpr ⟨hsource, hhash⟩
  have hsent := Files.ensures_autoDownlinkFile hreliable hstaged hnames hreadable hcontent hpos hmax
    hcount (by omega) hagrees hwhole
  refine after_of_ensures (P := fun w => AckedWith cmdPlAutoDownlinkFile cmdAck (job.before h) w ∧
    ∃ new, w.host.sent = h.sent ++ new ∧ Brought transferId content new) ?_
  rw [workload_eq (c := .autoDownlinkFile) hdecode]
  refine (ensures_fileCommand (by decide) hsent).imp ?_
  rintro _ w' ⟨htransmitted, hacked⟩
  exact ⟨hacked, Files.brought_of_transmitted hcontent htransmitted⟩

/-- The command to downlink a file of three bytes in chunks of two. -/
def departure : Job where
  env := quietEnv
  world := {}
  patStatusFlag := 0
  raw := RxCommandPacket.header cmdPlAutoDownlinkFile 8 0 0 ++ Files.disassemblePayload

theorem brought_of_departed_threeBytes :
    AckedWith cmdPlAutoDownlinkFile cmdAck (departure.before Files.fileHost)
      (departure.after (fun _ _ _ => pure ()) Files.fileHost) ∧
      ∃ new, (departure.after (fun _ _ _ => pure ()) Files.fileHost).host.sent =
        Files.fileHost.sent ++ new ∧ Brought 5 [8, 9, 7] new := by
  have hdecode : RxCommandPacket.decode departure.raw =
      .ok (cmdPlAutoDownlinkFile, 0, 0, Files.disassemblePayload) :=
    RxCommandPacket.decode_encode (by decide) (by decide) (by decide) (by decide)
      (RxCommandPacket.encode_eq (by decide) (by decide) (by decide) (by decide))
  have hreadable : Readable departure.env.files Files.fileHost.disk (ascii "/a") [ascii "a"]
      [8, 9, 7] := Files.readable_file (by unfold Files.fileHost; exact Disk.content_put)
  have hapart : ∀ key, chunkPath 5 key ≠ [ascii "a"] := by
    intro key heq
    simpa [chunkPath, Files.stagingPath] using congrArg List.length heq
  have hnone : ∀ key, chunkPath 5 key ∉ Files.fileHost.disk := by
    intro key hmem
    unfold Files.fileHost at hmem
    rcases Disk.mem_put.mp hmem with heq | hmem
    · exact hapart key heq
    · exact AList.notMem_empty _ hmem
  have hagrees : Agrees Files.fileHost.disk 5 2 :=
    ⟨fun n hmem => absurd hmem (hnone _), .inr fun n hmem => absurd hmem (hnone _)⟩
  exact brought_of_departed _ (fun _ => rfl) hdecode Files.left_fileHost
    Files.namesSource_disassemblePayload hreadable (List.cons_ne_nil _ _) (by decide) (by decide)
    rfl (by decide) hagrees (fun i _ _ heq => hapart _ heq.symm) (by decide)

end ClickA.Commands
