import ClickA.Files.Disassembly

/-!
# Downlinks

`request_file` sends the chunks of a folder. How many there are it reads from the name of the chunk
that is sorted first, whichever transfer left it.

## Main definitions

* `CarriesChunk`: a packet carries a chunk of a file
* `Transmitted`: the packets of a downlink carry a file
* `Sends`: the packets carry the chunks of the folder that say a number of chunks
* `First`: the chunk of the folder that is sorted first

## Main results

* `wp_sendChunks`: the loop sends the chunks of the folder, or one of them cannot be sent
* `wp_request`: the chunk that is sorted first says how many chunks `request_file` sends
-/

namespace ClickA.Files

open Python Python.Disk Stream

attribute [local irreducible] pack TxPacket.encode

/-- A packet carries a chunk of a file. -/
def CarriesChunk (packet : Bytes) (transferId : ℕ) (fileHash : Bytes) (seqNum seqLen : ℕ)
    (data : Bytes) : Prop :=
  ∃ payload, TxPacket.decode packet = .ok (tlmDlFile, payload) ∧
    unpack (network [.H, .s 16, .H, .H, .H, .s data.length]) payload =
      .ok [.int transferId, .str fileHash, .int seqNum, .int seqLen, .int data.length, .str data]

/-- The packet is one of a downlink. -/
def isDownlink (packet : Bytes) : Bool :=
  match TxPacket.decode packet with
  | .ok (apid, _) => apid = tlmDlFile
  | .error _ => false

/-- The packets of a downlink carry a file as so many chunks, in their order. -/
def Transmitted (sent sent' : List Bytes) (transferId seqLen : ℕ) (content : Bytes) : Prop :=
  ∃ new datas : List Bytes, sent' = sent ++ new ∧ datas.flatten = content ∧ datas.length = seqLen ∧
    List.Forall₂ (fun packet (numbered : Bytes × ℕ) =>
      CarriesChunk packet transferId (md5 content) numbered.2 seqLen numbered.1)
      (new.filter isDownlink) (datas.zipIdx 1)

/-- The packets carry the chunks of the folder with a number of chunks, from a number on. -/
def Sends (disk : Disk) (transferId : ℕ) (fileHash : Bytes) (seqLen start : ℕ)
    (packets datas : List Bytes) : Prop :=
  List.Forall₂ (fun packet (numbered : Bytes × ℕ) =>
    disk.content (chunkPath transferId (numbered.2, seqLen)) = some numbered.1 ∧
    CarriesChunk packet transferId fileHash numbered.2 seqLen numbered.1) packets
      (datas.zipIdx start)

variable {env : Env} {h : Host} {disk : Disk} {sent : List Bytes}
  {transferId seqLen seqLen' i n : ℕ}
  {seqNum seqNum' : ℕ} {chunks : Chunks} {key : Key} {keys : List Key}
  {text content data data' packet fileHash fileHash' : Bytes} {path : Path}

/-! ## Packets -/

theorem CarriesChunk.isDownlink (hcarries : CarriesChunk packet transferId fileHash seqNum seqLen
    data) :
    isDownlink packet = true := by
  obtain ⟨payload, hdecode, -⟩ := hcarries
  unfold Files.isDownlink
  rw [hdecode]
  exact decide_eq_true rfl

/-- A packet carries one chunk. -/
theorem CarriesChunk.inj (hcarries : CarriesChunk packet transferId fileHash seqNum seqLen data)
    (hcarries' : CarriesChunk packet transferId fileHash' seqNum' seqLen' data') :
    fileHash = fileHash' ∧ seqLen = seqLen' ∧ data = data' := by
  obtain ⟨payload, hdecode, hunpack⟩ := hcarries
  obtain ⟨payload', hdecode', hunpack'⟩ := hcarries'
  rw [hdecode, Except.ok.injEq, Prod.mk.injEq] at hdecode'
  obtain ⟨-, rfl⟩ := hdecode'
  have hlength : data.length = data'.length := by
    have hsize := length_of_unpack hunpack
    have hsize' := length_of_unpack hunpack'
    simp [calcsize, endFrom, gap, Code.size] at hsize hsize'
    omega
  rw [hlength, hunpack'] at hunpack
  simp only [Except.ok.injEq, List.cons.injEq, Value.str.injEq, Value.int.injEq,
    Int.natCast_inj] at hunpack
  exact ⟨hunpack.2.1.symm, hunpack.2.2.2.1.symm, hunpack.2.2.2.2.2.1.symm⟩

/-- The packet that is packed carries its chunk. -/
theorem carriesChunk_of_encode {payload : Bytes} (hhash : fileHash.length = 16)
    (hpack : pack (network [.H, .s 16, .H, .H, .H, .s data.length]) [.int transferId, .str fileHash,
      .int seqNum, .int seqLen, .int data.length, .str data] = .ok payload)
    (hencode : TxPacket.encode tlmDlFile payload = .ok packet) :
    CarriesChunk packet transferId fileHash seqNum seqLen data :=
  ⟨payload, TxPacket.decode_encode hencode, unpack_pack (.cons (exact_int 2 _)
    (.cons (exact_str hhash) (.cons (exact_int 2 _) (.cons (exact_int 2 _) (.cons (exact_int 2 _)
      (.cons (exact_str rfl) .nil)))))) hpack⟩

theorem exists_pack_chunk (fileHash data : Bytes) (ht : transferId < 2 ^ 16)
    (hnum : seqNum < 2 ^ 16)
    (hlen : seqLen < 2 ^ 16) (hdata : data.length < 2 ^ 16) :
    ∃ payload, pack (network [.H, .s 16, .H, .H, .H, .s data.length]) [.int transferId,
      .str fileHash, .int seqNum, .int seqLen, .int data.length, .str data] = .ok payload := by
  unfold pack
  rw [packFrom_cons (by simp), packFrom_cons (by simp), packFrom_cons (by simp),
    packFrom_cons (by simp), packFrom_cons (by simp), packFrom_cons (by simp),
    packOne_H_network ht, packOne_H_network hnum, packOne_H_network hlen, packOne_H_network hdata]
  exact ⟨_, rfl⟩

/-! ## The chunks of a folder -/

/-- A chunk of the folder can be sent. -/
def Sendable (disk : Disk) (transferId : ℕ) (key : Key) : Prop :=
  key.1 < 2 ^ 16 ∧ key.2 < 2 ^ 16 ∧
    ∃ data, disk.content (chunkPath transferId key) = some data ∧ data.length ≤ 65000

theorem length_chunk {payload : Bytes}
    (hpack : pack (network [.H, .s 16, .H, .H, .H, .s data.length]) [.int transferId, .str fileHash,
      .int seqNum, .int seqLen, .int data.length, .str data] = .ok payload) :
    payload.length = 24 + data.length := by
  rw [length_of_pack hpack]
  simp [calcsize, endFrom, gap, Code.size]

/-- **A chunk is sent, or it cannot be sent.** -/
theorem wp_sendChunk (hreliable : env.Reliable) (ht : transferId < 2 ^ 16)
    (hhash : fileHash.length = 16) (hat : h.At disk sent) :
    Wp (sendChunk env transferId fileHash seqLen i)
      (fun _ h' => ∃ packet data, disk.content (chunkPath transferId (i, seqLen)) = some data ∧
        CarriesChunk packet transferId fileHash i seqLen data ∧ h'.At disk (sent ++ [packet]))
      (fun _ _ => ¬ Sendable disk transferId (i, seqLen)) h := by
  unfold sendChunk
  dsimp only
  cases hcontent : disk.content (chunkPath transferId (i, seqLen)) with
  | none =>
    have hnot : ¬ Sendable disk transferId (i, seqLen) := by
      rintro ⟨-, -, data, hdata, -⟩
      rw [hcontent] at hdata
      cases hdata
    rw [wp_bind]
    refine (allows_openRead hreliable hat).mono ?_ fun _ _ _ => hnot
    rintro path h' ⟨-, content, hreadable⟩
    have htarget : target env.cwd (stagingDir transferId ++ chunkName i seqLen) =
        some (chunkPath transferId (i, seqLen)) :=
      target_staging plain_chunkName (not_mem_chunkName rfl (by decide))
    obtain rfl := Option.some.inj (hreadable.target.symm.trans htarget)
    rw [hreadable.content] at hcontent
    cases hcontent
  | some data =>
    have hreadable : Readable env disk (stagingDir transferId ++ nameOf (i, seqLen))
        (chunkPath transferId (i, seqLen)) data := readable_chunk hcontent
    rw [wp_bind]
    refine (ensures_openRead hreliable hreadable hat).mono ?_ fun _ _ hfalse => hfalse.elim
    rintro _ h' ⟨rfl, hat'⟩
    rw [wp_bind]
    refine (ensures_stat hreliable hreadable hat').mono ?_ fun _ _ hfalse => hfalse.elim
    rintro _ h' ⟨rfl, hat'⟩
    rw [wp_bind]
    refine (ensures_readAll hreliable hcontent hat').mono ?_ fun _ _ hfalse => hfalse.elim
    rintro content h' ⟨rfl, hat'⟩
    have hfits : Sendable disk transferId (i, seqLen) →
        i < 2 ^ 16 ∧ seqLen < 2 ^ 16 ∧ content.length ≤ 65000 := by
      rintro ⟨hi, hlen, data, hdata, hle⟩
      rw [hcontent, Option.some.injEq] at hdata
      exact ⟨hi, hlen, hdata ▸ hle⟩
    cases hpack : pack (network [.H, .s 16, .H, .H, .H, .s content.length]) [.int transferId,
        .str fileHash, .int i, .int seqLen, .int content.length, .str content] with
    | error e =>
      intro hsendable
      obtain ⟨hi, hlen, hle⟩ := hfits hsendable
      obtain ⟨payload, hok⟩ := exists_pack_chunk fileHash content ht hi hlen (by omega)
      rw [hpack] at hok
      cases hok
    | ok payload =>
      rw [wp_bind, wp_raise_ok]
      cases hencode : TxPacket.encode tlmDlFile payload with
      | ok packet =>
        refine (ensures_sendPacket hencode hat').mono ?_ fun _ _ hfalse => hfalse.elim
        intro _ h'' hat''
        exact ⟨packet, content, rfl, carriesChunk_of_encode hhash hpack hencode, hat''⟩
      | error e =>
        unfold sendPacket
        rw [hencode, wp_bind, wp_raise_error]
        intro hsendable
        have hle := (hfits hsendable).2.2
        have hlength := length_chunk hpack
        rw [TxPacket.encode_eq (by decide) (by omega)] at hencode
        cases hencode

/-- **The loop sends the chunks of the folder**, or one of them cannot be sent. -/
theorem wp_sendChunks (hreliable : env.Reliable) (ht : transferId < 2 ^ 16)
    (hhash : fileHash.length = 16) (start n : ℕ) (hat : h.At disk sent) :
    Wp ((List.range' start n).forM (sendChunk env transferId fileHash seqLen))
      (fun _ h' => ∃ packets datas, datas.length = n ∧
        Sends disk transferId fileHash seqLen start packets datas ∧ h'.At disk (sent ++ packets))
      (fun _ _ => ¬ ∀ i, start ≤ i → i < start + n → Sendable disk transferId (i, seqLen)) h := by
  induction n generalizing start sent h with
  | zero =>
    refine ⟨[], [], rfl, .nil, ?_⟩
    rwa [List.append_nil]
  | succ n ih =>
    show Wp (sendChunk env transferId fileHash seqLen start >>= fun _ =>
      (List.range' (start + 1) n).forM (sendChunk env transferId fileHash seqLen)) _ _ h
    rw [wp_bind]
    refine (wp_sendChunk hreliable ht hhash hat).mono ?_ ?_
    · rintro _ h' ⟨packet, data, hcontent, hcarries, hat'⟩
      refine (ih (start + 1) hat').mono ?_ ?_
      · rintro _ h'' ⟨packets, datas, hlength, hsends, hat''⟩
        refine ⟨packet :: packets, data :: datas, by rw [List.length_cons, hlength], ?_, ?_⟩
        · exact .cons ⟨hcontent, hcarries⟩ hsends
        · rwa [List.append_cons]
      · intro _ _ hnot hall
        exact hnot fun i hstart hi => hall i (by omega) (by omega)
    · intro _ _ hnot hall
      exact hnot (hall start le_rfl (by omega))

/-! ## `request_file` -/

/-- The chunk of the folder that is sorted first, for an order in which the names are listed. -/
def First (env : Env) (disk : Disk) (transferId : ℕ) (key : Key) : Prop :=
  ∃ (n : ℕ) (listed rest : List Key),
    (env.order n (disk.names (stagingPath transferId))).filter isChunk = listed.map nameOf ∧
      listed.insertionSort before = key :: rest

/-- It is a chunk of the folder, and none has a smaller number. -/
theorem First.least (hstages : Stages disk transferId chunks)
    (hfirst : First env disk transferId key) :
    (chunks key).isSome = true ∧ ∀ key', (chunks key').isSome = true → key.1 ≤ key'.1 := by
  obtain ⟨n, listed, rest, hlisted, hsorted⟩ := hfirst
  obtain ⟨keys, hkeys, hnodup, hmem⟩ :=
    hstages.exists_keys (env.perm n (disk.names (stagingPath transferId)))
  obtain rfl : listed = keys := by
    apply List.map_injective_iff.mpr (fun _ _ => nameOf_inj.mp)
    rw [← hlisted, hkeys]
  have hall := sortedKeys_insertionSort hnodup hmem
  rw [hsorted] at hall
  refine ⟨(hall.mem key).mp List.mem_cons_self, fun key' hkey' => ?_⟩
  rcases List.mem_cons.mp ((hall.mem key').mpr hkey') with rfl | hrest
  · exact le_rfl
  · exact (List.pairwise_cons.mp hall.sorted).1 key' hrest

/-- **`request_file` sends as many chunks as the chunk that is sorted first says**, or one of them
cannot be sent. -/
theorem wp_request (hreliable : env.Reliable) (hstages : Stages disk transferId chunks)
    (ht : transferId < 2 ^ 16) (hsome : ∃ key, (chunks key).isSome = true)
    (hcontent : disk.content (hashPath transferId) = some fileHash) (hhash : fileHash.length = 16)
    (hat : h.At disk sent) :
    Wp (request env transferId 0xFF 0 0)
      (fun _ h' => ∃ key packets datas, First env disk transferId key ∧ datas.length = key.2 ∧
        Sends disk transferId fileHash key.2 1 packets datas ∧ h'.At disk (sent ++ packets))
      (fun _ _ => ∃ key, First env disk transferId key ∧ ¬ (key.1 < 100000 ∧ key.2 < 100000 ∧
        ∀ i, 1 ≤ i → i < 1 + key.2 → Sendable disk transferId (i, key.2))) h := by
  obtain ⟨somekey, hsomekey⟩ := hsome
  unfold request
  rw [wp_bind]
  refine (ensures_sortedChunks_listed hreliable hstages (hstages.isDir somekey hsomekey) hat).mono
    ?_ fun _ _ hfalse => hfalse.elim
  rintro _ h' ⟨hat', n, listed, hlisted, hkeys, rfl⟩
  cases hsorted : listed.insertionSort before with
  | nil =>
    rw [hsorted] at hkeys
    exact absurd ((hkeys.mem somekey).mpr hsomekey) List.not_mem_nil
  | cons key rest =>
    have hfirst : First env disk transferId key := ⟨n, listed, rest, hlisted, hsorted⟩
    rw [List.map_cons]
    dsimp only
    by_cases hmatch : matchesChunkName (nameOf key) = true
    · have htotal : totalOf (nameOf key) = .ok (key.2 : ℤ) := totalOf_chunkName
      have hreadable : Readable env disk (stagingDir transferId ++ hashName) (hashPath transferId)
          fileHash := readable_staging (by decide) (by decide) (by decide) hcontent
      rw [if_neg (by simp [hmatch]), htotal, wp_bind, wp_raise_ok, Int.toNat_natCast, if_pos rfl]
      dsimp only
      rw [if_neg (by omega), wp_bind]
      refine (ensures_openRead hreliable hreadable hat').mono ?_ fun _ _ hfalse => hfalse.elim
      rintro _ h₁ ⟨rfl, hat₁⟩
      rw [wp_bind]
      refine (ensures_readAll hreliable hcontent hat₁).mono ?_ fun _ _ hfalse => hfalse.elim
      rintro _ h₂ ⟨rfl, hat₂⟩
      refine (wp_sendChunks hreliable ht hhash 1 key.2 hat₂).mono ?_ ?_
      · rintro _ h₃ ⟨packets, datas, hlength, hsends, hat₃⟩
        exact ⟨key, packets, datas, hfirst, hlength, hsends, hat₃⟩
      · intro _ _ hnot
        exact ⟨key, hfirst, fun hall => hnot hall.2.2⟩
    · rw [if_pos (by simp [hmatch])]
      refine ⟨key, hfirst, fun hall => hmatch ?_⟩
      exact matchesChunkName_chunkName hall.1 hall.2.1

end ClickA.Files
