import ClickA.Files.Assembly

/-!
# Answers to an assembly

The packet that answers an assembly has a flag and the reported chunks.

## Main definitions

* `Names`: the payload of a command names a transfer and a file
* `Answers`: a packet answers an assembly

## Main results

* `Answers.inj`: a packet answers in one way
* `answers_of_encode`: the packet of an answer
* `wp_assembleFile`: `assemble_file` answers as its body ends
-/

namespace ClickA.Files

open Python Python.Disk

/-- The payload of a command names a transfer and a file. -/
def Names (raw : Bytes) (transferId : ℕ) (text : Bytes) : Prop :=
  4 ≤ raw.length ∧ ∃ (fileNameLen : ℕ) (fileNamePayload : Bytes),
    unpack (network [.H, .H, .s (raw.length - 4)]) raw =
      .ok [.int transferId, .int fileNameLen, .str fileNamePayload] ∧
    fileNamePayload.take fileNameLen = text

/-- A packet answers an assembly, with a flag and the reported chunks. -/
def Answers (raw : Bytes) (transferId flag : ℕ) (reported : List ℕ) : Prop :=
  ∃ payload, TxPacket.decode raw = .ok (tlmAssembleFile, payload) ∧
    unpack (network ([.H, .B, .H] ++ List.replicate reported.length .H)) payload =
      .ok (.int transferId :: .int flag :: .int reported.length ::
        reported.map fun chunkId : ℕ => .int chunkId)

/-- The bytes of an answer. Proofs about their packet do not compute them. -/
@[irreducible]
def answerBytes (transferId flag : ℕ) (reported : List ℕ) : Bytes :=
  ordered false (leBytes 2 transferId) ++ (leBytes 1 flag ++
    (ordered false (leBytes 2 reported.length) ++
      reported.flatMap fun chunkId => ordered false (leBytes 2 chunkId)))

variable {env : Env} {h : Host} {sent : List Bytes} {transferId flag flag' n : ℕ}
  {reported reported' : List ℕ} {raw payload text : Bytes}

/-! ## Packets -/

theorem packOne_H_network (h : n < 2 ^ 16) :
    packOne false .H (.int n) = .ok (ordered false (leBytes 2 n)) :=
  packInt_natCast h

theorem packOne_B_network (h : n < 2 ^ 8) : packOne false .B (.int n) = .ok (leBytes 1 n) :=
  packInt_natCast h

theorem calcsize_answer (n : ℕ) :
    calcsize (network ([.H, .B, .H] ++ List.replicate n .H)) = 5 + 2 * n := by
  have hend (off : ℕ) : endFrom false off (List.replicate n .H) = off + 2 * n := by
    induction n generalizing off with
    | zero => rfl
    | succ n ih =>
      rw [List.replicate_succ, endFrom_cons (by decide), ih]
      simp [gap, Code.size]
      omega
  unfold calcsize
  show endFrom false _ (List.replicate n .H) = _
  rw [hend]
  rfl

/-- A packet answers in one way. -/
theorem Answers.inj (h : Answers raw transferId flag reported)
    (h' : Answers raw transferId flag' reported') : flag = flag' ∧ reported = reported' := by
  obtain ⟨payload, hdecode, hunpack⟩ := h
  obtain ⟨payload', hdecode', hunpack'⟩ := h'
  rw [hdecode, Except.ok.injEq, Prod.mk.injEq] at hdecode'
  obtain ⟨-, rfl⟩ := hdecode'
  have hlength : reported.length = reported'.length := by
    have hsize := length_of_unpack hunpack
    have hsize' := length_of_unpack hunpack'
    rw [calcsize_answer] at hsize hsize'
    omega
  rw [hlength, hunpack', Except.ok.injEq, List.cons.injEq, List.cons.injEq,
    List.cons.injEq] at hunpack
  obtain ⟨-, hflag, -, hreported⟩ := hunpack
  refine ⟨by simpa using hflag.symm, ?_⟩
  have hinjective : Function.Injective fun chunkId : ℕ => Value.int chunkId := fun a b hab => by
    simpa using hab
  exact (List.map_injective_iff.mpr hinjective hreported).symm

theorem packFrom_reported (hreported : ∀ chunkId ∈ reported, chunkId < 2 ^ 16) (off : ℕ) :
    packFrom false off (List.replicate reported.length .H)
      (reported.map fun chunkId : ℕ => .int chunkId) =
      .ok (reported.flatMap fun chunkId => ordered false (leBytes 2 chunkId)) := by
  induction reported generalizing off with
  | nil => rfl
  | cons chunkId reported ih =>
    rw [List.length_cons, List.replicate_succ, List.map_cons, packFrom_cons (by decide),
      packOne_H_network (hreported chunkId List.mem_cons_self), ok_bind,
      ih fun _ hmem => hreported _ (List.mem_cons_of_mem _ hmem)]
    rfl

theorem pack_answer (ht : transferId < 2 ^ 16) (hflag : flag < 2 ^ 8)
    (hlength : reported.length < 2 ^ 16) (hreported : ∀ chunkId ∈ reported, chunkId < 2 ^ 16) :
    pack (network ([.H, .B, .H] ++ List.replicate reported.length .H))
      (.int transferId :: .int flag :: .int reported.length ::
        reported.map fun chunkId : ℕ => .int chunkId) =
      .ok (answerBytes transferId flag reported) := by
  unfold pack answerBytes
  rw [List.cons_append, List.cons_append, List.cons_append, List.nil_append,
    packFrom_cons (by decide), packFrom_cons (by decide), packFrom_cons (by decide),
    packOne_H_network ht, packOne_B_network hflag, packOne_H_network hlength,
    packFrom_reported hreported]
  rfl

theorem unpack_answer (ht : transferId < 2 ^ 16) (hflag : flag < 2 ^ 8)
    (hlength : reported.length < 2 ^ 16) (hreported : ∀ chunkId ∈ reported, chunkId < 2 ^ 16) :
    unpack (network ([.H, .B, .H] ++ List.replicate reported.length .H))
      (answerBytes transferId flag reported) =
      .ok (.int transferId :: .int flag :: .int reported.length ::
        reported.map fun chunkId : ℕ => .int chunkId) := by
  refine unpack_pack ?_ (pack_answer ht hflag hlength hreported)
  have hnumbers : ∀ reported : List ℕ, List.Forall₂ (Exact false)
      (List.replicate reported.length .H) (reported.map fun chunkId : ℕ => .int chunkId) := by
    intro reported
    induction reported with
    | nil => exact .nil
    | cons chunkId reported ih => exact .cons (exact_int 2 _) ih
  have hcodes : (List.replicate reported.length Code.H).filter (· ≠ .x) =
      List.replicate reported.length .H :=
    List.filter_eq_self.mpr fun c hc => by rw [List.eq_of_mem_replicate hc]; rfl
  rw [List.filter_append, hcodes]
  exact .cons (exact_int 2 _) (.cons (exact_int 1 _) (.cons (exact_int 2 _) (hnumbers reported)))

theorem length_answerBytes :
    (answerBytes transferId flag reported).length = 5 + 2 * reported.length := by
  unfold answerBytes
  rw [List.length_append, List.length_append, List.length_append, length_ordered, length_ordered,
    length_leBytes, length_leBytes, length_leBytes]
  have hreported : (reported.flatMap fun chunkId => ordered false (leBytes 2 chunkId)).length =
      2 * reported.length := by
    induction reported with
    | nil => rfl
    | cons chunkId reported ih =>
      rw [List.flatMap_cons, List.length_append, length_ordered, length_leBytes, ih,
        List.length_cons]
      omega
  omega

/-- The packet of an answer. -/
theorem answers_of_encode (ht : transferId < 2 ^ 16) (hflag : flag < 2 ^ 8)
    (hlength : reported.length < 2 ^ 16) (hreported : ∀ chunkId ∈ reported, chunkId < 2 ^ 16)
    (hencode : TxPacket.encode tlmAssembleFile (answerBytes transferId flag reported) = .ok raw) :
    Answers raw transferId flag reported :=
  ⟨_, TxPacket.decode_encode hencode, unpack_answer ht hflag hlength hreported⟩

/-! ## Responses -/

theorem pack_H_network (h : n < 2 ^ 16) :
    pack (network [.H]) [.int n] = .ok (ordered false (leBytes 2 n)) := by
  unfold pack
  rw [packFrom_cons (by decide), packOne_H_network h]
  simp [packFrom, gap]

theorem pack_B_native (h : n < 2 ^ 8) : pack (native [.B]) [.int n] = .ok (leBytes 1 n) := by
  unfold pack
  rw [packFrom_cons (by decide), packOne_B h]
  simp [packFrom, gap, Code.align]

theorem formatErrResponse_eq (ht : transferId < 2 ^ 16) (hflag : flag < 2 ^ 8)
    (hlength : reported.length < 2 ^ 16) (hreported : ∀ chunkId ∈ reported, chunkId < 2 ^ 16) :
    formatErrResponse transferId flag reported = .ok (answerBytes transferId flag reported) := by
  have hfold : ∀ (reported : List ℕ) (pkt : Bytes), (∀ chunkId ∈ reported, chunkId < 2 ^ 16) →
      reported.foldlM (fun pkt (chunkId : ℕ) => do
        return pkt ++ (← pack (network [.H]) [.int chunkId])) pkt =
      (.ok (pkt ++ reported.flatMap fun chunkId => ordered false (leBytes 2 chunkId)) :
        Except Exn Bytes) := by
    intro reported
    induction reported with
    | nil => simp
    | cons chunkId reported ih =>
      intro pkt hreported
      rw [List.foldlM_cons, pack_H_network (hreported chunkId List.mem_cons_self), ok_bind]
      show List.foldlM _ _ reported = _
      rw [ih _ fun _ hmem => hreported _ (List.mem_cons_of_mem _ hmem), List.flatMap_cons,
        List.append_assoc]
  unfold formatErrResponse
  rw [pack_H_network ht, ok_bind]
  dsimp only
  rw [pack_B_native hflag, ok_bind, pack_H_network hlength, ok_bind, hfold _ _ hreported]
  unfold answerBytes
  simp only [List.append_assoc]

theorem formatSuccessResponse_eq (ht : transferId < 2 ^ 16) :
    formatSuccessResponse transferId = .ok (answerBytes transferId flSuccess []) := by
  have herr : formatErrResponse transferId flSuccess [] =
      .ok (answerBytes transferId flSuccess []) :=
    formatErrResponse_eq ht (by decide) (by decide) fun _ hmem => absurd hmem List.not_mem_nil
  rw [← herr]
  rfl

/-! ## `assemble_file` -/

theorem answer_of_ok {body : EStateM (Err × List ℕ) Host Unit} {h' : Host}
    (hbody : body h = .ok () h') :
    answer env transferId body h = raise (formatSuccessResponse transferId) h' := by
  unfold answer
  rw [hbody]

theorem answer_of_file {body : EStateM (Err × List ℕ) Host Unit} {h' : Host}
    (hbody : body h = .error (.file flag, reported) h') :
    answer env transferId body h = raise (formatErrResponse transferId flag reported) h' := by
  unfold answer
  rw [hbody]

theorem answer_of_raised {body : EStateM (Err × List ℕ) Host Unit} {h' : Host} {e : Exn}
    (hbody : body h = .error (.raised e, reported) h') :
    answer env transferId body h = sendException env (.raised e) h' := by
  unfold answer
  rw [hbody]

/-- `assemble_file` sends the answer that it made. -/
theorem wp_assembleFile {Q : Unit → Host → Prop} {E : Err → Host → Prop}
    (hnames : Names raw transferId text)
    (hbody : Wp (answer env transferId (assemble env transferId text))
      (fun pktData h' => Wp (sendPacket tlmAssembleFile pktData) Q E h')
      (fun e h' => Wp (sendPacket tlmAssembleFile []) (fun _ h'' => E e h'') E h') h) :
    Wp (assembleFile env raw) Q E h := by
  obtain ⟨hlength, fileNameLen, fileNamePayload, hunpack, rfl⟩ := hnames
  unfold assembleFile
  rw [if_neg (Nat.not_lt.mpr hlength), hunpack, wp_bind, wp_raise_ok]
  dsimp only
  rw [wp_bind, wp_tryCatch]
  refine hbody.mono (fun _ _ hq => hq) ?_
  intro e h' hsent
  rw [wp_bind]
  exact hsent

end ClickA.Files
