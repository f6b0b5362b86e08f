import ClickA.Fpga.ErrorFlag
import ClickA.Pat.Packets

/-!
# Answers to the PAT process

The server encodes the direction and the error flag of an answer into the two low bits of a byte.
The PAT process reads this byte as a `bool`, which promotes to 0 or 1: the error flag is lost.

## Main definitions

* `FieldsRead`: the fields of an answer are read as they were encoded
* `Finds`: a search takes messages up to the first one that it accepts
* `ErrorSeen`: an error makes the searches return false
* `AnswerFits`: the answer to a request fills the buffer that it is copied into

## Main results

* `checkFpgaMapWriteRequest_of_finds`, `checkFpgaMapValue_of_finds`: the searches return true,
  whatever the error flag
* `answerRead_iff`: answers are read as they were encoded exactly when they have no error
* `answerFits_iff`: the answers to reads fit, those to writes do not
-/

namespace ClickA.Pat

open Python Cpp

/-! ## Fields -/

/-- The fields of an answer are read as they were encoded. -/
structure FieldsRead (returnAddr rqNumber startAddr : ℕ) (readWrite error : Bool)
    (answer : FpgaAnswer) : Prop where
  returnAddress : answer.returnAddress.toNat = returnAddr
  requestNumber : answer.requestNumber.toNat = rqNumber
  rwFlag : answer.rwFlag = readWrite
  errorFlag : answer.errorFlag = error
  startAddress : answer.startAddress.toNat = startAddr

section Fields

variable {returnAddr rqNumber flags startAddr : ℕ} {data raw : Bytes} {garbage : ℕ → UInt8}

/-- The members that begin every answer. -/
def Begins (members : List Ty) : Prop :=
  offsetof members 0 = 0 ∧ offsetof members 1 = 4 ∧ offsetof members 2 = 5 ∧ offsetof members 3 = 6

open FPGAMapRequestPacket (headerBytes header of_pack_header)

/-- The fields of the bytes of an answer. -/
theorem answerFields_header {members : List Ty} {buffer : Bytes} (size : ℕ) (data : Bytes)
    (dataToRead : UInt8) (hmembers : Begins members) (hbuffer : 12 ≤ buffer.length)
    (hra : returnAddr < 2 ^ 32) (hrq : rqNumber < 2 ^ 8) (hfl : flags < 2 ^ 8)
    (hsa : startAddr < 2 ^ 16) :
    answerFields members
        (memcpy buffer (headerBytes returnAddr rqNumber flags startAddr size ++ data)) dataToRead =
      ⟨UInt32.ofNat returnAddr, UInt8.ofNat rqNumber, rwBit (flags != 0), errorBit (flags != 0),
        UInt16.ofNat startAddr, dataToRead⟩ := by
  obtain ⟨h₀, h₁, h₂, h₃⟩ := hmembers
  have hlen : 12 ≤ (headerBytes returnAddr rqNumber flags startAddr size ++ data).length := by
    simp [headerBytes]
    omega
  have hload (l r : Bytes) (off k n : ℕ) (hoff : l.length = off) (hn : n < 256 ^ k)
      (hk : off + k ≤ 12)
      (heq : headerBytes returnAddr rqNumber flags startAddr size ++ data = l ++ leBytes k n ++ r) :
      loadUint (memcpy buffer (headerBytes returnAddr rqNumber flags startAddr size ++ data)) off
          k =
        n := by
    rw [loadUint_memcpy (hk.trans hbuffer) (hk.trans hlen), heq, ← hoff, loadUint_leBytes l r hn]
  have hreturn := hload [] (leBytes 1 rqNumber ++ (leBytes 1 flags ++
    (leBytes 2 startAddr ++ leBytes 4 size)) ++ data) 0 4 returnAddr rfl hra (by simp)
    (by simp [headerBytes])
  have hnumber := hload (leBytes 4 returnAddr) (leBytes 1 flags ++
    (leBytes 2 startAddr ++ leBytes 4 size) ++ data) 4 1 rqNumber (by simp) hrq (by simp)
    (by simp [headerBytes])
  have hflags := hload (leBytes 4 returnAddr ++ leBytes 1 rqNumber)
    (leBytes 2 startAddr ++ leBytes 4 size ++ data) 5 1 flags (by simp) hfl (by simp)
    (by simp [headerBytes])
  have hstart := hload (leBytes 4 returnAddr ++ leBytes 1 rqNumber ++ leBytes 1 flags)
    (leBytes 4 size ++ data) 6 2 startAddr (by simp) hsa (by simp) (by simp [headerBytes])
  unfold answerFields
  rw [h₀, h₁, h₂, h₃, loadBool, hreturn, hnumber, hflags, hstart]

/-- The byte of the flags is 0 only when both flags are. -/
theorem combinedFlag_bne (readWrite error : Bool) :
    (FPGAMapAnswerPacket.combinedFlag readWrite.toNat error.toNat != 0) = (readWrite || error) := by
  rw [FPGAMapAnswerPacket.combinedFlag_eq]
  cases readWrite <;> cases error <;> rfl

theorem rwBit_eq (combinedFlag : Bool) : rwBit combinedFlag = combinedFlag := by
  cases combinedFlag <;> rfl

/-- A `bool` has no second bit. -/
theorem errorBit_eq_false (combinedFlag : Bool) : errorBit combinedFlag = false := by
  cases combinedFlag <;> rfl

/-- **What is read of an answer**: no error, and a write when it was one or had an error. -/
theorem receive_encode {readWrite error : Bool}
    (h : FPGAMapAnswerPacket.encode returnAddr rqNumber readWrite.toNat error.toNat startAddr
      data.length data = .ok raw) (direction : Bool) (garbage : ℕ → UInt8) :
    ∃ dataToRead, receivePacketFpgaMapAnswer direction garbage raw =
      ⟨UInt32.ofNat returnAddr, UInt8.ofNat rqNumber, readWrite || error, false,
        UInt16.ofNat startAddr, dataToRead⟩ := by
  obtain ⟨hra, hrq, hsa, rfl⟩ := FPGAMapAnswerPacket.of_encode h
  have hfl : FPGAMapAnswerPacket.combinedFlag readWrite.toNat error.toNat < 2 ^ 8 := by
    rw [FPGAMapAnswerPacket.combinedFlag_eq]
    omega
  have hfields {members : List Ty} {buffer : Bytes} (dataToRead : UInt8) (hmembers : Begins members)
      (hbuffer : 12 ≤ buffer.length) := by
    have hanswer := answerFields_header data.length data dataToRead hmembers hbuffer hra hrq hfl hsa
    rw [combinedFlag_bne, rwBit_eq, errorBit_eq_false] at hanswer
    exact hanswer
  unfold receivePacketFpgaMapAnswer
  cases direction with
  | true => exact ⟨0, hfields 0 ⟨rfl, rfl, rfl, rfl⟩ (length_uninitialized garbage 12).ge⟩
  | false =>
    refine ⟨_, hfields _ ⟨rfl, rfl, rfl, rfl⟩ ?_⟩
    rw [length_uninitialized]
    decide

/-- The fields of an answer are read as they were encoded exactly when it has no error. -/
theorem fieldsRead_iff {readWrite error : Bool}
    (h : FPGAMapAnswerPacket.encode returnAddr rqNumber readWrite.toNat error.toNat startAddr
      data.length data = .ok raw) :
    FieldsRead returnAddr rqNumber startAddr readWrite error
      (receivePacketFpgaMapAnswer readWrite garbage raw) ↔ error = false := by
  obtain ⟨hra, hrq, hsa, -⟩ := FPGAMapAnswerPacket.of_encode h
  obtain ⟨dataToRead, hreceive⟩ := receive_encode h readWrite garbage
  rw [hreceive]
  constructor
  · exact fun hfields => hfields.errorFlag.symm
  · rintro rfl
    refine ⟨?_, ?_, Bool.or_false readWrite, rfl, ?_⟩
    · exact UInt32.toNat_ofNat_of_lt hra
    · exact UInt8.toNat_ofNat_of_lt hrq
    · exact UInt16.toNat_ofNat_of_lt hsa

end Fields

/-! ## Searches -/

/-- Within some attempts, a search takes messages that it does not accept, and then `raw`, which it
accepts: the states before and after. -/
inductive Finds {σ : Type} (sockets : Sockets σ) (accept : (ℕ → UInt8) → Bytes → Bool)
    (raw : Bytes) : ℕ → σ → σ → Prop
  | here {n : ℕ} {s s' : σ} : sockets.poll s = .ok (some raw) s' →
      accept (sockets.garbage s') raw = true → Finds sockets accept raw (n + 1) s s'
  | later {n : ℕ} {m : Option Bytes} {s s' s'' : σ} : sockets.poll s = .ok m s' →
      (∀ message, m = some message → accept (sockets.garbage s') message = false) →
      Finds sockets accept raw n s' s'' → Finds sockets accept raw (n + 1) s s''

/-- What `check_fpga_map_write_request` accepts. -/
def acceptsWrite (pid : UInt32) (channel : UInt16) (requestNumber : UInt8) (garbage : ℕ → UInt8)
    (message : Bytes) : Bool :=
  (receivePacketFpgaMapAnswer write garbage message).isFor pid requestNumber channel

/-- What `check_fpga_map_value` accepts. -/
def acceptsValue (pid : UInt32) (channel : UInt16) (data requestNumber : UInt8)
    (garbage : ℕ → UInt8) (message : Bytes) : Bool :=
  let answer := receivePacketFpgaMapAnswer read garbage message
  answer.isFor pid requestNumber channel && data == answer.dataToRead

section Search

variable {σ : Type} {sockets : Sockets σ} {raw : Bytes} {s s' s'' : σ}

open Python (bind_of_ok)

/-- A search returns the message that it finds. -/
theorem listen_of_finds {α : Type} {receive : (ℕ → UInt8) → Bytes → α} {accept : α → Bool} {n : ℕ}
    (h : Finds sockets (fun garbage message => accept (receive garbage message)) raw n s s') :
    listen sockets receive accept n s = .ok (some (receive (sockets.garbage s') raw)) s' := by
  induction h with
  | here hpoll haccept =>
    rw [listen, bind_of_ok hpoll]
    dsimp only
    rw [Python.bind_get, if_pos haccept]
    rfl
  | @later n m s s' s'' hpoll hreject _ ih =>
    rw [listen, bind_of_ok hpoll]
    cases m with
    | none => exact ih
    | some message =>
      dsimp only
      rw [Python.bind_get, hreject message rfl]
      exact ih

/-- **A write whose answer is found is confirmed, whatever its error flag.** -/
theorem checkFpgaMapWriteRequest_of_finds {channel : UInt16} {requestNumber : UInt8}
    (h : Finds sockets (acceptsWrite sockets.pid channel requestNumber) raw
      maxFpgaResponseAttempts s s') :
    checkFpgaMapWriteRequest sockets channel requestNumber s = .ok
      (!(receivePacketFpgaMapAnswer write (sockets.garbage s') raw).errorFlag) s' := by
  unfold checkFpgaMapWriteRequest
  rw [bind_of_ok (listen_of_finds h)]
  rfl

theorem checkFpgaMapValue_of_finds {channel : UInt16} {data requestNumber : UInt8}
    (hsend : sockets.send ⟨read, requestNumber, channel, 0⟩ s = .ok () s')
    (h : Finds sockets (acceptsValue sockets.pid channel data requestNumber) raw
      maxFpgaResponseAttempts s' s'') :
    checkFpgaMapValue sockets channel data requestNumber s = .ok
      (!(receivePacketFpgaMapAnswer read (sockets.garbage s'') raw).errorFlag) s'' := by
  unfold checkFpgaMapValue
  refine (bind_of_ok hsend).trans ?_
  exact (bind_of_ok (listen_of_finds h)).trans rfl

end Search

/-! ## Errors -/

/-- The bytes of an answer that fills the buffer it is copied into. -/
structure Encoded (returnAddr rqNumber startAddr : ℕ) (readWrite error : Bool) (data raw : Bytes) :
    Prop where
  encode : FPGAMapAnswerPacket.encode returnAddr rqNumber readWrite.toNat error.toNat startAddr
    data.length data = .ok raw
  fits : raw.length = sizeof (answerBuffer readWrite)

/-- A search that finds an answer with an error returns false. -/
def ErrorSeen (readWrite error : Bool) (raw : Bytes) : Prop :=
  error = true → ∀ (σ : Type) (sockets : Sockets σ) (channel : UInt16) (requestNumber : UInt8),
    (readWrite = write → ∀ s s',
      Finds sockets (acceptsWrite sockets.pid channel requestNumber) raw maxFpgaResponseAttempts
        s s' →
      checkFpgaMapWriteRequest sockets channel requestNumber s = .ok false s') ∧
    (readWrite = read → ∀ data s s' s'',
      sockets.send ⟨read, requestNumber, channel, 0⟩ s = .ok () s' →
      Finds sockets (acceptsValue sockets.pid channel data requestNumber) raw
        maxFpgaResponseAttempts s' s'' →
      checkFpgaMapValue sockets channel data requestNumber s = .ok false s'')

/-- An answer is read as it was encoded, and the searches see its error. -/
def AnswerRead (returnAddr rqNumber startAddr : ℕ) (readWrite error : Bool) (raw : Bytes) : Prop :=
  (∀ garbage, FieldsRead returnAddr rqNumber startAddr readWrite error
    (receivePacketFpgaMapAnswer readWrite garbage raw)) ∧
  ErrorSeen readWrite error raw

section Errors

variable {returnAddr rqNumber startAddr : ℕ} {readWrite error : Bool} {data raw : Bytes}

/-- Sockets that deliver a message, again and again. -/
def repeating (pid : UInt32) (message : Bytes) : Sockets Unit where
  pid := pid
  send := fun _ => return ()
  poll := return some message
  garbage := fun _ _ => 0

/-- The searches return true on an answer with an error. -/
theorem errorSeen_iff (h : Encoded returnAddr rqNumber startAddr readWrite error data raw) :
    ErrorSeen readWrite error raw ↔ error = false := by
  constructor
  · intro hseen
    by_contra herror
    have herror : error = true := by simpa using herror
    let sockets := repeating (UInt32.ofNat returnAddr) raw
    obtain ⟨dataToRead, hreceive⟩ := receive_encode h.encode readWrite (sockets.garbage ())
    obtain ⟨hwrite, hread⟩ := hseen herror Unit sockets (UInt16.ofNat startAddr)
      (UInt8.ofNat rqNumber)
    cases readWrite with
    | true =>
      have hfinds : Finds sockets (acceptsWrite sockets.pid (UInt16.ofNat startAddr)
          (UInt8.ofNat rqNumber)) raw maxFpgaResponseAttempts () () := by
        refine .here (n := 99) rfl ?_
        unfold acceptsWrite FpgaAnswer.isFor
        rw [hreceive]
        simp [sockets, repeating]
      have htrue := checkFpgaMapWriteRequest_of_finds hfinds
      rw [hreceive, hwrite rfl () () hfinds] at htrue
      cases htrue
    | false =>
      have hfinds : Finds sockets (acceptsValue sockets.pid (UInt16.ofNat startAddr) dataToRead
          (UInt8.ofNat rqNumber)) raw maxFpgaResponseAttempts () () := by
        refine .here (n := 99) rfl ?_
        unfold acceptsValue FpgaAnswer.isFor
        rw [hreceive]
        simp [sockets, repeating]
      have hsend : sockets.send ⟨read, UInt8.ofNat rqNumber, UInt16.ofNat startAddr, 0⟩ () =
          .ok () () := rfl
      have htrue := checkFpgaMapValue_of_finds hsend hfinds
      rw [hreceive, hread rfl dataToRead () () () hsend hfinds] at htrue
      cases htrue
  · intro hfalse herror
    rw [hfalse] at herror
    cases herror

/-- **An answer is read as it was encoded exactly when it has no error.** -/
theorem answerRead_iff (h : Encoded returnAddr rqNumber startAddr readWrite error data raw) :
    AnswerRead returnAddr rqNumber startAddr readWrite error raw ↔ error = false := by
  unfold AnswerRead
  rw [errorSeen_iff h]
  constructor
  · exact fun hread => hread.2
  · intro herror
    exact ⟨fun garbage => (fieldsRead_iff h.encode).mpr herror, herror⟩

/-- The answer to a write of the laser diode's calibration register, with an error. -/
def failedWrite : Bytes := [1, 0, 0, 0, 0, 3, 32, 0, 0, 0, 0, 0]

theorem encoded_failedWrite : Encoded 1 0 32 write true [] failedWrite := ⟨by decide, by decide⟩

/-- The answer to a read without an error. -/
theorem answerRead_echo :
    AnswerRead 1 5 10 read false [1, 0, 0, 0, 5, 0, 10, 0, 4, 0, 0, 0, 0, 0, 0, 7] :=
  (answerRead_iff (⟨by decide, by decide⟩ : Encoded 1 5 10 read false [0, 0, 0, 7] _)).mpr rfl

/-- The error of a write is not read. -/
theorem not_answerRead_failedWrite :
    Encoded 1 0 32 write true [] failedWrite ∧ ¬ AnswerRead 1 0 32 write true failedWrite := by
  refine ⟨encoded_failedWrite, ?_⟩
  intro h
  have herror := (h.1 fun _ => 0).errorFlag
  exact absurd herror (by decide)

end Errors

/-! ## Sizes -/

/-- A request, as the server decodes it. -/
def FpgaRequest.packet (pid : UInt32) (request : FpgaRequest) : FPGAMapRequestPacket where
  returnAddr := pid.toNat
  rqNumber := request.requestNum.toNat
  rwFlag := request.readWrite.toNat
  startAddr := request.channel.toNat
  size := fpgaReadSize
  writeData := if request.readWrite = write then [0x00, 0x00, 0x00, request.data] else []

/-- The server answers a request once, with as many bytes as the buffer of the answer has. -/
def AnswerFits (env : Fpga.Env) (w : Fpga.World) (state : Fpga.Loop) (pid : UInt32)
    (request : FpgaRequest) : Prop :=
  Ensures (Fpga.iteration env state (.message (request.message pid)))
    (fun _ w' => ∃ raw, w'.answers = w.answers ++ [raw] ∧
      raw.length = sizeof (answerBuffer request.readWrite)) w

section Sizes

variable {env : Fpga.Env} {w : Fpga.World} {state : Fpga.Loop}

theorem FpgaRequest.valid_packet (pid : UInt32) (request : FpgaRequest) :
    (request.packet pid).Valid := by
  refine ⟨pid.toNat_lt, request.requestNum.toNat_lt, ?_, request.channel.toNat_lt,
    show 4 < 2 ^ 32 by decide, ?_, ?_⟩
  · unfold packet
    cases request.readWrite with
    | true => exact .inr rfl
    | false => exact .inl rfl
  · intro hread
    unfold packet at hread ⊢
    cases hrw : request.readWrite with
    | true =>
      rw [hrw] at hread
      cases hread
    | false => rfl
  · intro hwrite
    unfold packet at hwrite ⊢
    cases hrw : request.readWrite with
    | true => exact ⟨rfl, show 4 % 4 = 0 from rfl⟩
    | false =>
      rw [hrw] at hwrite
      cases hwrite

/-- The bytes of a request are those that the server's own encoder has for it. -/
theorem FpgaRequest.encode_packet (pid : UInt32) (request : FpgaRequest) :
    (request.packet pid).encode = .ok (request.message pid) := by
  rw [(request.valid_packet pid).encode_eq]
  obtain ⟨readWrite, requestNum, channel, data⟩ := request
  unfold packet message header FPGAMapRequestPacket.headerBytes
  cases readWrite with
  | true => simp [image, roundUp, Ty.align, Ty.size, fpgaReadSize, leBytes]
  | false => simp [image, roundUp, Ty.align, Ty.size, fpgaReadSize, leBytes]

theorem FpgaRequest.decode_message (pid : UInt32) (request : FpgaRequest) :
    FPGAMapRequestPacket.decode (request.message pid) = .ok (request.packet pid) :=
  FPGAMapRequestPacket.decode_encode (request.valid_packet pid) (request.encode_packet pid)

/-- The answer to a request of one register of the FPGA has 16 bytes. -/
theorem ensures_iteration_message (pid : UInt32) {request : FpgaRequest}
    (h : request.channel.toNat < 128) :
    Ensures (Fpga.iteration env state (.message (request.message pid)))
      (fun _ w' => ∃ raw, w'.answers = w.answers ++ [raw] ∧ raw.length = 16) w := by
  have hreq := request.valid_packet pid
  have hone : Fpga.registerNumber (request.packet pid) = 1 := by
    show 4 / 4 = 1
    rfl
  have h128 : (request.packet pid).startAddr < 128 := h
  have hend : (request.packet pid).startAddr + Fpga.registerNumber (request.packet pid) ≤ 128 := by
    rw [hone]
    exact h128
  obtain ⟨ns, hvalues, hlen⟩ := Fpga.valuesIn_raw hreq hend
  rw [Ensures, Fpga.wp_iteration_message (request.decode_message pid)]
  refine (Fpga.ensures_serve_raw hreq h128 hend hvalues hlen).imp ?_
  rintro _ w' ⟨answer, encData, rfl, hbytes, hanswer⟩
  refine ⟨answer, rfl, ?_⟩
  rw [FPGAMapAnswerPacket.length_of_decode hanswer]
  show 12 + encData.length = 16
  rw [hbytes, hone]

/-- The answer to a write is copied into 12 bytes. -/
theorem not_answerFits_of_write (pid : UInt32) {request : FpgaRequest}
    (h : request.channel.toNat < 128) (hwrite : request.readWrite = write) :
    ¬ AnswerFits env w state pid request := by
  intro hfits
  obtain ⟨-, w', ⟨raw, hanswers, hlen⟩, raw', hanswers', hlen'⟩ :=
    Ensures.of_allows hfits (ensures_iteration_message pid h).allows
  obtain rfl : raw = raw' :=
    List.singleton_inj.mp (List.append_cancel_left (hanswers.symm.trans hanswers'))
  rw [hwrite, hlen'] at hlen
  exact absurd hlen (by decide)

/-- **The answer fits the buffer exactly when the request is a read**: that to a write has 16 bytes
as well. -/
theorem answerFits_iff (env : Fpga.Env) (w : Fpga.World) (state : Fpga.Loop) (pid : UInt32)
    (request : FpgaRequest) (h : request.channel.toNat < 128) :
    AnswerFits env w state pid request ↔ request.readWrite = read := by
  constructor
  · intro hfits
    cases hrw : request.readWrite with
    | true => exact absurd hfits (not_answerFits_of_write pid h hrw)
    | false => rfl
  · intro hread
    refine (ensures_iteration_message pid h).imp ?_
    rintro _ w' ⟨raw, hanswers, hlen⟩
    refine ⟨raw, hanswers, ?_⟩
    rw [hlen, hread]
    decide

theorem answerFits_frcCh :
    AnswerFits Fpga.ones ⟨[], []⟩ ⟨none, fun _ => none⟩ 1 ⟨read, 0, frcCh, 0⟩ :=
  (answerFits_iff Fpga.ones ⟨[], []⟩ ⟨none, fun _ => none⟩ 1 ⟨read, 0, frcCh, 0⟩ (by decide)).mpr
      rfl

/-- The answer to a write of the calibration laser's register is too long. -/
theorem not_answerFits_calibOn :
    ¬ AnswerFits Fpga.ones ⟨[], []⟩ ⟨none, fun _ => none⟩ 1 ⟨write, 0, 0x20, 0x55⟩ :=
  not_answerFits_of_write 1 (by decide) rfl

end Sizes

end ClickA.Pat
