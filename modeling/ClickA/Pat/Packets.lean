import ClickA.Cpp.Struct
import ClickA.Python.Effect

/-!
# Packets of the PAT process

`packetdef.cpp`: the requests that the PAT process sends to the FPGA server, and how it looks
through the answers for the one it waits for.

## Main definitions

* `FpgaRequest.message`: `send_packet_fpga_map_request`
* `receivePacketFpgaMapAnswer`: an answer is copied into a struct, and its fields are read
* `Sockets`: the sockets to the server
* `checkFpgaMapWriteRequest`, `checkFpgaMapValue`, `checkFpgaComms`, `getTemperature`: the searches
-/

namespace ClickA.Pat

open Python (Bytes leBytes)
open Cpp

/-- `FRC_CH`: the channel of the communication test. -/
def frcCh : UInt16 := 0x35

/-- `MAX_FPGA_RESPONSE_ATTEMPTS`: how often the answer socket is polled. -/
def maxFpgaResponseAttempts : ℕ := 100

/-- `WRITE`. -/
abbrev write : Bool := true

/-- `READ`. -/
abbrev read : Bool := false

/-- `BUFFER_SIZE`. -/
def bufferSize : ℕ := 256

/-- `FPGA_READ_SIZE`. -/
def fpgaReadSize : ℕ := 4

/-! ## Requests -/

/-- The arguments of `send_packet_fpga_map_request`. The data of a read are not sent. -/
structure FpgaRequest where
  readWrite : Bool
  requestNum : UInt8
  channel : UInt16
  data : UInt8 := 0
deriving DecidableEq, Repr

/-- The members of a request up to `data_size`. -/
def FpgaRequest.header (pid : UInt32) (request : FpgaRequest) : List (Ty × Bytes) :=
  [(.uint 4, leBytes 4 pid.toNat), (.uint 1, [request.requestNum]),
    (.bool, [if request.readWrite then 1 else 0]), (.uint 2, leBytes 2 request.channel.toNat),
    (.uint 4, leBytes 4 fpgaReadSize)]

/-- `send_packet_fpga_map_request`: `fpga_request_write_packet_struct` or
`fpga_request_read_packet_struct`, as bytes. -/
def FpgaRequest.message (pid : UInt32) (request : FpgaRequest) : Bytes :=
  if request.readWrite = write then
    image 0 (request.header pid ++ [(.chars 4, [0x00, 0x00, 0x00, request.data])])
  else image 0 (request.header pid)

/-! ## Answers -/

/-- `fpga_answer_write_packet_struct`. -/
def fpgaAnswerWritePacket : List Ty := [.uint 4, .uint 1, .bool, .uint 2, .uint 4]

/-- `fpga_answer_read_packet_struct`. -/
def fpgaAnswerReadPacket : List Ty :=
  [.uint 4, .uint 1, .bool, .uint 2, .uint 4, .chars fpgaReadSize]

/-- `fpga_answer_temperature_struct`. -/
def fpgaAnswerTemperature : List Ty := [.uint 4, .uint 1, .bool, .uint 2, .uint 4, .float]

/-- `fpga_answer_struct`. -/
structure FpgaAnswer where
  returnAddress : UInt32
  requestNumber : UInt8
  rwFlag : Bool
  errorFlag : Bool
  startAddress : UInt16
  dataToRead : UInt8
deriving DecidableEq, Repr

/-- The direction, `combined_flag & 0x01`. The operand is a `bool`. -/
def rwBit (combinedFlag : Bool) : Bool := combinedFlag.toNat &&& 0x01 != 0

/-- The error flag, `(combined_flag & 0x02) >> 1`. -/
def errorBit (combinedFlag : Bool) : Bool := (combinedFlag.toNat &&& 0x02) >>> 1 != 0

/-- The fields of a struct that begins as the answers do. -/
def answerFields (members : List Ty) (packet : Bytes) (dataToRead : UInt8) : FpgaAnswer :=
  let combinedFlag := loadBool packet (offsetof members 2)
  { returnAddress := UInt32.ofNat (loadUint packet (offsetof members 0) 4)
    requestNumber := UInt8.ofNat (loadUint packet (offsetof members 1) 1)
    rwFlag := rwBit combinedFlag
    errorFlag := errorBit combinedFlag
    startAddress := UInt16.ofNat (loadUint packet (offsetof members 3) 2)
    dataToRead := dataToRead }

/-- `receive_packet_fpga_map_answer`, of a message. `garbage` is what the buffer holds before. -/
def receivePacketFpgaMapAnswer (readWrite : Bool) (garbage : ℕ → UInt8) (message : Bytes) :
    FpgaAnswer :=
  if readWrite = write then
    let packet := memcpy (uninitialized garbage (sizeof fpgaAnswerWritePacket)) message
    answerFields fpgaAnswerWritePacket packet 0
  else
    let packet := memcpy (uninitialized garbage (sizeof fpgaAnswerReadPacket)) message
    answerFields fpgaAnswerReadPacket packet
      (UInt8.ofNat (loadUint packet (offsetof fpgaAnswerReadPacket 5 + 3) 1))

/-- The buffer that an answer is copied into. -/
def answerBuffer (readWrite : Bool) : List Ty :=
  if readWrite = write then fpgaAnswerWritePacket else fpgaAnswerReadPacket

/-! ## Sockets -/

/-- A statement of the process, on a state `σ`. -/
abbrev Proc (σ : Type) := EStateM Empty σ

/-- The state behind a statement of the process. -/
def Proc.after {σ α : Type} (x : Proc σ α) (s : σ) : σ :=
  match x s with
  | .ok _ s' => s'
  | .error e _ => nomatch e

/-- What a statement ensures holds of the state behind it. -/
theorem Proc.after_of_ensures {σ α : Type} {Q : σ → Prop} {x : Proc σ α} {s : σ}
    (h : Python.Ensures x (fun _ s' => Q s') s) : Q (x.after s) := by
  obtain ⟨_, s', hs', hq⟩ := Python.ensures_iff.mp h
  unfold Proc.after
  rw [hs']
  exact hq

/-- The sockets to the FPGA server: `poll` waits for a message and takes it, if there is one in
time, and `garbage` is what is on the stack when a message is copied. -/
structure Sockets (σ : Type) where
  pid : UInt32
  send : FpgaRequest → Proc σ Unit
  poll : Proc σ (Option Bytes)
  garbage : σ → ℕ → UInt8

section Check

variable {σ : Type} (sockets : Sockets σ)

/-- The loop over the answers: the first one that is accepted. -/
def listen {α : Type} (receive : (ℕ → UInt8) → Bytes → α) (accept : α → Bool) :
    ℕ → Proc σ (Option α)
  | 0 => return none
  | attempts + 1 => do
    match ← sockets.poll with
    | some message =>
      let s ← get
      let answer := receive (sockets.garbage s) message
      if accept answer then return some answer
      else listen receive accept attempts
    | none => listen receive accept attempts

/-- An answer is for this process, and to a request with a number and a channel. -/
def FpgaAnswer.isFor (answer : FpgaAnswer) (pid : UInt32) (requestNumber : UInt8)
    (channel : UInt16) : Bool :=
  pid == answer.returnAddress && requestNumber == answer.requestNumber &&
    channel == answer.startAddress

/-- `check_fpga_map_write_request`. -/
def checkFpgaMapWriteRequest (channel : UInt16) (requestNumber : UInt8) : Proc σ Bool := do
  let answer ← listen sockets (receivePacketFpgaMapAnswer write)
    (fun answer => answer.isFor sockets.pid requestNumber channel) maxFpgaResponseAttempts
  return answer.any (!·.errorFlag)

/-- `check_fpga_map_value`. -/
def checkFpgaMapValue (channel : UInt16) (data : UInt8) (requestNumber : UInt8) : Proc σ Bool := do
  sockets.send ⟨read, requestNumber, channel, 0⟩
  let answer ← listen sockets (receivePacketFpgaMapAnswer read)
    (fun answer => answer.isFor sockets.pid requestNumber channel && data == answer.dataToRead)
    maxFpgaResponseAttempts
  return answer.any (!·.errorFlag)

/-- `check_fpga_comms`. -/
def checkFpgaComms : Proc σ Bool := do
  sockets.send ⟨read, 0, frcCh, 0⟩
  let answer ← listen sockets (receivePacketFpgaMapAnswer read)
    (fun answer => answer.isFor sockets.pid 0 frcCh) maxFpgaResponseAttempts
  return answer.any (!·.errorFlag)

/-- The struct of a temperature, with the four bytes of its `float`. -/
def receiveTemperature (garbage : ℕ → UInt8) (message : Bytes) : FpgaAnswer × ℕ :=
  let packet := memcpy (uninitialized garbage (sizeof fpgaAnswerTemperature)) message
  (answerFields fpgaAnswerTemperature packet 0,
    loadUint packet (offsetof fpgaAnswerTemperature 5) 4)

/-- `get_temperature`: the bytes of the temperature, if it returns true. -/
def getTemperature (channel : UInt16) (requestNumber : UInt8) : Proc σ (Option ℕ) := do
  sockets.send ⟨read, requestNumber, channel, 0⟩
  let answer ← listen sockets receiveTemperature
    (fun answer => answer.1.isFor sockets.pid requestNumber channel) maxFpgaResponseAttempts
  return (answer.filter (!·.1.errorFlag)).map Prod.snd

end Check

end ClickA.Pat
