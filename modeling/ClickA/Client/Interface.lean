import ClickA.Fpga.Codec
import ClickA.Ipc.FpgaPackets
import ClickA.Python.Effect

/-!
# The client of the FPGA server

`FPGAClientInterface` of `ipc_helper.py`. A client sends requests and keeps a future for each of
them in a queue; a wait takes futures from the queue, and for each of them the oldest answer that it
has not read, until it finds its own.

The server answers each request once and in order, after any delay: the answers that are not read
are those of the requests from some place on, and a receive gets the first of them or times out.

## Main definitions

* `Env`: what the answers hold, and which receives get one in time
* `State`: the client, its futures, and what was sent and read
* `readRegAsync`, `writeRegAsync`, `wait`, `readReg`, `writeReg`: the methods of the client
* `retry`, `connect`: the retry loop of the constructor
* `Call`, `run`: the calls of a program, whose exceptions are caught
-/

namespace ClickA.Client

open Python Options Fpga

/-- How a statement fails: a receive fails, or another exception is raised. -/
inductive Fault
  | zmqError
  | raised (e : Exn)
deriving DecidableEq, Repr

/-! ## Answers -/

/-- A message that `Request.answer` sends for a request. -/
def ServerAnswer (req : FPGAMapRequestPacket) (raw : Bytes) : Prop :=
  ∃ data errorFlag encData, encodePayload req.startAddr data = .ok encData ∧
    FPGAMapAnswerPacket.encode req.returnAddr req.rqNumber req.rwFlag errorFlag req.startAddr
      encData.length encData = .ok raw

/-- What the client finds outside: the message that answers the `i`-th request, and whether the
`n`-th receive gets an answer in time. `pid` filters the client's own answers. -/
structure Env where
  pid : ℕ
  pid_lt : pid < 2 ^ 32
  reply : ℕ → FPGAMapRequestPacket → Bytes
  serverAnswer : ∀ i req, req.Valid → ServerAnswer req (reply i req)
  arrives : ℕ → Bool

/-! ## State -/

/-- What a wait returns. -/
inductive RegValue
  | none
  | str (b : Bytes)
  | list (vs : List Value)
  | single (v : Value)

/-- `_Future`. -/
structure Future where
  token : ℕ
  addr : ℕ
  wrFlag : ℕ
  size : ℕ
  value : RegValue := .none
  valid : Bool := false
  timeOut : Bool := false

/-- The client. A future is known by its number, which is that of its request. Of the requests sent,
the answers to the first `read` ones were read, by `receives` receives. -/
structure State where
  token : ℕ
  pending : List ℕ
  futures : List Future
  sent : List FPGAMapRequestPacket
  read : ℕ
  receives : ℕ

/-- A new client. -/
def init : State := ⟨0, [], [], [], 0, 0⟩

/-- A statement of the client. -/
abbrev ClientM := EStateM Fault State

/-- A statement without effects on the client. -/
def pureStatement {α : Type} (x : Except Exn α) : ClientM α :=
  lift (x.mapError .raised)

/-- Some fields of a future are set. -/
def State.update (s : State) (fut : ℕ) (f : Future → Future) : State :=
  { s with futures := s.futures.modify fut f }

/-- The queue is dropped: its futures have timed out. -/
def State.drop (s : State) : State :=
  { s with
    futures := s.pending.foldl (fun futures fut =>
      futures.modify fut fun future => { future with timeOut := true }) s.futures
    pending := [] }

/-! ## Requests -/

/-- `_get_token`. -/
def getToken : ClientM ℕ := do
  modify fun s => { s with token := (s.token + 1) % 255 }
  let s ← get
  return s.token

/-- What is written: an integer, a list of integers, or a string. -/
inductive WriteValue
  | int (n : ℤ)
  | list (ns : List ℤ)
  | str (b : Bytes)

/-- The codes of a type. `str` is no format. -/
def RegisterType.toCodes : RegisterType → Except Exn (List Code)
  | .codes cs => .ok cs
  | .str => .error .structError

/-- The payload of a write. -/
def payload (addr : ℕ) : WriteValue → Except Exn Bytes
  | .int n => do
    let fmt ← (registerType addr).format
    pack fmt [.int n]
  | .list ns => do
    let codes ← (List.range' addr ns.length).mapM fun ad => RegisterType.toCodes (registerType ad)
    pack (native codes.flatten) (ns.map .int)
  | .str b => do
    let lstr ← pack (native [.I]) [.int b.length]
    return lstr ++ padded b

section Client

variable (env : Env)

/-- `_send_request`, and the future of the request. -/
def sendRequest (requestNumber startAddress rwFlag size : ℕ) (data : Bytes) : ClientM ℕ := do
  let req : FPGAMapRequestPacket := ⟨env.pid, requestNumber, rwFlag, startAddress, size, data⟩
  let _ ← pureStatement req.encode
  let s ← get
  let future : Future :=
    { token := requestNumber, addr := startAddress, wrFlag := rwFlag, size := size }
  set { s with
    sent := s.sent ++ [req]
    futures := s.futures ++ [future]
    pending := s.pending ++ [s.futures.length] }
  return s.futures.length

/-- `read_reg_async`. -/
def readRegAsync (addr size : ℕ) : ClientM ℕ := do
  let requestId ← getToken
  sendRequest env requestId addr 0 (size * 4) []

/-- `write_reg_async`. The token is taken before the payload is packed. -/
def writeRegAsync (addr : ℕ) (value : WriteValue) : ClientM ℕ := do
  let requestId ← getToken
  let data ← pureStatement (payload addr value)
  sendRequest env requestId addr 1 data.length data

/-! ## Answers -/

/-- `self.socket_answer.recv`: the oldest answer that is not read, if it is there in time. -/
def recv : ClientM Bytes := do
  let s ← get
  modify fun s => { s with receives := s.receives + 1 }
  match env.arrives s.receives, s.sent[s.read]? with
  | true, some req =>
    modify fun s => { s with read := s.read + 1 }
    return env.reply s.read req
  | _, _ => throw .zmqError

/-- A failed receive drops the queue. -/
def dropOnError {α : Type} (x : ClientM α) : ClientM α := fun s =>
  match x s with
  | .error .zmqError s' => .error .zmqError s'.drop
  | result => result

/-- `_get_packet`. -/
def getPacket : ClientM FPGAMapAnswerPacket := do
  let message ← dropOnError (recv env)
  pureStatement (FPGAMapAnswerPacket.decode message)

/-- `_decode_reg`. -/
def decodeOne (addr : ℕ) (raw : Bytes) : Except Exn Value := do
  let fmt ← (registerType addr).format
  let values ← unpack fmt raw
  index values 0

/-- The values of an answer, four bytes each. -/
def decodeList : ℕ → ℕ → Bytes → Except Exn (List Value)
  | _, 0, _ => .ok []
  | addr, n + 1, raw => do
    let value ← decodeOne addr (raw.take 4)
    let values ← decodeList (addr + 1) n (raw.drop 4)
    return value :: values

/-- `_decode_payload`. -/
def decodePayload (pck : FPGAMapAnswerPacket) : Except Exn RegValue :=
  if pck.size = 0 then .ok .none
  else if registerType pck.startAddr = .str then do
    let lstr ← unpack (native [.I]) (slice pck.readData 0 4)
    match ← index lstr 0 with
    | .int n => return .str (slice pck.readData 4 (n + 4))
    | _ => .error .typeError
  else if pck.size > 4 then do
    let values ← decodeList pck.startAddr (pck.size / 4) pck.readData
    return .list values
  else do
    let value ← decodeOne pck.startAddr pck.readData
    return .single value

/-- A future by its number. -/
def getFuture (fut : ℕ) : ClientM Future := do
  let s ← get
  match s.futures[fut]? with
  | some future => return future
  | none => throw (.raised .nameError)

/-- One round of the loop of `_receive`, for the future that was taken from the queue. -/
def receiveOne (current : ℕ) : ClientM Unit := do
  let pck ← getPacket env
  let future ← getFuture current
  pureStatement do
    checkAssert (pck.startAddr = future.addr)
    checkAssert (pck.rqNumber = future.token)
    checkAssert (pck.rwFlag = future.wrFlag)
    if pck.error ≠ 0 then .error .valueError else .ok ()
  let value ← pureStatement (decodePayload pck)
  modify fun s => s.update current fun future => { future with value := value, valid := true }

/-- The loop of `_receive`, with the queue at its beginning. -/
def receiveFrom (target : ℕ) : List ℕ → ClientM Unit
  | [] => throw (.raised .indexError)
  | current :: pending => do
    modify fun s => { s with pending := pending }
    receiveOne env current
    if current = target then return else receiveFrom target pending

/-- `_receive`. -/
def receive (target : ℕ) : ClientM Unit := do
  let s ← get
  receiveFrom env target s.pending

/-- `_Future.wait`. -/
def wait (fut : ℕ) : ClientM RegValue := do
  let future ← getFuture fut
  if future.valid = false then receive env fut
  let future ← getFuture fut
  return future.value

/-- `wait_all`. -/
def waitAll (futs : List ℕ) : ClientM (List RegValue) := futs.mapM (wait env)

/-- `read_reg`. -/
def readReg (addr size : ℕ) : ClientM RegValue := do
  let future ← readRegAsync env addr size
  wait env future

/-- `write_reg`. -/
def writeReg (addr : ℕ) (value : WriteValue) : ClientM RegValue := do
  let future ← writeRegAsync env addr value
  wait env future

/-! ## The constructor -/

/-- A statement is tried again after a timeout, with the tries that are left. -/
def retry (x : ClientM RegValue) : ℕ → ClientM Unit
  | 0 => throw .zmqError
  | tries + 1 => fun s =>
    match x s with
    | .ok _ s' => .ok () s'
    | .error .zmqError s' => if tries = 0 then .error .zmqError s' else retry x tries s'
    | .error e s' => .error e s'

/-- The check of the constructor that the server is there. -/
def connect : ClientM Unit := retry (writeReg env 127 (.str [])) 50

/-! ## Programs -/

/-- A call of a program that uses the client. -/
inductive Call
  | readRegAsync (addr size : ℕ)
  | writeRegAsync (addr : ℕ) (value : WriteValue)
  | wait (fut : ℕ)

/-- The state after a statement, whose exception is caught. -/
def after {α : Type} (x : ClientM α) (s : State) : State :=
  match x s with
  | .ok _ s' => s'
  | .error _ s' => s'

/-- The state after a call. -/
def step (s : State) : Call → State
  | .readRegAsync addr size => after (readRegAsync env addr size) s
  | .writeRegAsync addr value => after (writeRegAsync env addr value) s
  | .wait fut => after (wait env fut) s

/-- The state after the calls of a program. -/
def run (s : State) (calls : List Call) : State := calls.foldl (step env) s

end Client

end ClickA.Client
