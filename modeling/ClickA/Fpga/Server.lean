import ClickA.Fpga.Codec
import ClickA.Fpga.Dac
import ClickA.Fpga.Edfa
import ClickA.Ipc.FpgaPackets

/-!
# The FPGA server

The loop of `fpga.py`: it receives a request for a range of registers, reads or writes them, and
answers with their values. Strings of the EDFA, registers of the FPGA and virtual registers are
served apart. The pauses of the loop are left out: they only let time pass.

## Main definitions

* `answer`: `Request.answer`
* `virtualReg`, `telemReg`: one virtual register, and one of the telemetry packet
* `serve`, `iteration`: what the loop does with a request, and one iteration

## Main results

* `ensures_answer`: an answer that can be encoded is sent, and decoded by the client
-/

namespace ClickA.Fpga

open Python Options

/-! ## Answers -/

/-- `Request.answer`. -/
def answer (req : FPGAMapRequestPacket) (data : Payload) (errorFlag : ℕ) : Server Unit := do
  let encData ← lift (encodePayload req.startAddr data)
  let raw ← lift (FPGAMapAnswerPacket.encode req.returnAddr req.rqNumber req.rwFlag errorFlag
    req.startAddr encData.length encData)
  modify fun world => { world with answers := world.answers ++ [raw] }

section Answer

/-- The answer to a request: what the client decodes from it. -/
def Answers (req : FPGAMapRequestPacket) (errorFlag : ℕ) (encData raw : Bytes) : Prop :=
  FPGAMapAnswerPacket.decode raw = .ok ⟨req.returnAddr, req.rqNumber, req.rwFlag, errorFlag % 2,
    req.startAddr, encData.length, encData⟩

/-- **Data that can be encoded is sent, and decoded by the client.** -/
theorem ensures_answer {req : FPGAMapRequestPacket} {data : Payload} {encData : Bytes}
    (hreq : req.Valid) (h : encodePayload req.startAddr data = .ok encData)
    (hlen : encData.length < 2 ^ 32) (errorFlag : ℕ) (w : World) :
    Ensures (answer req data errorFlag) (fun _ w' => ∃ raw, w' =
      { w with answers := w.answers ++ [raw] } ∧ Answers req errorFlag encData raw) w := by
  have hmod := length_encodePayload_mod h
  have hencode := FPGAMapAnswerPacket.encode_eq req.rwFlag errorFlag hreq.returnAddr hreq.rqNumber
    hreq.startAddr hlen hmod
  have hdecode := FPGAMapAnswerPacket.decode_encode hmod hencode
  have hrw : req.rwFlag % 2 = req.rwFlag := by
    rcases hreq.rwFlag with hread | hwrite
    · rw [hread]
    · rw [hwrite]
  rw [hrw] at hdecode
  unfold answer
  rw [h, Ensures, wp_bind, wp_lift_ok, hencode, wp_bind, wp_lift_ok, wp_modify]
  exact ⟨_, rfl, hdecode⟩

/-- Data that cannot be encoded raises. -/
theorem raises_answer {req : FPGAMapRequestPacket} {data : Payload}
    (h : ¬ ∃ encData, encodePayload req.startAddr data = .ok encData) (errorFlag : ℕ) (w : World) :
    Raises (answer req data errorFlag) w := (raises_lift h).bind

/-- An answer is at most one message. -/
theorem allows_answer (req : FPGAMapRequestPacket) (data : Payload) (errorFlag : ℕ) (w : World) :
    Allows (answer req data errorFlag)
      (fun _ w' => w'.answers.length = w.answers.length + 1) w := by
  unfold answer
  cases h : encodePayload req.startAddr data with
  | error e => trivial
  | ok encData =>
    rw [Allows, wp_bind, wp_lift_ok, wp_bind]
    cases hraw : FPGAMapAnswerPacket.encode req.returnAddr req.rqNumber req.rwFlag errorFlag
        req.startAddr encData.length encData with
    | error e => trivial
    | ok raw =>
      rw [wp_lift_ok, wp_modify]
      exact List.length_append

end Answer

/-! ## Requests -/

/-- The number of registers of a request. -/
def registerNumber (req : FPGAMapRequestPacket) : ℕ := req.size / 4

/-- The addresses of a request. -/
def addresses (req : FPGAMapRequestPacket) : List ℕ :=
  List.range' req.startAddr (registerNumber req)

/-- `values_in`. -/
def valuesIn (req : FPGAMapRequestPacket) : Except Exn (List Value) :=
  if req.rwFlag ≠ 0 ∧ registerNumber req ≠ 0 then decodeRegs (addresses req) req.writeData
  else .ok (List.replicate (registerNumber req) (.int 0))

/-- The operand of a bit operation. -/
def bits : Value → Except Exn ℕ
  | .int n => .ok n.toNat
  | _ => .error .typeError

/-- `reg_buffer[addr]`. -/
def buffered (regs : Edfa.Regs) (addr : ℕ) : Except Exn Value :=
  match regs addr with
  | some value => .ok value
  | none => .error .keyError

/-! ## Virtual registers -/

section Virtual

variable (env : Env)

/-- The branch of a temperature. -/
def temperature (addr : ℕ) : Server Value := do
  let msb ← readReg env (byte1 addr)
  let lsb ← readReg env (byte2 addr)
  let temp ← lift (decodeTemperature msb lsb)
  return .float temp

/-- The branch of a current. -/
def current (addr : ℕ) : Server Value := do
  let msb ← readReg env (byte3 addr)
  let lsb ← readReg env (byte4 addr)
  return .float (decodeCurrent msb lsb)

/-- The branch of a DAC channel: it is written if the request writes, and its value is that of the
request. -/
def dacChannel (req : FPGAMapRequestPacket) (addr : ℕ) (value : Value) : Server Value := do
  if req.rwFlag ≠ 0 then
    let command ← lift (bits value)
    Dac.writeAndUpdate env (addr - dac1A) command
  return value

/-- The state of the EDFA, parsed into the register buffer. -/
def updateEdfa (regs : Edfa.Regs) : Server Edfa.Regs := do
  let fline ← Edfa.fline env
  lift (Edfa.parse regs (split fline))

/-- The value of one register of the telemetry packet. -/
def telemReg (req : FPGAMapRequestPacket) (value : Value) (regs : Edfa.Regs) (addr : ℕ) :
    Server Value :=
  if addr ∈ temperatureBlock then temperature env addr
  else if addr ∈ currentBlock then current env addr
  else if addr ∈ dacBlock then dacChannel env req addr value
  else if addr ∉ edfaParsedBlock then do
    let result ← transfer env [addr] [req.rwFlag] [.int 0]
    let read ← lift (index result.2 0)
    return .int read.toNat
  else lift (buffered regs addr)

/-- The values of the telemetry packet. -/
def telemRegs (req : FPGAMapRequestPacket) (value : Value) (regs : Edfa.Regs) :
    Server (List Value) :=
  fpgaTelemRegs.foldlM (fun valuesOut addr => do
    let out ← telemReg env req value regs addr
    return valuesOut ++ [out]) []

/-- The branch of `DAC_RESET`. -/
def resetDacs (value : ℕ) : Server Unit := do
  let isPor := (value &&& 0b0100) >>> 2
  let refEn := (value &&& 0b1000) >>> 3
  if value &&& 0b01 ≠ 0 then
    Dac.reset env 1 isPor
    Dac.setReference env 1 isPor
  if value &&& 0b10 ≠ 0 then Dac.reset env 2 refEn

/-- One register of the loop over virtual registers, with `values_out` and `reg_buffer` so far. An
unknown register is answered at once. -/
def virtualReg (req : FPGAMapRequestPacket) (acc : List Value × Edfa.Regs) (reg : ℕ × Value) :
    Server (List Value × Edfa.Regs) := do
  let (valuesOut, regs) := acc
  let (addr, value) := reg
  if addr ∈ temperatureBlock then
    let temp ← temperature env addr
    return (valuesOut ++ [temp], regs)
  else if addr ∈ currentBlock then
    let temp ← current env addr
    return (valuesOut ++ [temp], regs)
  else if addr ∈ edfaParsedBlock then
    let out ← lift (buffered regs addr)
    return (valuesOut ++ [out], regs)
  else if addr = dacSetup then
    let target ← lift (bits value)
    Dac.init env target
    return (valuesOut, regs)
  else if addr = dacEnable then
    let mask ← lift (bits value)
    Dac.setOutputMode env mask
    return (valuesOut, regs)
  else if addr = dacReset then
    let value ← lift (bits value)
    resetDacs env value
    return (valuesOut, regs)
  else if addr ∈ dacBlock then
    let out ← dacChannel env req addr value
    return (valuesOut ++ [out], regs)
  else if addr = fpgaTelem then
    let regs ← updateEdfa env regs
    let valuesOut ← telemRegs env req value regs
    return (valuesOut, regs)
  else
    answer req (.str []) 1
    return (valuesOut, regs)

end Virtual

/-! ## The loop -/

/-- What the loop keeps between its iterations: the last request, and the register buffer. -/
structure Loop where
  req : Option FPGAMapRequestPacket
  regBuffer : Edfa.Regs

/-- `last_edfa_update`, which is never set again. -/
def lastEdfaUpdate : Float := 0

/-- `EDFA_VIRTUAL_REGS_GOOD_FOR`. -/
def edfaVirtualRegsGoodFor : Float := 0.5

/-- How a receive fails: with a timeout, or otherwise. -/
inductive ZmqErrno
  | eagain
  | other
deriving DecidableEq, Repr

/-- What the request socket delivers. -/
inductive Received
  | message (raw : Bytes)
  | error (errno : ZmqErrno)

section Serve

variable (env : Env)

/-- The branch of `EDFA_IN_STR`. -/
def serveInStr (req : FPGAMapRequestPacket) : Server Unit := do
  Edfa.resetFifo env
  lift (checkAssert (req.size > 3))
  let lenStr ← lift (unpack (native [.I]) (slice req.writeData 0 4))
  let lenStr ← lift (index lenStr 0 >>= bits)
  lift (checkAssert (req.size ≥ lenStr + 4))
  let valuesIn := slice req.writeData 4 (4 + lenStr)
  let errorFlag ← Edfa.writeString env valuesIn
  answer req (.str []) errorFlag.toNat

/-- The branch of `EDFA_OUT_STR`. -/
def serveOutStr (req : FPGAMapRequestPacket) : Server Unit := do
  let (error, edfaOutStr) ← Edfa.readString env
  answer req (.str edfaOutStr) error

/-- The branch of the registers of the FPGA. -/
def serveRaw (req : FPGAMapRequestPacket) (values : List Value) : Server Unit := do
  let writeFlag := List.replicate (registerNumber req) req.rwFlag
  let (errors, valuesOut) ← transfer env (addresses req) writeFlag values
  let errorFlag := errors.count true
  answer req (.list (valuesOut.map fun b => .int b.toNat)) errorFlag

/-- The register buffer, updated for a request of registers of the EDFA unless it is good still. -/
def refreshEdfa (req : FPGAMapRequestPacket) (regs : Edfa.Regs) : Server Edfa.Regs :=
  if (addresses req).any (· ∈ edfaParsedBlock) then do
    let world ← get
    if env.clock world.xfers.length - lastEdfaUpdate > edfaVirtualRegsGoodFor then
      updateEdfa env regs
    else return regs
  else return regs

/-- The branch of the virtual registers, with the register buffer before and after. -/
def serveVirtual (req : FPGAMapRequestPacket) (values : List Value) (regs : Edfa.Regs) :
    Server Edfa.Regs := do
  let regs ← refreshEdfa env req regs
  let (valuesOut, regs) ← ((addresses req).zip values).foldlM (virtualReg env req) ([], regs)
  answer req (.list valuesOut) 0
  return regs

/-- What the loop does with a request: the register buffer after it. -/
def serve (req : FPGAMapRequestPacket) (regs : Edfa.Regs) : Server Edfa.Regs :=
  if req.startAddr = edfaInStr then do
    serveInStr env req
    return regs
  else if req.startAddr = edfaOutStr then do
    serveOutStr env req
    return regs
  else do
    let values ← lift (valuesIn req)
    if req.startAddr < 128 then
      serveRaw env req values
      return regs
    else serveVirtual env req values regs

/-- One iteration. After an error other than a timeout the last request is served again. -/
def iteration (state : Loop) : Received → Server Loop
  | .message raw => do
    let req ← lift (FPGAMapRequestPacket.decode raw)
    let regs ← serve env req state.regBuffer
    return ⟨some req, regs⟩
  | .error .eagain => return state
  | .error .other =>
    match state.req with
    | some req => do
      let regs ← serve env req state.regBuffer
      return ⟨some req, regs⟩
    | none => throw .nameError

end Serve

end ClickA.Fpga
