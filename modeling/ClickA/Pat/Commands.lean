import ClickA.Pat.State

/-!
# Control packets

The commands to the PAT process, and how a control packet is received.

## Main definitions

* `Command`: the commands
* `receivePacketPatControl`: a control packet is copied into a struct
* `atoi`: the number in its data
* `receiveCommand`: the process polls its control socket
-/

namespace ClickA.Pat

open Python (Bytes)
open Cpp

/-! ## Commands -/

/-- The command list. -/
inductive Command
  | startPat
  | startPatOpenLoop
  | startPatStaticPoint
  | startPatBusFeedback
  | startPatOpenLoopBusFeedback
  | updateTxOffsetX
  | updateTxOffsetY
  | endPat
  | getImage
  | calibTest
  | calibLaserTest
  | fsmTest
  | bcnAlign
  | txAlign
  | updateFsmX
  | updateFsmY
  | selfTest
  | endProcess
  | setBeaconX
  | setBeaconY
  | setBeaconWindowSize
  | setBeaconMaxExp
  | setGetImageCenterX
  | setGetImageCenterY
  | setGetImageWindowWidth
  | setGetImageWindowHeight
  | updatePeriodCalculateTxOffset
  | enableDitherTxOffset
  | updatePeriodDitherTxOffset
  | testBusFeedback
deriving DecidableEq, Repr

namespace Command

/-- The commands by their codes, from 0 on. -/
def list : List Command :=
  [startPat, startPatOpenLoop, startPatStaticPoint, startPatBusFeedback,
    startPatOpenLoopBusFeedback, updateTxOffsetX, updateTxOffsetY, endPat, getImage, calibTest,
    calibLaserTest, fsmTest, bcnAlign, txAlign, updateFsmX, updateFsmY, selfTest, endProcess,
    setBeaconX, setBeaconY, setBeaconWindowSize, setBeaconMaxExp, setGetImageCenterX,
    setGetImageCenterY, setGetImageWindowWidth, setGetImageWindowHeight,
    updatePeriodCalculateTxOffset, enableDitherTxOffset, updatePeriodDitherTxOffset,
    testBusFeedback]

/-- The command with a code. -/
def ofCode (code : UInt16) : Option Command := list[code.toNat]?

end Command

/-- `SKIP_CALIB_FLAG`. -/
def skipCalibFlag : ℤ := 0xFFFF

/-- `DO_CALIB_FLAG`. -/
def doCalibFlag : ℤ := 0xAAAA

/-! ## Packets -/

/-- `CMD_PAYLOAD_SIZE`. -/
def cmdPayloadSize : ℕ := 256

/-- `pat_control_packet_struct`. -/
def patControlPacket : List Ty := [.uint 2, .uint 2, .chars cmdPayloadSize]

/-- `receive_packet_pat_control`, of a message: the command and the data. -/
def receivePacketPatControl (garbage : ℕ → UInt8) (message : Bytes) : UInt16 × Bytes :=
  let packet := memcpy (uninitialized garbage (sizeof patControlPacket)) message
  (UInt16.ofNat (loadUint packet (offsetof patControlPacket 0) 2),
    (packet.drop (offsetof patControlPacket 2)).take cmdPayloadSize)

/-- `isspace`. -/
def isSpace (c : UInt8) : Bool := c == 0x20 || 0x09 ≤ c && c ≤ 0x0D

/-- `isdigit`. -/
def isDigit (c : UInt8) : Bool := 0x30 ≤ c && c ≤ 0x39

/-- The number that some digits begin with. -/
def digits (text : Bytes) : ℕ :=
  (text.takeWhile isDigit).foldl (fun n c => 10 * n + (c.toNat - 0x30)) 0

/-- The number that a text begins with, behind white space. -/
def number (text : Bytes) : ℤ :=
  match text.dropWhile isSpace with
  | 0x2D :: text => -digits text
  | 0x2B :: text => digits text
  | text => digits text

/-- `atoi`, which reads a number with `strtol`, where `long` has the 32 bits of `int`. -/
def atoi (text : Bytes) : ℤ := max (-2 ^ 31) (min (number text) (2 ^ 31 - 1))

theorem atoi_of_lt {text : Bytes} (h : (number text).natAbs < 2 ^ 31) :
    atoi text = number text := by
  unfold atoi
  omega

/-- `CMD_PAYLOAD_SIZE` bytes that begin with a text. -/
def payload (text : Bytes) : Bytes := text ++ List.replicate (cmdPayloadSize - text.length) 0

example : atoi (payload [0x34, 0x33, 0x36, 0x39, 0x30]) = doCalibFlag := by decide

/-- A control packet with a code and a text. -/
def controlPacket (code : ℕ) (text : Bytes) : Bytes :=
  Python.leBytes 2 code ++ Python.leBytes 2 cmdPayloadSize ++ payload text

/-- The process polls its control socket, and receives the packet that is there. -/
def receiveCommand (env : Env) : Proc World (Option (UInt16 × Bytes)) := do
  let n := (← get).polls
  modify fun w => { w with polls := w.polls + 1 }
  match env.message n with
  | some message =>
    let packet := receivePacketPatControl (env.garbage n) message
    emit (.command packet.1)
    return some packet
  | none => return none

end ClickA.Pat
