import ClickA.Ipc.Control
import ClickA.Pat.Commands
import Mathlib.Algebra.Order.Group.Abs

/-!
# Single captures

`commandhandler.py`: the command that takes one image. The command handler checks its parameters,
sets the window of PAT with four messages, and has the image taken with a fifth.

## Main definitions

* `sendPatCommand`: `send_pat_command`
* `patStatusIs`: `pat_status_is`
* `Capture`, `Capture.decode`, `Capture.InBounds`: the parameters of a capture, and their bounds
* `Part`, `Capture.message`: the five messages
* `singleCapture`: `CMD_PL_SINGLE_CAPTURE`

## Main results

* `singleCapture_of_accepts`: an accepted command sends the five messages
-/

namespace ClickA.Handler

open Python Options

/-! ## Commands to PAT -/

/-- `str(n)` of an integer. -/
def strInt (n : ℤ) : Bytes := if n < 0 then 0x2D :: str n.natAbs else str n.natAbs

/-- `send_pat_command`, of an ASCII payload: the message that is sent. -/
def sendPatCommand (command : ℕ) (payload : Bytes) : Except Exn Bytes := do
  let cmdPayload := payload ++ [0]
  assertThat (cmdPayload.length ≤ patCmdPayloadSize)
  let cmdPayload := cmdPayload ++ List.replicate (patCmdPayloadSize - cmdPayload.length) 0
  assertThat (cmdPayload.getLast? = some 0)
  PATControlPacket.encode command cmdPayload

/-- `pat_status_list`. -/
def patStatusList : List ℕ :=
  [patStatusCameraInit, patStatusStandby, patStatusStandbyCalibrated,
      patStatusStandbySelfTestPassed,
    patStatusStandbySelfTestFailed, patStatusMain]

/-- `pat_status_is`. -/
def patStatusIs (patStatusFlag patStatusCheck : ℕ) : Bool :=
  if patStatusFlag ∈ patStatusList then patStatusFlag == patStatusCheck else false

/-- PAT is in standby. -/
def inStandby (patStatusFlag : ℕ) : Bool :=
  patStatusIs patStatusFlag patStatusStandby || patStatusIs patStatusFlag
      patStatusStandbyCalibrated ||
    patStatusIs patStatusFlag patStatusStandbySelfTestPassed ||
    patStatusIs patStatusFlag patStatusStandbySelfTestFailed

/-! ## Captures -/

/-- The parameters of a capture. -/
structure Capture where
  windowCtrRelX : ℤ
  windowCtrRelY : ℤ
  windowWidth : ℕ
  windowHeight : ℕ
  expCmd : ℕ
deriving DecidableEq, Repr

/-- A number of 16 bits in two's complement, as `h` unpacks it. -/
def toShort (n : ℤ) : ℤ := if n < 2 ^ 15 then n else n - 2 ^ 16

namespace Capture

/-- `struct.unpack('!hhHHI', payload)`. -/
def decode (payload : Bytes) : Except Exn Capture := do
  match ← unpack (network [.H, .H, .H, .H, .I]) payload with
  | [.int windowCtrRelX, .int windowCtrRelY, .int windowWidth, .int windowHeight, .int expCmd] =>
    return ⟨toShort windowCtrRelX, toShort windowCtrRelY, windowWidth.toNat, windowHeight.toNat,
      expCmd.toNat⟩
  | _ => .error .structError

/-- The bounds that the command handler checks. -/
def InBounds (c : Capture) : Prop :=
  |c.windowCtrRelX| ≤ (cameraWidth / 2 : ℕ) - (c.windowWidth / 2 : ℕ) ∧
    |c.windowCtrRelY| < (cameraHeight / 2 : ℕ) - (c.windowHeight / 2 : ℕ) ∧
    c.windowWidth ≤ cameraWidth ∧ c.windowHeight ≤ cameraHeight ∧
    cameraMinExp ≤ c.expCmd ∧ c.expCmd ≤ cameraMaxExp

instance (c : Capture) : Decidable c.InBounds := inferInstanceAs (Decidable (_ ∧ _))

end Capture

/-- The five messages of a capture. -/
inductive Part
  | width
  | height
  | centerX
  | centerY
  | getImage
deriving DecidableEq, Repr

namespace Part

/-- The messages in their order. -/
def all : List Part := [width, height, centerX, centerY, getImage]

/-- The command of a message. -/
def command : Part → ℕ
  | width => patCmdSetGetImageWindowWidth
  | height => patCmdSetGetImageWindowHeight
  | centerX => patCmdSetGetImageCenterX
  | centerY => patCmdSetGetImageCenterY
  | getImage => patCmdGetImage

end Part

/-- The number in a message. -/
def Capture.value (c : Capture) : Part → ℤ
  | .width => c.windowWidth
  | .height => c.windowHeight
  | .centerX => c.windowCtrRelX
  | .centerY => c.windowCtrRelY
  | .getImage => c.expCmd

/-- A message of a capture. -/
def Capture.message (c : Capture) (part : Part) : Except Exn Bytes :=
  sendPatCommand part.command (strInt (c.value part))

/-- `CMD_PL_SINGLE_CAPTURE`: the messages to PAT. A command is refused that is out of bounds, or
that comes while PAT is not in standby. -/
def singleCapture (patStatusFlag : ℕ) (payload : Bytes) : Except Exn (List Bytes) := do
  let c ← Capture.decode payload
  if inStandby patStatusFlag then
    if c.InBounds then Part.all.mapM c.message else return []
  else return []

/-! ## The messages -/

section Messages

variable {command n : ℕ} {text : Bytes} {z : ℤ} {c : Capture}

theorem length_strInt_le (hz : z.natAbs < 10 ^ 10) : (strInt z).length ≤ 11 := by
  have hlen : (str z.natAbs).length ≤ 10 := (length_str_le_iff (by decide)).mpr hz
  unfold strInt
  split
  · rw [List.length_cons]
    omega
  · omega

/-- What is sent is the control packet with the text. -/
theorem sendPatCommand_eq (hcommand : command < 2 ^ 16) (htext : text.length < patCmdPayloadSize) :
    sendPatCommand command text = .ok (Pat.controlPacket command text) := by
  have hlen : (text ++ [0]).length = text.length + 1 := by simp
  have hpad : text ++ [0] ++ List.replicate (patCmdPayloadSize - (text ++ [0]).length) 0 =
      Pat.payload text := by
    have hcount : Pat.cmdPayloadSize - text.length = patCmdPayloadSize - (text.length + 1) + 1 := by
      have : Pat.cmdPayloadSize = patCmdPayloadSize := rfl
      omega
    rw [Pat.payload, hcount, List.replicate_succ, hlen, List.append_assoc, List.singleton_append]
  have hsize : (Pat.payload text).length = patCmdPayloadSize := by
    have : Pat.cmdPayloadSize = patCmdPayloadSize := rfl
    simp only [Pat.payload, List.length_append, List.length_replicate]
    omega
  have hlast : (Pat.payload text).getLast? = some 0 := by
    have hne : List.replicate (Pat.cmdPayloadSize - text.length) (0 : UInt8) ≠ [] := by
      have : Pat.cmdPayloadSize = patCmdPayloadSize := rfl
      simp only [ne_eq, List.replicate_eq_nil_iff]
      omega
    rw [Pat.payload, List.getLast?_append_of_ne_nil _ hne, List.getLast?_replicate, if_neg]
    simpa using hne
  have hencode : PATControlPacket.encode command (Pat.payload text) =
      .ok (Pat.controlPacket command text) := by
    rw [PATControlPacket.encode_eq_ok_iff]
    refine ⟨hcommand, by rw [hsize]; decide, ?_⟩
    rw [hsize, Pat.controlPacket, List.append_assoc]
    rfl
  rw [sendPatCommand]
  dsimp only
  rw [assertThat, if_pos (by rw [hlen]; omega), ok_bind, hpad, assertThat, if_pos hlast, ok_bind,
    hencode]

/-- PAT receives the command and the text. -/
theorem receivePacketPatControl_controlPacket (garbage : ℕ → UInt8) (hcommand : command < 2 ^ 16)
    (htext : text.length ≤ patCmdPayloadSize) :
    Pat.receivePacketPatControl garbage (Pat.controlPacket command text) =
      (UInt16.ofNat command, Pat.payload text) := by
  have hpayload : (Pat.payload text).length = 256 := by
    have : Pat.cmdPayloadSize = patCmdPayloadSize := rfl
    have : patCmdPayloadSize = 256 := rfl
    simp only [Pat.payload, List.length_append, List.length_replicate]
    omega
  have hlen : (Pat.controlPacket command text).length = 260 := by
    simp [Pat.controlPacket, hpayload]
  have hbuffer : (Cpp.uninitialized garbage (Cpp.sizeof Pat.patControlPacket)).length = 260 := by
    rw [Cpp.length_uninitialized]
    rfl
  have hcopy : Cpp.memcpy (Cpp.uninitialized garbage (Cpp.sizeof Pat.patControlPacket))
      (Pat.controlPacket command text) = Pat.controlPacket command text := by
    rw [Cpp.memcpy, hbuffer, hlen, List.take_of_length_le hlen.le,
      List.drop_eq_nil_of_le hbuffer.le,
      List.append_nil]
  have hcode : Cpp.loadUint (Pat.controlPacket command text) 0 2 = command := by
    rw [Pat.controlPacket, List.append_assoc]
    exact Cpp.loadUint_leBytes [] _ hcommand
  have hdata : ((Pat.controlPacket command text).drop 4).take 256 = Pat.payload text := by
    rw [Pat.controlPacket, List.drop_left' (by simp), List.take_of_length_le hpayload.le]
  rw [Pat.receivePacketPatControl, hcopy]
  exact Prod.ext (congrArg UInt16.ofNat hcode) hdata

theorem digits_str (n : ℕ) (rest : Bytes) (hrest : ∀ b ∈ rest.head?, Pat.isDigit b = false) :
    Pat.digits (str n ++ rest) = n := by
  have hall : ∀ b ∈ str n, Pat.isDigit b = true := fun b hb => isDigit_of_mem_str hb
  have htake : (str n ++ rest).takeWhile Pat.isDigit = str n := by
    rw [List.takeWhile_append_of_pos hall]
    cases rest with
    | nil => simp
    | cons b rest => rw [List.takeWhile_cons_of_neg (by simp [hrest b rfl]), List.append_nil]
  have hfold : (str n).foldl (fun n c => 10 * n + (c.toNat - 0x30)) 0 = digitsToNat (str n) := by
    unfold digitsToNat
    congr 1
    funext n c
    rw [Nat.mul_comm]
  rw [Pat.digits, htake, hfold, digitsToNat_str]

/-- PAT reads the number that was written. -/
theorem number_payload_strInt (z : ℤ) (hz : (strInt z).length < patCmdPayloadSize) :
    Pat.number (Pat.payload (strInt z)) = z := by
  obtain ⟨k, hk⟩ : ∃ k, Pat.cmdPayloadSize - (strInt z).length = k + 1 :=
    Nat.exists_eq_succ_of_ne_zero (Nat.sub_ne_zero_of_lt hz)
  rw [Pat.payload, hk, List.replicate_succ]
  have hdigits (n : ℕ) : Pat.digits (str n ++ 0 :: List.replicate k 0) = n := by
    apply digits_str
    rintro _ ⟨⟩
    rfl
  unfold strInt
  split
  · next hneg =>
    show -(Pat.digits (str z.natAbs ++ 0 :: List.replicate k 0) : ℤ) = z
    rw [hdigits]
    omega
  · next hnonneg =>
    obtain ⟨d, rest, hrest⟩ := List.exists_cons_of_ne_nil (str_ne_nil z.natAbs)
    have hd : Python.isDigit d = true :=
        isDigit_of_mem_str (by rw [hrest]; exact List.mem_cons_self)
    have hspace : Pat.isSpace d = false := by
      have hnot := not_isSpace_of_isDigit hd
      simpa [Pat.isSpace, Python.isSpace] using hnot
    have hvalue : Pat.number (str z.natAbs ++ 0 :: List.replicate k 0) =
        Pat.digits (str z.natAbs ++ 0 :: List.replicate k 0) := by
      rw [Pat.number, hrest, List.cons_append, List.dropWhile_cons_of_neg (by simp [hspace])]
      split
      · next heq =>
        obtain ⟨rfl, -⟩ := List.cons.inj heq
        exact absurd hd (by decide)
      · next heq =>
        obtain ⟨rfl, -⟩ := List.cons.inj heq
        exact absurd hd (by decide)
      · rfl
    rw [hvalue, hdigits]
    omega

theorem length_strInt_lt (hz : z.natAbs < 2 ^ 31) : (strInt z).length < patCmdPayloadSize :=
  lt_of_le_of_lt (length_strInt_le (by omega)) (by decide)

theorem atoi_payload_strInt (hz : z.natAbs < 2 ^ 31) :
    Pat.atoi (Pat.payload (strInt z)) = z := by
  have hnumber := number_payload_strInt z (length_strInt_lt hz)
  rw [Pat.atoi_of_lt (by rwa [hnumber]), hnumber]

theorem Capture.InBounds.natAbs_value (hbounds : c.InBounds) (part : Part) :
    (c.value part).natAbs < 2 ^ 31 := by
  obtain ⟨hx, hy, hwidth, hheight, -, hexp⟩ := hbounds
  simp only [cameraWidth, cameraHeight, cameraMaxExp] at hx hy hwidth hheight hexp
  rw [abs_le] at hx
  rw [abs_lt] at hy
  cases part <;> simp only [Capture.value] <;> omega

theorem Capture.InBounds.length_text (hbounds : c.InBounds) (part : Part) :
    (strInt (c.value part)).length < patCmdPayloadSize :=
  length_strInt_lt (hbounds.natAbs_value part)

theorem Part.command_lt (part : Part) : part.command < 2 ^ 16 := by
  cases part <;> decide

/-- The message is sent. -/
theorem Capture.message_eq (hbounds : c.InBounds) (part : Part) :
    c.message part = .ok (Pat.controlPacket part.command (strInt (c.value part))) :=
  sendPatCommand_eq part.command_lt (hbounds.length_text part)

/-- An accepted command sends the five messages, in their order. -/
theorem singleCapture_of_accepts {patStatusFlag : ℕ} {payload : Bytes}
    (hdecode : Capture.decode payload = .ok c) (hstandby : inStandby patStatusFlag = true)
    (hbounds : c.InBounds) :
    singleCapture patStatusFlag payload =
      .ok (Part.all.map fun part => Pat.controlPacket part.command (strInt (c.value part))) := by
  rw [singleCapture, hdecode, ok_bind, if_pos hstandby, if_pos hbounds]
  simp only [Part.all, List.mapM_cons, List.mapM_nil, c.message_eq hbounds, ok_bind, pure_eq_ok,
    List.map_cons, List.map_nil]

end Messages

end ClickA.Handler
