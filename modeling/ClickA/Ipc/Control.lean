import ClickA.Ipc.FpgaPackets
import ClickA.Python.Decimal

/-!
# Status and control packets

The packets between PAT, the command handlers and housekeeping: heartbeats, the health and the
status of PAT, and the control packets.

## Main definitions

* `HeartbeatPacket`, `PATHealthPacket`, `PATStatusPacket`, `HKControlPacket`, `PATControlPacket`:
  the packets, with `encode` and `decode`

## Main results

* `PATHealthPacket.decode_encode`, `PATStatusPacket.decode_encode`, `HKControlPacket.decode_encode`:
  decoding inverts encoding
* `PATControlPacket.decode_encode`: the low byte of the command is decoded
-/

namespace ClickA

open Python

namespace HeartbeatPacket

/-- `HeartbeatPacket.encode`: who sends it, and when. -/
def encode (origin : ℕ) (tsTxedS : Float) : Except Exn Bytes :=
  pack (native [.I, .f]) [.int origin, .float tsTxedS]

/-- `HeartbeatPacket.decode`. -/
def decode (raw : Bytes) : Except Exn (ℕ × Float) := do
  match ← unpack (native [.I, .f]) raw with
  | [.int origin, .float tsTxedS] => return (origin.toNat, tsTxedS)
  | _ => .error .structError

variable {origin : ℕ} {tsTxedS : Float} {raw : Bytes}

/-- The origin is decoded, and a time. -/
theorem decode_encode (h : encode origin tsTxedS = .ok raw) :
    ∃ time, decode raw = .ok (origin, time) := by
  obtain ⟨horigin, -⟩ := FPGAMapRequestPacket.lt_of_packFrom h
  have hlen : raw.length = calcsize (native [.I, .f]) := length_of_pack h
  obtain ⟨rest, hraw⟩ : ∃ rest, raw = leBytes 4 origin ++ rest := by
    have hpack : packFrom true 0 [.I, .f] [.int origin, .float tsTxedS] = .ok raw := h
    rw [packFrom_cons Code.noConfusion, packOne_I horigin, ok_bind] at hpack
    obtain ⟨rest, -, hpack⟩ := bind_eq_ok.mp hpack
    exact ⟨rest, (Except.ok.inj hpack).symm⟩
  have htake : raw.take 4 = leBytes 4 origin := by
    rw [hraw]
    exact List.take_left' (length_leBytes 4 origin)
  have hnat : leNat (leBytes 4 origin) = origin := leNat_leBytes horigin
  have hfirst : unpackOne true .I (raw.take 4) = .int origin := by
    rw [htake, unpackOne, ordered_native, hnat]
    all_goals simp
  let time := (Float32.ofBits (UInt32.ofNat (leNat ((raw.drop 4).take 4)))).toFloat
  have hunpack : unpack (native [.I, .f]) raw = .ok [.int origin, .float time] := by
    rw [unpack, if_pos hlen, ← hfirst]
    simp [unpackFrom, unpackOne, gap, Code.align, Code.size, ordered, time]
  exact ⟨time, by rw [decode, hunpack]; rfl⟩

end HeartbeatPacket

/-- What `PATHealthPacket.decode` returns. -/
structure PATHealthPacket where
  telemetryString : Bytes
  txBool : Bool
  returnAddr : ℕ
  transmitFlag : ℕ
  size : ℕ
  payload : Bytes
deriving DecidableEq, Repr

namespace PATHealthPacket

/-- `PATHealthPacket.encode`, where `transmit_flag` is `True`. -/
def encode (returnAddr : ℕ) (payload : Bytes) : Except Exn Bytes :=
  pack (native [.I, .I, .I, .s payload.length])
    [.int returnAddr, .int 1, .int payload.length, .str payload]

/-- `PATHealthPacket.decode`: the telemetry string ends at the first line feed. -/
def decode (raw : Bytes) : Except Exn PATHealthPacket := do
  let rawSize := raw.length - 12
  match ← unpack (native [.I, .I, .I, .s rawSize]) raw with
  | [.int returnAddr, .int transmitFlag, .int size, .str payload] =>
    checkAssert (size = rawSize)
    let telemetryString ← index (splitAt 10 payload) 0
    return ⟨telemetryString, transmitFlag == 1, returnAddr.toNat, transmitFlag.toNat, size.toNat,
      payload⟩
  | _ => .error .structError

variable {returnAddr : ℕ} {payload raw : Bytes}

/-- Decoding inverts encoding, with the telemetry string up to the first line feed. -/
theorem decode_encode (h : encode returnAddr payload = .ok raw) : ∃ telemetryString,
    decode raw = .ok ⟨telemetryString, true, returnAddr, 1, payload.length, payload⟩ := by
  have hunpack := unpack_pack (.cons (exact_int 4 _) (.cons (exact_int 4 _) (.cons (exact_int 4 _)
    (.cons (exact_str rfl) .nil)))) h
  have hsize : raw.length - 12 = payload.length := by
    have hcalc : calcsize (native [.I, .I, .I, .s payload.length]) = 12 + payload.length := by
      simp [calcsize, endFrom, gap, Code.align, Code.size]
    rw [length_of_unpack hunpack, hcalc, Nat.add_sub_cancel_left]
  obtain ⟨line, lines, hlines⟩ := List.exists_cons_of_ne_nil (splitAt_ne_nil 10 payload)
  refine ⟨line, ?_⟩
  simp only [decode, hsize, hunpack, ok_bind, checkAssert_of, hlines, index_cons_zero]
  simp

end PATHealthPacket

namespace PATStatusPacket

/-- `PATStatusPacket.encode`. -/
def encode (returnAddr statusFlag : ℕ) : Except Exn Bytes :=
  pack (native [.I, .I]) [.int returnAddr, .int statusFlag]

/-- `PATStatusPacket.decode`: the return address and the status flag. -/
def decode (raw : Bytes) : Except Exn (ℕ × ℕ) := do
  match ← unpack (native [.I, .I]) raw with
  | [.int returnAddr, .int statusFlag] => return (returnAddr.toNat, statusFlag.toNat)
  | _ => .error .structError

variable {returnAddr statusFlag : ℕ} {raw : Bytes}

/-- Decoding inverts encoding. -/
theorem decode_encode (h : encode returnAddr statusFlag = .ok raw) :
    decode raw = .ok (returnAddr, statusFlag) := by
  have hunpack := unpack_pack (.cons (exact_int 4 _) (.cons (exact_int 4 _) .nil)) h
  simp only [decode, hunpack, ok_bind]
  simp

end PATStatusPacket

namespace HKControlPacket

/-- `HKControlPacket.encode`. -/
def encode (origin command : ℕ) (payload : Bytes) : Except Exn Bytes :=
  pack (native [.H, .H, .I, .s payload.length])
    [.int origin, .int command, .int payload.length, .str payload]

/-- `HKControlPacket.decode`: the origin, the command and the payload. -/
def decode (raw : Bytes) : Except Exn (ℕ × ℕ × Bytes) := do
  let rawSize := raw.length - 8
  match ← unpack (native [.H, .H, .I, .s rawSize]) raw with
  | [.int origin, .int command, .int size, .str payload] =>
    checkAssert (size = rawSize)
    return (origin.toNat, command.toNat, payload)
  | _ => .error .structError

variable {origin command : ℕ} {payload raw : Bytes}

/-- Decoding inverts encoding. -/
theorem decode_encode (h : encode origin command payload = .ok raw) :
    decode raw = .ok (origin, command, payload) := by
  have hunpack := unpack_pack (.cons (exact_int 2 _) (.cons (exact_int 2 _) (.cons (exact_int 4 _)
    (.cons (exact_str rfl) .nil)))) h
  have hsize : raw.length - 8 = payload.length := by
    have hcalc : calcsize (native [.H, .H, .I, .s payload.length]) = 8 + payload.length := by
      simp [calcsize, endFrom, gap, Code.align, Code.size]
    rw [length_of_unpack hunpack, hcalc, Nat.add_sub_cancel_left]
  simp only [decode, hsize, hunpack, ok_bind, checkAssert_of]
  simp

end HKControlPacket

namespace PATControlPacket

/-- `GenericControlPacket.encode`. -/
def encode (command : ℕ) (payload : Bytes) : Except Exn Bytes :=
  if payload ≠ [] then
    pack (native [.H, .H, .s payload.length]) [.int command, .int payload.length, .str payload]
  else pack (native [.H, .H]) [.int command, .int payload.length]

/-- The command of a message of one byte stays the tuple that `struct.unpack` returns. -/
inductive Command
  | int (n : ℕ)
  | tuple (n : ℕ)
deriving DecidableEq, Repr

/-- `GenericControlPacket.decode`: the command and the payload. -/
def decode (raw : Bytes) : Except Exn (Command × Bytes) :=
  if raw.length = 1 then do
    match ← unpack (native [.B]) raw with
    | [.int command] => return (.tuple command.toNat, [])
    | _ => .error .structError
  else do
    let rawSize := raw.length - 4
    match ← unpack (native [.B, .x, .H, .s rawSize]) raw with
    | [.int command, .int size, .str payload] =>
      assertThat (size = rawSize)
      return (.int command.toNat, payload)
    | _ => .error .structError

variable {command : ℕ} {payload raw : Bytes}

/-- A command and a size of two bytes each are accepted. -/
theorem encode_eq_ok_iff : encode command payload = .ok raw ↔
    command < 2 ^ 16 ∧ payload.length < 2 ^ 16 ∧
      raw = leBytes 2 command ++ (leBytes 2 payload.length ++ payload) :=
  TxPacket.encode_eq_ok_iff

/-- **The low byte of the command is decoded**: it is packed as two bytes, and the second of them is
skipped. -/
theorem decode_encode (h : encode command payload = .ok raw) :
    decode raw = .ok (.int (command % 256), payload) := by
  obtain ⟨-, hp, rfl⟩ := encode_eq_ok_iff.mp h
  have hlen : (leBytes 2 command ++ (leBytes 2 payload.length ++ payload)).length =
      4 + payload.length := by
    simp only [List.length_append, length_leBytes]
    omega
  have hsize : leNat (leBytes 2 payload.length) = payload.length := leNat_leBytes hp
  have hunpack : unpack (native [.B, .x, .H, .s payload.length])
      (leBytes 2 command ++ (leBytes 2 payload.length ++ payload)) =
        .ok [.int (command % 256 : ℕ), .int payload.length, .str payload] := by
    have hcalc : calcsize (native [.B, .x, .H, .s payload.length]) = 4 + payload.length := by
      simp [calcsize, endFrom, gap, Code.align, Code.size]
    rw [unpack, if_pos (hlen.trans hcalc.symm)]
    simp [unpackFrom, unpackOne, gap, Code.align, Code.size, leBytes] at hsize ⊢
    exact ⟨by simp [leNat], hsize⟩
  rw [decode, if_neg (by omega)]
  simp only [hlen, Nat.add_sub_cancel_left, hunpack, ok_bind, assertThat, if_true,
    Int.toNat_natCast]
  rfl

end PATControlPacket

end ClickA
