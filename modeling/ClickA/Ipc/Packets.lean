import ClickA.Python.Struct
import ClickA.Options

/-!
# IPC packets

The packets the processes of the payload exchange over ZeroMQ, as `ipc_packets.py` lays them out:
a native `struct` header followed by the payload.

## Main definitions

* `TxPacket`, `RxCommandPacket`: telemetry to the bus, and commands from the bus

## Main results

* `TxPacket.encode_eq`, `RxCommandPacket.encode_eq`: the bytes of a packet
* `TxPacket.decode_encode`, `RxCommandPacket.decode_encode`: decoding inverts encoding
-/

namespace ClickA

open Python Options

/-- An assertion under `CHECK_ASSERTS`. -/
def checkAssert (p : Prop) [Decidable p] : Except Exn Unit :=
  if checkAsserts then assertThat p else .ok ()

@[simp] theorem checkAssert_of {p : Prop} [Decidable p] (h : p) : checkAssert p = .ok () := by
  simp [checkAssert, checkAsserts, assertThat, h]

@[simp] theorem checkAssert_of_not {p : Prop} [Decidable p] (h : ¬ p) :
    checkAssert p = .error .assertionError := by
  simp [checkAssert, checkAsserts, assertThat, h]

theorem of_checkAssert {p : Prop} [Decidable p] {u : Unit} (h : checkAssert p = .ok u) : p := by
  by_contra hne
  rw [checkAssert_of_not hne] at h
  cases h

/-! ## Packing headers

An `H` or `I` takes a number of its range and refuses the others, wherever it stands. -/

section Header

variable {n : ℕ}

theorem packOne_H (h : n < 2 ^ 16) : packOne true .H (.int n) = .ok (leBytes 2 n) :=
  packInt_natCast h

theorem packOne_H_of_le (h : 2 ^ 16 ≤ n) : packOne true .H (.int n) = .error .structError :=
  packInt_natCast_of_le h

theorem packOne_I (h : n < 2 ^ 32) : packOne true .I (.int n) = .ok (leBytes 4 n) :=
  packInt_natCast h

theorem packOne_B (h : n < 2 ^ 8) : packOne true .B (.int n) = .ok (leBytes 1 n) :=
  packInt_natCast h

theorem pack_HH {a n : ℕ} (ha : a < 2 ^ 16) (hn : n < 2 ^ 16) :
    pack (native [.H, .H]) [.int a, .int n] = .ok (leBytes 2 a ++ leBytes 2 n) := by
  simp [pack, packFrom, gap, Code.align, Code.size, packOne_H ha, packOne_H hn]

theorem pack_HHs {a n : ℕ} {p : Bytes} (ha : a < 2 ^ 16) (hn : n < 2 ^ 16) (hp : p.length = n) :
    pack (native [.H, .H, .s n]) [.int a, .int n, .str p] =
      .ok (leBytes 2 a ++ (leBytes 2 n ++ p)) := by
  simp only [pack, packFrom, gap, Code.align, Code.size, packOne_H ha, packOne_H hn]
  simp [packOne, ← hp]

end Header

namespace TxPacket

/-- `TxPacket.encode`: a packet to be transmitted to the bus. -/
def encode (apid : ℕ) (payload : Bytes) : Except Exn Bytes :=
  if payload ≠ [] then
    pack (native [.H, .H, .s payload.length]) [.int apid, .int payload.length, .str payload]
  else pack (native [.H, .H]) [.int apid, .int payload.length]

/-- `TxPacket.decode`: the APID and the payload. -/
def decode (raw : Bytes) : Except Exn (ℕ × Bytes) := do
  let rawSize := raw.length - 4
  match ← unpack (native [.H, .H, .s rawSize]) raw with
  | [.int apid, .int size, .str payload] =>
    checkAssert (size = rawSize)
    return (apid.toNat, payload)
  | _ => .error .structError

variable {apid : ℕ} {payload raw : Bytes}

theorem encode_eq (ha : apid < 2 ^ 16) (hp : payload.length < 2 ^ 16) :
    encode apid payload = .ok (leBytes 2 apid ++ (leBytes 2 payload.length ++ payload)) := by
  by_cases hne : payload = []
  · rw [encode, if_neg (by simpa using hne), pack_HH ha hp, hne, List.append_nil]
  · rw [encode, if_pos hne, pack_HHs ha hp rfl]

/-- The APID and the size field hold 16 bits. -/
theorem encode_of_not (h : ¬ (apid < 2 ^ 16 ∧ payload.length < 2 ^ 16)) :
    encode apid payload = .error .structError := by
  have hfst : apid < 2 ^ 16 → 2 ^ 16 ≤ payload.length :=
      fun ha => Nat.le_of_not_lt fun hp => h ⟨ha, hp⟩
  simp only [encode, pack]
  rcases Nat.lt_or_ge apid (2 ^ 16) with ha | ha
  · split <;> simp only [packFrom, packOne_H ha, packOne_H_of_le (hfst ha), ok_bind, error_bind]
  · split <;> simp only [packFrom, packOne_H_of_le ha, error_bind]

theorem encode_eq_ok_iff : encode apid payload = .ok raw ↔
    apid < 2 ^ 16 ∧ payload.length < 2 ^ 16 ∧
      raw = leBytes 2 apid ++ (leBytes 2 payload.length ++ payload) := by
  by_cases h : apid < 2 ^ 16 ∧ payload.length < 2 ^ 16
  · rw [encode_eq h.1 h.2, Except.ok.injEq, and_iff_right h.1, and_iff_right h.2, eq_comm]
  · rw [encode_of_not h]
    simpa using fun ha hp => absurd ⟨ha, hp⟩ h

/-- Decoding inverts encoding. -/
theorem decode_encode (h : encode apid payload = .ok raw) : decode raw = .ok (apid, payload) := by
  obtain ⟨ha, hp, rfl⟩ := encode_eq_ok_iff.mp h
  have hsize : (leBytes 2 apid ++ (leBytes 2 payload.length ++ payload)).length - 4 =
      payload.length := by simp; omega
  have hu := unpack_pack (.cons (exact_int 2 _) (.cons (exact_int 2 _)
      (.cons (exact_str rfl) .nil)))
    (pack_HHs ha hp rfl)
  simp only [decode, hsize, hu, ok_bind, checkAssert_of]
  simp

end TxPacket

namespace RxCommandPacket

/-- `RxCommandPacket.encode`: a command received from the bus. -/
def encode (apid tsTxedS tsTxedMs : ℕ) (payload : Bytes) : Except Exn Bytes :=
  let size := payload.length
  if size > 0 then
    pack (native ([.H, .H, .I, .I] ++ List.replicate size .B))
      ([.int apid, .int size, .int tsTxedS, .int tsTxedMs] ++ payload.map fun b => .int b.toNat)
  else pack (native [.H, .H, .I, .I]) [.int apid, .int size, .int tsTxedS, .int tsTxedMs]

/-- `RxCommandPacket.decode`: the APID, the timestamps and the payload. -/
def decode (raw : Bytes) : Except Exn (ℕ × ℕ × ℕ × Bytes) := do
  let headerSize := 12
  match ← unpack (native [.H, .H, .I, .I]) (raw.take headerSize) with
  | [.int apid, .int size, .int tsTxedS, .int tsTxedMs] =>
    let payload := raw.drop headerSize
    checkAssert (size = (raw.length : ℤ) - headerSize)
    return (apid.toNat, tsTxedS.toNat, tsTxedMs.toNat, payload)
  | _ => .error .structError

/-- The header of a command packet. -/
def header (apid size tsTxedS tsTxedMs : ℕ) : Bytes :=
  leBytes 2 apid ++ (leBytes 2 size ++ (leBytes 4 tsTxedS ++ leBytes 4 tsTxedMs))

@[simp] theorem length_header (apid size s ms : ℕ) : (header apid size s ms).length = 12 := by
  simp [header]

variable {apid s ms n : ℕ} {payload raw : Bytes}

theorem pack_header (ha : apid < 2 ^ 16) (hn : n < 2 ^ 16) (hs : s < 2 ^ 32) (hms : ms < 2 ^ 32) :
    pack (native [.H, .H, .I, .I]) [.int apid, .int n, .int s, .int ms] =
      .ok (header apid n s ms) := by
  simp [pack, packFrom, gap, Code.align, Code.size, packOne_H ha, packOne_H hn, packOne_I hs,
    packOne_I hms, header]

theorem encode_eq (ha : apid < 2 ^ 16) (hp : payload.length < 2 ^ 16) (hs : s < 2 ^ 32)
    (hms : ms < 2 ^ 32) :
    encode apid s ms payload = .ok (header apid payload.length s ms ++ payload) := by
  by_cases hne : payload.length > 0
  · simp only [encode, if_pos hne, pack, List.cons_append, List.nil_append]
    simp only [packFrom, gap, Code.align, Code.size, packOne_H ha, packOne_H hp, packOne_I hs,
      packOne_I hms, packFrom_bytes, ok_bind]
    simp [header]
  · rw [encode, if_neg hne, pack_header ha hp hs hms,
      List.length_eq_zero_iff.mp (Nat.eq_zero_of_not_pos hne), List.append_nil]

/-- Decoding inverts encoding. -/
theorem decode_encode (ha : apid < 2 ^ 16) (hp : payload.length < 2 ^ 16) (hs : s < 2 ^ 32)
    (hms : ms < 2 ^ 32) (h : encode apid s ms payload = .ok raw) :
    decode raw = .ok (apid, s, ms, payload) := by
  rw [encode_eq ha hp hs hms] at h
  obtain rfl := Except.ok.inj h
  have hu := unpack_pack (.cons (exact_int 2 _) (.cons (exact_int 2 _) (.cons (exact_int 4 _)
    (.cons (exact_int 4 _) .nil)))) (pack_header ha hp hs hms)
  simp only [decode, List.take_left' (length_header ..), List.drop_left' (length_header ..), hu,
    ok_bind]
  simp

/-- The size field limits the payload. -/
theorem length_lt_of_decode (h : decode raw = .ok (apid, s, ms, payload)) :
    payload.length < 2 ^ 16 := by
  unfold decode at h
  obtain ⟨values, hunpack, h⟩ := bind_eq_ok.mp h
  have hlength := length_of_unpack hunpack
  unfold unpack at hunpack
  rw [if_pos hlength] at hunpack
  obtain rfl := Except.ok.inj hunpack
  have hsize : leNat (ordered true (((raw.take 12).drop 2).take 2)) < 256 ^ 2 := by
    refine lt_of_lt_of_le (leNat_lt _) (Nat.pow_le_pow_right (by decide) ?_)
    rw [length_ordered]
    exact List.length_take_le _ _
  obtain ⟨_, hassert, h⟩ := bind_eq_ok.mp h
  have hfits : (leNat (ordered true (((raw.take 12).drop 2).take 2)) : ℤ) =
      (raw.length : ℤ) - 12 := of_checkAssert hassert
  simp only [pure_eq_ok, Except.ok.injEq, Prod.mk.injEq] at h
  obtain ⟨-, -, -, rfl⟩ := h
  rw [List.length_drop]
  omega

end RxCommandPacket

end ClickA
