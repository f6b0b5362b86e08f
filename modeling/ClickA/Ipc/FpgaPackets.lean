import ClickA.Ipc.Packets

/-!
# FPGA requests and answers

The packets of the clients of the FPGA server, and of its answers.

## Main definitions

* `FPGAMapRequestPacket`, `FPGAMapAnswerPacket`: the packets, with `encode` and `decode`

## Main results

* `FPGAMapRequestPacket.valid_of_decode`: a request that is decoded is well formed
* `FPGAMapRequestPacket.decode_encode`: and what is well formed is sent and decoded
* `FPGAMapAnswerPacket.decode_encode`: what the client reads from an answer
-/

namespace ClickA

open Python Options

/-- A request: `rwFlag` is 0 to read and 1 to write, and `size` counts bytes. -/
structure FPGAMapRequestPacket where
  returnAddr : ℕ
  rqNumber : ℕ
  rwFlag : ℕ
  startAddr : ℕ
  size : ℕ
  writeData : Bytes
deriving DecidableEq, Repr

namespace FPGAMapRequestPacket

/-- The header of a request or an answer. -/
def header (returnAddr rqNumber flags startAddr size : ℕ) : List Value :=
  [.int returnAddr, .int rqNumber, .int flags, .int startAddr, .int size]

/-- `FPGAMapRequestPacket.encode`. A bare `raise` raises `TypeError`. -/
def encode (r : FPGAMapRequestPacket) : Except Exn Bytes :=
  if r.rwFlag = 0 then do
    checkAssert (r.writeData.length = 0)
    pack (native [.I, .B, .B, .H, .I]) (header r.returnAddr r.rqNumber r.rwFlag r.startAddr r.size)
  else if r.rwFlag = 1 then do
    checkAssert (r.writeData.length % 4 = 0)
    checkAssert (r.writeData.length = r.size)
    pack (native [.I, .B, .B, .H, .I, .s r.size])
      (header r.returnAddr r.rqNumber r.rwFlag r.startAddr r.size ++ [.str r.writeData])
  else .error .typeError

/-- The fields of a message. -/
def unpackFields (raw : Bytes) : Except Exn FPGAMapRequestPacket := do
  let rawSize := raw.length - 12
  match ← unpack (native [.I, .B, .B, .H, .I, .s rawSize]) raw with
  | [.int returnAddr, .int rqNumber, .int rwFlag, .int startAddr, .int size, .str writeData] =>
    return ⟨returnAddr.toNat, rqNumber.toNat, rwFlag.toNat, startAddr.toNat, size.toNat, writeData⟩
  | _ => .error .structError

/-- `FPGAMapRequestPacket.decode`. -/
def decode (raw : Bytes) : Except Exn FPGAMapRequestPacket := do
  let r ← unpackFields raw
  let rawSize := raw.length - 12
  if r.rwFlag = 0 then
    checkAssert (rawSize = 0)
    return r
  else if r.rwFlag = 1 then
    checkAssert (rawSize % 4 = 0)
    checkAssert (r.size = rawSize)
    return r
  else .error .typeError

/-- What the fields of a request satisfy. -/
structure Valid (r : FPGAMapRequestPacket) : Prop where
  returnAddr : r.returnAddr < 2 ^ 32
  rqNumber : r.rqNumber < 2 ^ 8
  rwFlag : r.rwFlag = 0 ∨ r.rwFlag = 1
  startAddr : r.startAddr < 2 ^ 16
  size : r.size < 2 ^ 32
  read : r.rwFlag = 0 → r.writeData = []
  write : r.rwFlag = 1 → r.writeData.length = r.size ∧ r.size % 4 = 0

/-- The bytes of a header. -/
def headerBytes (returnAddr rqNumber flags startAddr size : ℕ) : Bytes :=
  leBytes 4 returnAddr ++ (leBytes 1 rqNumber ++ (leBytes 1 flags ++
    (leBytes 2 startAddr ++ leBytes 4 size)))

section Header

variable {returnAddr rqNumber flags startAddr size : ℕ}

theorem pack_header (hra : returnAddr < 2 ^ 32) (hrq : rqNumber < 2 ^ 8) (hfl : flags < 2 ^ 8)
    (hsa : startAddr < 2 ^ 16) (hsize : size < 2 ^ 32) :
    pack (native [.I, .B, .B, .H, .I]) (header returnAddr rqNumber flags startAddr size) =
      .ok (headerBytes returnAddr rqNumber flags startAddr size) := by
  simp [header, headerBytes, pack, packFrom, gap, Code.align, Code.size, packOne_I hra,
    packOne_B hrq, packOne_B hfl, packOne_H hsa, packOne_I hsize]

theorem pack_header_str (hra : returnAddr < 2 ^ 32) (hrq : rqNumber < 2 ^ 8) (hfl : flags < 2 ^ 8)
    (hsa : startAddr < 2 ^ 16) (hsize : size < 2 ^ 32) (data : Bytes) :
    pack (native [.I, .B, .B, .H, .I, .s data.length])
        (header returnAddr rqNumber flags startAddr size ++ [.str data]) =
      .ok (headerBytes returnAddr rqNumber flags startAddr size ++ data) := by
  simp only [header, headerBytes, List.cons_append, List.nil_append, pack, packFrom, gap,
    Code.align, Code.size, packOne_I hra, packOne_B hrq, packOne_B hfl, packOne_H hsa,
    packOne_I hsize]
  simp [packOne]

theorem exact_header_str (data : Bytes) : List.Forall₂ (Exact true)
    ([Code.I, .B, .B, .H, .I, .s data.length].filter (· ≠ .x))
    (header returnAddr rqNumber flags startAddr size ++ [.str data]) :=
  .cons (exact_int 4 _) (.cons (exact_int 1 _) (.cons (exact_int 1 _) (.cons (exact_int 2 _)
    (.cons (exact_int 4 _) (.cons (exact_str rfl) .nil)))))

end Header

variable {r : FPGAMapRequestPacket} {raw : Bytes}

theorem calcsize_fields (n : ℕ) : calcsize (native [.I, .B, .B, .H, .I, .s n]) = 12 + n := by
  simp [calcsize, endFrom, gap, Code.align, Code.size]

/-- The fields of a message of at least 12 bytes. -/
theorem unpackFields_eq (h : 12 ≤ raw.length) : unpackFields raw =
    .ok ⟨leNat (raw.take 4), leNat ((raw.drop 4).take 1), leNat ((raw.drop 5).take 1),
      leNat ((raw.drop 6).take 2), leNat ((raw.drop 8).take 4), raw.drop 12⟩ := by
  have hsize : raw.length = calcsize (native [.I, .B, .B, .H, .I, .s (raw.length - 12)]) := by
    rw [calcsize_fields]
    omega
  have htake : (raw.drop 12).take (raw.length - 12) = raw.drop 12 :=
    List.take_of_length_le (by rw [List.length_drop])
  simp only [unpackFields, unpack, if_pos hsize, ok_bind]
  simp [unpackFrom, unpackOne, gap, Code.align, Code.size, List.drop_drop, htake]

theorem unpackFields_of_lt (h : raw.length < 12) : unpackFields raw = .error .structError := by
  have hsize : raw.length ≠ calcsize (native [.I, .B, .B, .H, .I, .s (raw.length - 12)]) := by
    rw [calcsize_fields]
    omega
  simp only [unpackFields, unpack, if_neg hsize, error_bind]

/-- A request that is decoded is well formed. -/
theorem valid_of_decode (h : decode raw = .ok r) : r.Valid := by
  rcases Nat.lt_or_ge raw.length 12 with hshort | hlen
  · rw [decode, unpackFields_of_lt hshort, error_bind] at h
    exact absurd h (by simp)
  · have hrange (i k : ℕ) : leNat ((raw.drop i).take k) < 256 ^ k :=
      (leNat_lt _).trans_le (Nat.pow_le_pow_right (by decide) (List.length_take_le _ _))
    have hra := hrange 0 4
    have hrq := hrange 4 1
    have hsa := hrange 6 2
    have hsz := hrange 8 4
    simp only [decode, unpackFields_eq hlen, ok_bind] at h
    split at h
    · next hread =>
      by_cases hzero : raw.length - 12 = 0
      · rw [checkAssert_of hzero] at h
        obtain rfl := Except.ok.inj h
        refine ⟨by simpa using hra, by simpa using hrq, .inl hread, by simpa using hsa,
          by simpa using hsz, fun _ => ?_, fun hone => ?_⟩
        · exact List.drop_eq_nil_of_le (Nat.sub_eq_zero_iff_le.mp hzero)
        · exact absurd (hread.symm.trans hone) (by decide)
      · rw [checkAssert_of_not hzero] at h
        simp at h
    · split at h
      · next hwrite =>
        by_cases hmod : (raw.length - 12) % 4 = 0
        · rw [checkAssert_of hmod, ok_bind] at h
          by_cases heq : leNat ((raw.drop 8).take 4) = raw.length - 12
          · rw [checkAssert_of heq] at h
            obtain rfl := Except.ok.inj h
            refine ⟨by simpa using hra, by simpa using hrq, .inr hwrite, by simpa using hsa,
              by simpa using hsz, fun hzero => ?_, fun _ => ⟨?_, ?_⟩⟩
            · exact absurd (hwrite.symm.trans hzero) (by decide)
            · show (raw.drop 12).length = leNat ((raw.drop 8).take 4)
              rw [heq, List.length_drop]
            · show leNat ((raw.drop 8).take 4) % 4 = 0
              rw [heq, hmod]
          · rw [checkAssert_of_not heq] at h
            simp at h
        · rw [checkAssert_of_not hmod] at h
          simp at h
      · simp at h

/-- The bytes of a request. -/
theorem Valid.encode_eq (hv : r.Valid) : encode r =
    .ok (headerBytes r.returnAddr r.rqNumber r.rwFlag r.startAddr r.size ++ r.writeData) := by
  have hfl : r.rwFlag < 2 ^ 8 := by
    have hrw := hv.rwFlag
    omega
  unfold encode
  rcases hv.rwFlag with hread | hwrite
  · rw [if_pos hread, hv.read hread, checkAssert_of List.length_nil, ok_bind, List.append_nil,
      pack_header hv.returnAddr hv.rqNumber hfl hv.startAddr hv.size]
  · obtain ⟨hlen, hmod⟩ := hv.write hwrite
    rw [if_neg (by omega), if_pos hwrite, checkAssert_of (by omega), ok_bind, checkAssert_of hlen,
      ok_bind, ← hlen]
    exact pack_header_str hv.returnAddr hv.rqNumber hfl hv.startAddr (hlen.symm ▸ hv.size) _

/-- A code of integers packs those of its range. -/
theorem lt_of_packFrom {off k n : ℕ} {cs : List Code} {vs : List Value} {raw : Bytes}
    (h : packFrom true off (.uint k :: cs) (.int n :: vs) = .ok raw) :
    n < 256 ^ k ∧ ∃ off' rest, packFrom true off' cs vs = .ok rest := by
  rw [packFrom_cons Code.noConfusion] at h
  obtain ⟨b, hb, h⟩ := bind_eq_ok.mp h
  obtain ⟨rest, hrest, -⟩ := bind_eq_ok.mp h
  refine ⟨?_, _, rest, hrest⟩
  by_contra hle
  rw [packOne, packInt_natCast_of_le (Nat.not_lt.mp hle)] at hb
  exact absurd hb (by simp)

/-- A header that is packed is in range. -/
theorem of_pack_header {returnAddr rqNumber flags startAddr size : ℕ} {cs : List Code}
    {vs : List Value} (h : pack (native ([.I, .B, .B, .H, .I] ++ cs))
      (header returnAddr rqNumber flags startAddr size ++ vs) = .ok raw) :
    returnAddr < 2 ^ 32 ∧ rqNumber < 2 ^ 8 ∧ startAddr < 2 ^ 16 ∧ size < 2 ^ 32 := by
  obtain ⟨hra, _, _, h⟩ := lt_of_packFrom h
  obtain ⟨hrq, _, _, h⟩ := lt_of_packFrom h
  obtain ⟨-, _, _, h⟩ := lt_of_packFrom h
  obtain ⟨hsa, _, _, h⟩ := lt_of_packFrom h
  obtain ⟨hsize, -⟩ := lt_of_packFrom h
  exact ⟨hra, hrq, hsa, hsize⟩

/-- A request that is encoded is well formed. -/
theorem valid_of_encode (h : encode r = .ok raw) : r.Valid := by
  unfold encode at h
  split at h
  · next hread =>
    by_cases hnil : r.writeData.length = 0
    · rw [checkAssert_of hnil, ok_bind] at h
      rw [← List.append_nil (header r.returnAddr _ _ _ _)] at h
      obtain ⟨hra, hrq, hsa, hsize⟩ := of_pack_header h
      refine ⟨hra, hrq, .inl hread, hsa, hsize, fun _ => List.length_eq_zero_iff.mp hnil, ?_⟩
      intro hwrite
      exact absurd (hread.symm.trans hwrite) (by decide)
    · rw [checkAssert_of_not hnil] at h
      exact absurd h (by simp)
  · split at h
    · next hwrite =>
      by_cases hmod : r.writeData.length % 4 = 0
      · rw [checkAssert_of hmod, ok_bind] at h
        by_cases hlen : r.writeData.length = r.size
        · rw [checkAssert_of hlen, ok_bind] at h
          obtain ⟨hra, hrq, hsa, hsize⟩ := of_pack_header h
          refine ⟨hra, hrq, .inr hwrite, hsa, hsize, ?_, fun _ => ⟨hlen, hlen ▸ hmod⟩⟩
          intro hread
          exact absurd (hwrite.symm.trans hread) (by decide)
        · rw [checkAssert_of_not hlen] at h
          exact absurd h (by simp)
      · rw [checkAssert_of_not hmod] at h
        exact absurd h (by simp)
    · exact absurd h (by simp)

/-- Decoding inverts encoding. -/
theorem decode_encode (hv : r.Valid) (h : encode r = .ok raw) : decode raw = .ok r := by
  have hfl : r.rwFlag < 2 ^ 8 := by
    have hrw := hv.rwFlag
    omega
  have hpack := pack_header_str hv.returnAddr hv.rqNumber hfl hv.startAddr hv.size r.writeData
  rw [hv.encode_eq] at h
  obtain rfl := Except.ok.inj h
  have hunpack := unpack_pack (exact_header_str r.writeData) hpack
  have hsize := length_of_unpack hunpack
  rw [calcsize_fields] at hsize
  have hfields : unpackFields (headerBytes r.returnAddr r.rqNumber r.rwFlag r.startAddr r.size ++
      r.writeData) = .ok r := by
    unfold unpackFields
    simp only [hsize, Nat.add_sub_cancel_left, hunpack, ok_bind, header, List.cons_append,
      List.nil_append]
    simp
  unfold decode
  rw [hfields, ok_bind, hsize, Nat.add_sub_cancel_left]
  rcases hv.rwFlag with hread | hwrite
  · rw [if_pos hread, checkAssert_of (by rw [hv.read hread]; rfl)]
    rfl
  · obtain ⟨hlen, hmod⟩ := hv.write hwrite
    rw [if_neg (by omega), if_pos hwrite, checkAssert_of (by omega), ok_bind,
      checkAssert_of hlen.symm]
    rfl

end FPGAMapRequestPacket

/-- An answer, as it is decoded: `error` is one bit. -/
structure FPGAMapAnswerPacket where
  returnAddr : ℕ
  rqNumber : ℕ
  rwFlag : ℕ
  error : ℕ
  startAddr : ℕ
  size : ℕ
  readData : Bytes
deriving DecidableEq, Repr

namespace FPGAMapAnswerPacket

open FPGAMapRequestPacket (header headerBytes pack_header_str exact_header_str calcsize_fields)

/-- `combined_flag`: the direction in the low bit, and the error flag in the next. -/
def combinedFlag (rwFlag errorFlag : ℕ) : ℕ := (rwFlag &&& 0x01) + (errorFlag <<< 1 &&& 0x02)

/-- `FPGAMapAnswerPacket.encode`. -/
def encode (returnAddr rqNumber rwFlag errorFlag startAddr size : ℕ) (readData : Bytes) :
    Except Exn Bytes := do
  assertThat (readData.length = size)
  checkAssert (readData.length % 4 = 0)
  pack (native [.I, .B, .B, .H, .I, .s readData.length])
    (header returnAddr rqNumber (combinedFlag rwFlag errorFlag) startAddr size ++ [.str readData])

/-- `FPGAMapAnswerPacket.decode`. -/
def decode (raw : Bytes) : Except Exn FPGAMapAnswerPacket := do
  let rawSize := raw.length - 12
  match ← unpack (native [.I, .B, .B, .H, .I, .s rawSize]) raw with
  | [.int returnAddr, .int rqNumber, .int flags, .int startAddr, .int size, .str readData] =>
    checkAssert (rawSize % 4 = 0)
    checkAssert (size = rawSize)
    return {
      returnAddr := returnAddr.toNat
      rqNumber := rqNumber.toNat
      rwFlag := flags.toNat &&& 0x01
      error := (flags.toNat &&& 0x02) >>> 1
      startAddr := startAddr.toNat
      size := size.toNat
      readData := readData }
  | _ => .error .structError

variable {returnAddr rqNumber rwFlag errorFlag startAddr : ℕ} {readData raw : Bytes}

/-- Only the parity of the error flag is kept. -/
theorem combinedFlag_eq (rwFlag errorFlag : ℕ) :
    combinedFlag rwFlag errorFlag = rwFlag % 2 + 2 * (errorFlag % 2) := by
  have hrw : rwFlag &&& 0x01 = rwFlag % 2 := Nat.and_one_is_mod rwFlag
  have herr : errorFlag <<< 1 &&& 0x02 = 2 * (errorFlag % 2) := by
    calc errorFlag <<< 1 &&& 1 <<< 1 = (errorFlag &&& 1) <<< 1 := Nat.shiftLeft_and_distrib.symm
      _ = 2 * (errorFlag % 2) := by rw [Nat.and_one_is_mod, Nat.shiftLeft_eq, Nat.mul_comm]
  rw [combinedFlag, hrw, herr]

/-- The bytes of an answer. -/
theorem encode_eq (rwFlag errorFlag : ℕ) (hra : returnAddr < 2 ^ 32) (hrq : rqNumber < 2 ^ 8)
    (hsa : startAddr < 2 ^ 16) (hlen : readData.length < 2 ^ 32) (hmod : readData.length % 4 = 0) :
    encode returnAddr rqNumber rwFlag errorFlag startAddr readData.length readData =
      .ok (headerBytes returnAddr rqNumber (combinedFlag rwFlag errorFlag) startAddr
        readData.length ++ readData) := by
  have hflags : combinedFlag rwFlag errorFlag < 2 ^ 8 := by
    rw [combinedFlag_eq]
    omega
  unfold encode
  rw [assertThat, if_pos rfl, ok_bind, checkAssert_of hmod, ok_bind]
  exact pack_header_str hra hrq hflags hsa hlen readData

/-- **What the client reads from an answer: the error flag's parity, and the rest as it was.** -/
theorem decode_encode (hmod : readData.length % 4 = 0)
    (h : encode returnAddr rqNumber rwFlag errorFlag startAddr readData.length readData = .ok raw) :
    decode raw = .ok ⟨returnAddr, rqNumber, rwFlag % 2, errorFlag % 2, startAddr, readData.length,
      readData⟩ := by
  have hflags := combinedFlag_eq rwFlag errorFlag
  have hrw : combinedFlag rwFlag errorFlag &&& 0x01 = rwFlag % 2 := by
    rw [Nat.and_one_is_mod, hflags]
    omega
  have herr : (combinedFlag rwFlag errorFlag &&& 0x02) >>> 1 = errorFlag % 2 := by
    rw [Nat.shiftRight_and_distrib, Nat.shiftRight_eq_div_pow, hflags]
    show (rwFlag % 2 + 2 * (errorFlag % 2)) / 2 &&& 1 = errorFlag % 2
    rw [Nat.and_one_is_mod]
    omega
  unfold encode at h
  rw [assertThat, if_pos rfl, ok_bind, checkAssert_of hmod, ok_bind] at h
  have hunpack := unpack_pack (exact_header_str readData) h
  have hsize : raw.length - 12 = readData.length := by
    rw [length_of_unpack hunpack, calcsize_fields, Nat.add_sub_cancel_left]
  simp only [decode, hsize, hunpack, ok_bind, header, List.cons_append, List.nil_append,
    checkAssert_of hmod, checkAssert_of]
  simp [hrw, herr]

/-- The fields of an answer that is encoded are in range. -/
theorem of_encode
    (h : encode returnAddr rqNumber rwFlag errorFlag startAddr readData.length readData = .ok raw) :
    returnAddr < 2 ^ 32 ∧ rqNumber < 2 ^ 8 ∧ startAddr < 2 ^ 16 ∧
      raw = headerBytes returnAddr rqNumber (combinedFlag rwFlag errorFlag) startAddr
        readData.length ++ readData := by
  have hsame := h
  unfold encode at hsame
  rw [assertThat, if_pos rfl, ok_bind] at hsame
  by_cases hmod : readData.length % 4 = 0
  · rw [checkAssert_of hmod, ok_bind] at hsame
    obtain ⟨hra, hrq, hsa, hlen⟩ :=
      FPGAMapRequestPacket.of_pack_header hsame
    rw [encode_eq rwFlag errorFlag hra hrq hsa hlen hmod] at h
    exact ⟨hra, hrq, hsa, (Except.ok.inj h).symm⟩
  · rw [checkAssert_of_not hmod] at hsame
    exact absurd hsame (by simp)

/-- An answer that is decoded has a header and its data. -/
theorem length_of_decode {pck : FPGAMapAnswerPacket} (h : decode raw = .ok pck) :
    raw.length = 12 + pck.size := by
  unfold decode at h
  obtain ⟨values, hvalues, h⟩ := bind_eq_ok.mp h
  have hlen := length_of_unpack hvalues
  rw [calcsize_fields] at hlen
  split at h
  · next returnAddr rqNumber flags startAddr size readData =>
    by_cases hmod : (raw.length - 12) % 4 = 0
    · rw [checkAssert_of hmod, ok_bind] at h
      by_cases hsize : size = ((raw.length - 12 : ℕ) : ℤ)
      · rw [checkAssert_of hsize, ok_bind] at h
        obtain rfl := Except.ok.inj h
        show raw.length = 12 + size.toNat
        omega
      · rw [checkAssert_of_not hsize] at h
        exact absurd h (by simp)
    · rw [checkAssert_of_not hmod] at h
      exact absurd h (by simp)
  · exact absurd h (by simp)

end FPGAMapAnswerPacket

end ClickA
