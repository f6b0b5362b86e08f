import ClickA.Bus.Depacketizer

/-!
# The echo of the bus

`echo.py` reads bus packets as the depacketizer does, and writes each one back with another APID and
a new CRC. The packet is changed in place: in the shortest packets, whose length field is 0, the CRC
overlaps the low byte of the length field.

## Main definitions

* `Echoer`: the process, with the bytes it has not read and the frames it has written
* `acquireBusPkt`, `echoPkt`: reading a packet, and writing it back
* `ReadBack`: a frame is read back as a packet with the same data

## Main results

* `acquireBusPkt_eq`: the packets that are accepted
* `echoPkt_eq`: the frame that is written
* `readBack_iff`: when it is read back
-/

namespace ClickA.Bus

open Python Stream

/-- The bytes of the device that are not read, the buffer, and what was written. -/
structure Echoer where
  spi : Bytes
  busPktsBuffer : List Bytes
  written : List Bytes
deriving DecidableEq, Repr

namespace Echoer

open Depacketizer

/-- A fresh process, with a device that delivers the given bytes. -/
def init (spi : Bytes) : Echoer := ⟨spi, [], []⟩

/-- `acquire_bus_pkt`. -/
def acquireBusPkt (e : Echoer) : Except Stop Echoer := do
  let spi ← awaitSync e.spi
  let (buf, spi) ← readData ccsdsHeaderLen spi
  let hi ← raising (byteAt buf pktLenIndex)
  let lo ← raising (byteAt buf (pktLenIndex + 1))
  -- `+` binds stronger than `|`
  let pktLen := hi <<< 8 ||| lo + 1
  let (pkt, spi) ← readData pktLen spi
  let buf := buf ++ pkt
  let crcIndex := ccsdsHeaderLen + pktLen - 2
  let crcHi ← raising (byteAt buf crcIndex)
  let crcLo ← raising (byteAt buf (crcIndex + 1))
  let e := { e with spi := spi }
  if crcHi <<< 8 ||| crcLo = crc16CcittFalse (slice buf 0 crcIndex) then
    return { e with busPktsBuffer := e.busPktsBuffer ++ [buf] }
  else return e

/-- `echo_pkt`: the first packet of the buffer is changed in place, and written. -/
def echoPkt (e : Echoer) : Except Exn Echoer :=
  match e.busPktsBuffer with
  | [] => .ok e
  | buf :: pkts => do
    let buf ← setIndex buf 0 0x3
    let buf ← setIndex buf 1 0xFF
    let crcIndex := buf.length - 2
    let crcNew := crc16CcittFalse (slice buf 0 crcIndex)
    let buf ← setIndex buf crcIndex (UInt8.ofNat (crcNew >>> 8))
    let buf ← setIndex buf (crcIndex + 1) (UInt8.ofNat (crcNew &&& 0xFF))
    return { e with busPktsBuffer := buf :: pkts, written := e.written ++ [ccsdsSync ++ buf] }

/-! ## Reading -/

/-- A packet is the bytes after the first marker, up to the length read; it is kept if its CRC is
right. -/
theorem acquireBusPkt_eq (e : Echoer) : e.acquireBusPkt = match nextPacket e.spi with
    | none => .error .blocked
    | some (p, rest) =>
      .ok { e with
        spi := rest
        busPktsBuffer := e.busPktsBuffer ++ if CrcValid p then [p] else [] } := by
  unfold acquireBusPkt
  cases hnext : nextPacket e.spi with
  | none =>
    rcases blocks_of_nextPacket hnext with hsync | ⟨l, hsync, hheader | ⟨buf, l', hheader, h6,
      hbody⟩⟩
    · rw [hsync, error_bind]
    · rw [hsync, ok_bind, hheader, error_bind]
    · obtain ⟨hhi, hlo, hlen⟩ := pktLen_read h6
      simp only [hsync, hheader, ok_bind, hhi, hlo, raising_ok, hlen, hbody, error_bind]
  | some next =>
    obtain ⟨p, rest⟩ := next
    obtain ⟨l, l', hsync, hheader, hbody⟩ := reads_of_nextPacket hnext
    obtain ⟨-, -, -, hp⟩ := nextPacket_eq_some_iff.mp hnext
    obtain ⟨hhi, hlo, hlen⟩ := pktLen_read (List.length_take_of_le hp.lt_length.le)
    obtain ⟨hindex, hcrcHi, hcrcLo, hcrc⟩ := crc_read hp
    simp only [hsync, hheader, ok_bind, hhi, hlo, raising_ok, hlen, hbody, List.take_append_drop,
      hindex, hcrcHi, hcrcLo, hcrc, pure_eq_ok]
    by_cases hc : CrcValid p
    · rw [if_pos hc, if_pos hc]
    · rw [if_neg hc, if_neg hc, List.append_nil]

/-- The packets that a fresh process accepts. -/
theorem acquireBusPkt_init_iff {stream rest p : Bytes} :
    (init stream).acquireBusPkt = .ok ⟨rest, [p], []⟩ ↔
      nextPacket stream = some (p, rest) ∧ CrcValid p := by
  rw [acquireBusPkt_eq]
  show (match nextPacket stream with
    | none => Except.error Stop.blocked
    | some (p, rest) =>
      Except.ok (Echoer.mk rest ([] ++ if CrcValid p then [p] else []) [])) = _ ↔ _
  cases nextPacket stream with
  | none => simp
  | some next =>
    obtain ⟨q, rest'⟩ := next
    dsimp only
    by_cases hc : CrcValid q
    · rw [if_pos hc]
      constructor
      · intro h
        injection h with h
        injection h with hrest hq
        obtain rfl := List.singleton_injective hq
        exact ⟨by rw [hrest], hc⟩
      · rintro ⟨h, -⟩
        obtain ⟨rfl, rfl⟩ := Prod.mk.inj (Option.some.inj h)
        rfl
    · rw [if_neg hc]
      constructor
      · intro h
        injection h with h
        injection h with hrest hq
        cases hq
      · rintro ⟨h, hp⟩
        obtain ⟨rfl, rfl⟩ := Prod.mk.inj (Option.some.inj h)
        exact absurd hp hc

/-! ## Writing -/

/-- The packet with the new APID, without its CRC. -/
def echoBody (p : Bytes) : Bytes := 0x3 :: 0xFF :: (p.take (p.length - 2)).drop 2

/-- The packet that is written. -/
def echoed (p : Bytes) : Bytes := echoBody p ++ be16 (crc16CcittFalse (echoBody p))

section Echoed

variable {p : Bytes}

theorem set_header (h : 2 ≤ p.length) : (p.set 0 0x3).set 1 0xFF = 0x3 :: 0xFF :: p.drop 2 := by
  match p, h with
  | _ :: _ :: p, _ => rfl

/-- The last two elements of a list are replaced. -/
theorem set_last {l : Bytes} {n : ℕ} (h : l.length = n + 2) (a b : UInt8) :
    (l.set n a).set (n + 1) b = l.take n ++ [a, b] := by
  obtain ⟨q, c, d, rfl⟩ : ∃ q c d, l = q ++ [c, d] := by
    have hdrop : (l.drop n).length = 2 := by
      rw [List.length_drop]
      omega
    obtain ⟨c, d, hcd⟩ := List.length_eq_two.mp hdrop
    exact ⟨l.take n, c, d, by rw [← hcd, List.take_append_drop]⟩
  obtain rfl : q.length = n := by simpa using h
  simp

theorem length_echoBody (h : 4 ≤ p.length) : (echoBody p).length = p.length - 2 := by
  simp only [echoBody, List.length_cons, List.length_drop, List.length_take]
  omega

theorem length_echoed (h : 4 ≤ p.length) : (echoed p).length = p.length := by
  rw [echoed, List.length_append, length_echoBody h, length_be16]
  omega

theorem echoBody_eq_take (h : 4 ≤ p.length) :
    (0x3 :: 0xFF :: p.drop 2 : Bytes).take (p.length - 2) = echoBody p := by
  obtain ⟨n, hn⟩ := Nat.exists_eq_add_of_le h
  have hlen : p.length - 2 = (p.length - 4) + 2 := by omega
  have hdrop : p.length - 4 = p.length - 2 - 2 := by omega
  rw [echoBody, List.drop_take, ← hdrop, hlen]
  rfl

/-- The frame that is written. -/
theorem echoPkt_eq (spi : Bytes) (h : 4 ≤ p.length) :
    (Echoer.mk spi [p] []).echoPkt = .ok ⟨spi, [echoed p], [ccsdsSync ++ echoed p]⟩ := by
  have hheader := set_header (show 2 ≤ p.length by omega)
  have hlen : (0x3 :: 0xFF :: p.drop 2 : Bytes).length = p.length := by
    simp only [List.length_cons, List.length_drop]
    omega
  have hhi (n : ℕ) : UInt8.ofNat (n >>> 8) = UInt8.ofNat (n / 256) := by
    rw [Nat.shiftRight_eq_div_pow]
  have hlo (n : ℕ) : UInt8.ofNat (n &&& 0xFF) = UInt8.ofNat n := by
    rw [show 0xFF = 2 ^ 8 - 1 from rfl, Nat.and_two_pow_sub_one_eq_mod]
    exact UInt8.ofNat_mod_size
  unfold echoPkt
  dsimp only
  rw [setIndex_of_lt (by omega), ok_bind, setIndex_of_lt (by rw [List.length_set]; omega), ok_bind,
    hheader, hlen, setIndex_of_lt (by omega), ok_bind,
    setIndex_of_lt (by rw [List.length_set]; omega), ok_bind,
    set_last (show _ = p.length - 2 + 2 by omega), slice_zero, echoBody_eq_take h, hhi, hlo]
  rfl

end Echoed

/-! ## Reading back -/

/-- The packet has the APID of the echo, and the other bytes of `p` but the CRC. -/
structure SameData (p q : Bytes) : Prop where
  apid : octet q 0 % 8 * 256 + octet q 1 = 0x3FF
  length : q.length = p.length
  header : (q.take ccsdsHeaderLen).drop 2 = (p.take ccsdsHeaderLen).drop 2
  data : (q.take (q.length - 2)).drop 2 = (p.take (p.length - 2)).drop 2

/-- A frame is read by a fresh process, which takes no more than it and finds the data of `p`. -/
def ReadBack (p frame : Bytes) : Prop :=
  ∀ tail, ∃ q, (init (frame ++ tail)).acquireBusPkt = .ok ⟨tail, [q], []⟩ ∧ SameData p q

section ReadBack

variable {p : Bytes}

/-- A fresh process reads a frame as what it is, if the length field says so. -/
theorem nextPacket_frame (q tail : Bytes) (h : Framed q) :
    nextPacket (ccsdsSync ++ q ++ tail) = some (q, tail) :=
  nextPacket_eq_some_iff.mpr ⟨ccsdsSync, List.append_assoc _ _ _, firstEnd_self _, h⟩

/-- A packet is read back exactly when its length field still says its length. -/
theorem readBack_iff_framed (hsame : Framed (echoed p) → SameData p (echoed p)) :
    ReadBack p (ccsdsSync ++ echoed p) ↔ Framed (echoed p) := by
  constructor
  · intro hread
    obtain ⟨q, hq, -⟩ := hread []
    obtain ⟨hnext, -⟩ := acquireBusPkt_init_iff.mp hq
    obtain ⟨pre, hpre, hfirst, hframed⟩ := nextPacket_eq_some_iff.mp hnext
    rw [List.append_nil, List.append_nil] at hpre
    obtain rfl := (firstEnd_self ccsdsSync).eq_of_append hfirst hpre
    rwa [List.append_cancel_left hpre]
  · intro hframed tail
    exact ⟨echoed p, acquireBusPkt_init_iff.mpr ⟨nextPacket_frame _ tail hframed,
      crcValid_append (echoBody p)⟩, hsame hframed⟩

theorem octet_echoBody {i : ℕ} (hi : 2 ≤ i) (hlt : i + 2 < p.length) :
    octet (echoBody p) i = octet p i := by
  obtain ⟨j, rfl⟩ := Nat.exists_eq_add_of_le' hi
  have hdrop : octet (echoBody p) (j + 2) = octet (p.take (p.length - 2)) (j + 2) := by
    show octet ((p.take (p.length - 2)).drop 2) j = _
    rw [octet, List.getElem?_drop, Nat.add_comm 2 j, octet]
  rw [hdrop, octet_take (by omega)]

theorem octet_echoed (h : 4 ≤ p.length) {i : ℕ} (hi : 2 ≤ i) (hlt : i + 2 < p.length) :
    octet (echoed p) i = octet p i := by
  rw [echoed, octet_append (by rw [length_echoBody h]; omega), octet_echoBody hi hlt]

/-- The length field that is written: the CRC overlaps it when it is 0. -/
theorem field16_echoed (h : Framed p) : field16 (echoed p) pktLenIndex =
    if field16 p pktLenIndex = 0 then crc16CcittFalse (echoBody p) / 256
    else field16 p pktLenIndex := by
  have hidx : pktLenIndex = 4 := rfl
  have h6 : ccsdsHeaderLen = 6 := rfl
  have hlt := h.lt_length
  have hlen := h
  unfold Framed bodyLen at hlen
  split_ifs with hzero
  · rw [hzero, if_neg (by decide)] at hlen
    have hlow : octet (echoed p) 5 = crc16CcittFalse (echoBody p) / 256 := by
      have h5 : 5 = (echoBody p).length + 0 := by
        rw [length_echoBody (by omega)]
        omega
      have hcrc := crc16CcittFalse_lt (echoBody p)
      rw [echoed, h5, octet_append_right, octet_of_field16, ← List.append_nil (be16 _),
        field16_be16 hcrc]
    have hhigh : octet (echoed p) 4 = octet p 4 := octet_echoed (by omega) (by omega) (by omega)
    rw [field16, hidx] at hzero ⊢
    rw [hlow, hhigh]
    omega
  · split_ifs at hlen
    all_goals
      rw [field16, octet_echoed (by omega) (by omega) (by omega),
        octet_echoed (by omega) (by omega) (by omega), field16]

theorem framed_echoed_iff (h : Framed p) : Framed (echoed p) ↔
    field16 p pktLenIndex ≠ 0 ∨ crc16CcittFalse (echoBody p) < 256 := by
  have hlt := h.lt_length
  have hlen := h
  unfold Framed at hlen ⊢
  rw [length_echoed (by omega), field16_echoed h, hlen]
  by_cases hzero : field16 p pktLenIndex = 0
  · rw [if_pos hzero, hzero, or_iff_right (not_not.mpr rfl)]
    have hcrc := crc16CcittFalse_lt (echoBody p)
    have hbody : bodyLen (crc16CcittFalse (echoBody p) / 256) =
        crc16CcittFalse (echoBody p) / 256 + 1 := if_neg (by omega)
    rw [hbody, show bodyLen 0 = 1 from rfl]
    omega
  · rw [if_neg hzero]
    exact iff_of_true rfl (.inl hzero)

theorem eq_of_octet {q : Bytes} (hlen : p.length = q.length)
    (h : ∀ i < p.length, octet p i = octet q i) : p = q := by
  refine List.ext_getElem hlen fun i hp hq => ?_
  have hi := h i hp
  unfold octet at hi
  rw [List.getElem?_eq_getElem hp, List.getElem?_eq_getElem hq] at hi
  exact UInt8.toNat_inj.mp hi

/-- The header behind the APID, when the length field is written as it was. -/
theorem header_echoed (h : Framed p)
    (hsame : field16 (echoed p) pktLenIndex = field16 p pktLenIndex) :
    ((echoed p).take ccsdsHeaderLen).drop 2 = (p.take ccsdsHeaderLen).drop 2 := by
  have hlt := h.lt_length
  have h6 : ccsdsHeaderLen = 6 := rfl
  have hle := length_echoed (p := p) (by omega)
  have hhigh := octet_of_field16 (echoed p) pktLenIndex
  have hhigh' := octet_of_field16 p pktLenIndex
  have hfield : octet (echoed p) 4 = octet p 4 ∧ octet (echoed p) 5 = octet p 5 := by
    have hlow : field16 (echoed p) 4 = octet (echoed p) 4 * 256 + octet (echoed p) 5 := rfl
    have hlow' : field16 p 4 = octet p 4 * 256 + octet p 5 := rfl
    unfold pktLenIndex at *
    omega
  apply eq_of_octet
  · simp only [List.length_drop, List.length_take, hle]
  · intro i hi
    have hi4 : i < 4 := by
      simp only [List.length_drop, List.length_take] at hi
      omega
    have hdrop (l : Bytes) : octet ((l.take ccsdsHeaderLen).drop 2) i = octet l (i + 2) := by
      rw [octet, List.getElem?_drop, Nat.add_comm 2 i, ← octet, octet_take (by omega)]
    rw [hdrop, hdrop]
    have hcases : i + 2 = 2 ∨ i + 2 = 3 ∨ i + 2 = 4 ∨ i + 2 = 5 := by omega
    rcases hcases with hi | hi | hi | hi
    · rw [hi, octet_echoed (by omega) (by omega) (by omega)]
    · rw [hi, octet_echoed (by omega) (by omega) (by omega)]
    · rw [hi, hfield.1]
    · rw [hi, hfield.2]

theorem sameData_echoed (h : Framed p) (hframed : Framed (echoed p)) :
    SameData p (echoed p) := by
  have hlt := h.lt_length
  have hle := length_echoed (p := p) (by omega)
  have hbody := length_echoBody (p := p) (by omega)
  have hfirst : octet (echoed p) 0 = 3 := rfl
  have hsecond : octet (echoed p) 1 = 255 := rfl
  refine ⟨by rw [hfirst, hsecond], hle, header_echoed h ?_, ?_⟩
  · rw [field16_echoed h]
    split_ifs with hzero
    · rcases (framed_echoed_iff h).mp hframed with hne | hcrc
      · exact absurd hzero hne
      · rw [hzero]
        omega
    · rfl
  · have htake : (echoed p).take (p.length - 2) = echoBody p := by
      rw [echoed, ← hbody, List.take_left]
    rw [hle, htake, echoBody, List.drop_succ_cons, List.drop_succ_cons, List.drop_zero]

end ReadBack

/-- **An accepted packet is echoed as a frame that is read back, if and only if its length field is
not 0, or the CRC of the changed header is below 256.** -/
theorem readBack_iff {stream rest p : Bytes}
    (h : (init stream).acquireBusPkt = .ok ⟨rest, [p], []⟩) :
    (∃ e frame, (Echoer.mk rest [p] []).echoPkt = .ok e ∧ e.written = [frame] ∧
      ReadBack p frame) ↔
    field16 p pktLenIndex ≠ 0 ∨
      crc16CcittFalse ([0x03, 0xFF] ++ (p.take (p.length - 2)).drop 2) < 256 := by
  obtain ⟨hnext, -⟩ := acquireBusPkt_init_iff.mp h
  obtain ⟨-, -, -, hp⟩ := nextPacket_eq_some_iff.mp hnext
  have hlt := hp.lt_length
  refine Iff.trans ?_ (framed_echoed_iff hp)
  rw [← readBack_iff_framed (sameData_echoed hp), echoPkt_eq rest (by omega)]
  constructor
  · rintro ⟨e, frame, he, hframe, hread⟩
    obtain rfl := Except.ok.inj he
    obtain rfl := List.singleton_injective hframe
    exact hread
  · exact fun hread => ⟨_, _, rfl, rfl, hread⟩

/-- A packet with one byte of data. -/
def echoPacket : Bytes := [0x00, 0x07, 0xC0, 0x02, 0x00, 0x02, 0x2A] ++
  be16 (crc16CcittFalse [0x00, 0x07, 0xC0, 0x02, 0x00, 0x02, 0x2A])

theorem readBack_echoPacket :
    (∃ e frame, (Echoer.mk [] [echoPacket] []).echoPkt = .ok e ∧ e.written = [frame] ∧
      ReadBack echoPacket frame) ↔
    field16 echoPacket pktLenIndex ≠ 0 ∨
      crc16CcittFalse ([0x03, 0xFF] ++ (echoPacket.take (echoPacket.length - 2)).drop 2) < 256 :=
  readBack_iff (show (init (ccsdsSync ++ echoPacket)).acquireBusPkt = .ok ⟨[], [echoPacket], []⟩ by
    decide +kernel)

/-- A packet whose length field is 0, and whose CRC is below 256. -/
def shortPacket : Bytes := [0x00, 0x07, 0xC0, 0x02, 0x00, 0x00, 0xB4]

/-- It is accepted, and what is written has another length field. -/
theorem not_readBack_shortPacket :
    (init (ccsdsSync ++ shortPacket)).acquireBusPkt = .ok ⟨[], [shortPacket], []⟩ ∧
    ¬ ∃ e frame, (Echoer.mk [] [shortPacket] []).echoPkt = .ok e ∧ e.written = [frame] ∧
      ReadBack shortPacket frame := by
  refine ⟨by decide +kernel, ?_⟩
  rintro ⟨e, frame, he, hframe, hread⟩
  rw [echoPkt_eq [] (by decide)] at he
  obtain rfl := Except.ok.inj he
  obtain rfl := List.singleton_injective hframe
  have hnot : ¬ Framed (echoed shortPacket) := by
    unfold Framed
    decide +kernel
  exact hnot ((readBack_iff_framed fun h => absurd h hnot).mp hread)

end Echoer

end ClickA.Bus
