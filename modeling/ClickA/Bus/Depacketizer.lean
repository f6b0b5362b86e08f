import ClickA.Bus.Ccsds
import ClickA.Ipc.Packets

/-!
# The depacketizer

`depacketizer.py` reads the bytes the SPI driver delivers, cuts them into bus packets, and passes
the commands on. Each iteration of its loop acquires a packet, handles the first packet of its
buffer, and sends one IPC packet.

## Main definitions

* `Depacketizer`: the process, with the bytes it has not read and the messages it has sent
* `acquireBusPkt`, `handleBusPkts`, `sendIpcPkts`, `iteration`, `run`: its loop

## Main results

* `readLoop_eq`: however the device splits the bytes, `read_data` returns the next ones
* `acquireBusPkt_eq`: a packet is the bytes after the first marker, up to the length read
* `iteration_eq`: what an iteration does with the packet it acquires
-/

namespace ClickA.Bus

open Python Stream Options

/-- The depacketizer: the bytes of the device it has not read, its two buffers, and what it has
sent on `rx_cmd_socket` and `tx_socket`. -/
structure Depacketizer where
  spi : Bytes
  busPktsBuffer : List Bytes
  ipcPktsBuffer : List Bytes
  rxCmdSocket : List Bytes
  txSocket : List Bytes
deriving DecidableEq, Repr

namespace Depacketizer

/-- `__init__`, with a device that delivers the given bytes. -/
def init (spi : Bytes) : Depacketizer := ⟨spi, [], [], [], []⟩

def ccsdsHeaderLen : ℕ := 6
def apidIndex : ℕ := 1
def pktLenIndex : ℕ := 4

/-! ## Reading -/

/-- The loop of `read_data`: each `self.spi.read` returns some of the bytes asked for, or raises,
which is reported and forgotten. The last argument lists what the reads do. -/
def readLoop (nBytes : ℕ) : Bytes → Bytes → List (Option ℕ) → Bytes × Bytes
  | buf, spi, [] => (buf, spi)
  | buf, spi, r :: rs =>
    if buf.length < nBytes then
      match r with
      | some k =>
        let data := spi.take (min k (nBytes - buf.length))
        readLoop nBytes (buf ++ data) (spi.drop data.length) rs
      | none => readLoop nBytes buf spi rs
    else (buf, spi)

/-- `read_data`: the next bytes of the device, and the rest. -/
def readData (nBytes : ℕ) (spi : Bytes) : Except Stop (Bytes × Bytes) :=
  if nBytes ≤ spi.length then .ok (spi.take nBytes, spi.drop nBytes) else .error .blocked

/-- The loop moves bytes from the device to the buffer, in order, and never too many. -/
theorem readLoop_spec {nBytes : ℕ} {buf spi buf' spi' : Bytes} {reads : List (Option ℕ)}
    (hlen : buf.length ≤ nBytes) (h : readLoop nBytes buf spi reads = (buf', spi')) :
    buf' ++ spi' = buf ++ spi ∧ buf'.length ≤ nBytes := by
  induction reads generalizing buf spi with
  | nil =>
    obtain ⟨rfl, rfl⟩ := Prod.mk.inj h
    exact ⟨rfl, hlen⟩
  | cons r reads ih =>
    rw [readLoop.eq_def] at h
    dsimp only at h
    split at h
    · cases r with
      | some k =>
        obtain ⟨happ, hle⟩ := ih (by simp; omega) h
        refine ⟨?_, hle⟩
        rw [happ, List.append_assoc, List.length_take]
        congr 1
        rcases Nat.le_total (min k (nBytes - buf.length)) spi.length with hk | hk
        · rw [Nat.min_eq_left hk, List.take_append_drop]
        · rw [Nat.min_eq_right hk, List.take_of_length_le hk, List.drop_length, List.append_nil]
      | none => exact ih hlen h
    · obtain ⟨rfl, rfl⟩ := Prod.mk.inj h
      exact ⟨rfl, hlen⟩

/-- **However the device splits its bytes, a loop that ends has read the next ones.** -/
theorem readLoop_eq {nBytes : ℕ} {spi buf spi' : Bytes} {reads : List (Option ℕ)}
    (h : readLoop nBytes [] spi reads = (buf, spi')) (hend : nBytes ≤ buf.length) :
    readData nBytes spi = .ok (buf, spi') := by
  obtain ⟨happ, hle⟩ := readLoop_spec (Nat.zero_le _) h
  obtain rfl : buf.length = nBytes := hle.antisymm hend
  obtain rfl : buf ++ spi' = spi := happ
  simp [readData]

/-- `pkt[i]` as an integer. -/
def byteAt (pkt : Bytes) (i : ℕ) : Except Exn ℕ := do return (← index pkt i).toNat

/-- The search for the sync marker, byte by byte. -/
def awaitSync (spi : Bytes) : Except Stop Bytes :=
  match scan ccsdsSync 0 spi with
  | some rest => .ok rest
  | none => .error .blocked

/-- `acquire_bus_pkt`. -/
def acquireBusPkt (d : Depacketizer) : Except Stop Depacketizer := do
  let spi ← awaitSync d.spi
  let (buf, spi) ← readData ccsdsHeaderLen spi
  let _apid ← raising (byteAt buf apidIndex)
  let hi ← raising (byteAt buf pktLenIndex)
  let lo ← raising (byteAt buf (pktLenIndex + 1))
  -- `+` binds stronger than `|`
  let pktLen := hi <<< 8 ||| lo + 1
  let (pkt, spi) ← readData pktLen spi
  let buf := buf ++ pkt
  let crcIndex := ccsdsHeaderLen + pktLen - 2
  let crcHi ← raising (byteAt buf crcIndex)
  let crcLo ← raising (byteAt buf (crcIndex + 1))
  let d := { d with spi := spi }
  if crcHi <<< 8 ||| crcLo = crc16CcittFalse (slice buf 0 crcIndex) then
    return { d with busPktsBuffer := d.busPktsBuffer ++ [buf] }
  else
    let errPktPl ← raising (pack (network (.H :: List.replicate buf.length .B))
      (.int buf.length :: buf.map fun b => .int b.toNat))
    let rawErrPkt ← raising (TxPacket.encode errDpktCrcInvalid errPktPl)
    return { d with txSocket := d.txSocket ++ [rawErrPkt] }

/-! ## Handling -/

/-- The two flag bits of a packet. -/
def seqFlag (pkt : Bytes) : Except Exn ℕ := do return ((← byteAt pkt 2) &&& 0b11000000) >>> 6

/-- The sequence count of a packet. -/
def seqCnt (pkt : Bytes) : Except Exn ℕ := do
  return ((← byteAt pkt 2) &&& 0b00111111) <<< 8 ||| (← byteAt pkt 3)

/-- The data of a packet: what follows the secondary header, up to the CRC. -/
def dataField (pkt : Bytes) : Except Exn Bytes := do
  let pktLen := (← byteAt pkt 4) <<< 8 ||| (← byteAt pkt 5) + 1
  let dataLen : ℤ := pktLen - 8
  return slice pkt 12 (12 + dataLen)

/-- The APID, the timestamps and the data of a standalone packet, or of the first of a
sequence. -/
def commandFields (pkt : Bytes) : Except Exn (ℕ × ℕ × ℕ × Bytes) := do
  let apid := ((← byteAt pkt 0) &&& 0b00000011) <<< 8 ||| (← byteAt pkt 1)
  let tsSec := ((((← byteAt pkt 6) <<< 8 ||| (← byteAt pkt 7)) <<< 8 ||| (← byteAt pkt 8)) <<< 8 |||
    (← byteAt pkt 9))
  let tsSubsec ← byteAt pkt 10
  let data ← dataField pkt
  return (apid, tsSec, tsSubsec, data)

/-- The completeness scan: it looks for the flag of a first packet. -/
def sequenceCompleted : List Bytes → Except Exn Bool
  | [] => .ok false
  | ipkt :: buffer => do
    let flag ← seqFlag ipkt
    let completed ← sequenceCompleted buffer
    return flag = 0b01 || completed

/-- The continuation packets and the last one: their data is appended, and they are popped. -/
def collectSequence (pkt data : Bytes) : List Bytes → Except Exn (Bytes × List Bytes)
  | [] => do
    let flag ← seqFlag pkt
    let segment ← dataField pkt
    if flag = 0b00 then .error .indexError else return (data ++ segment, [])
  | next :: buffer => do
    let flag ← seqFlag pkt
    let segment ← dataField pkt
    if flag = 0b00 then collectSequence next (data ++ segment) buffer
    else return (data ++ segment, next :: buffer)

/-- `handle_bus_pkts`. -/
def handleBusPkts (d : Depacketizer) : Except Exn Depacketizer :=
  match d.busPktsBuffer with
  | [] => .ok d
  | pkt :: rest => do
    let flag ← seqFlag pkt
    let cnt ← seqCnt pkt
    if flag = 0b11 then
      let (apid, tsSec, tsSubsec, data) ← commandFields pkt
      let rawIpcPkt ← RxCommandPacket.encode apid tsSec tsSubsec data
      return { d with ipcPktsBuffer := d.ipcPktsBuffer ++ [rawIpcPkt], busPktsBuffer := rest }
    else if flag = 0b01 then
      let completed ← sequenceCompleted d.busPktsBuffer
      if completed then
        let (apid, tsSec, tsSubsec, data) ← commandFields pkt
        let (next, buffer) ← popFront rest
        let (data, buffer) ← collectSequence next data buffer
        let rawIpcPkt ← RxCommandPacket.encode apid tsSec tsSubsec data
        return { d with
          ipcPktsBuffer := d.ipcPktsBuffer ++ [rawIpcPkt], busPktsBuffer := buffer.drop cnt }
      else return d
    else return { d with busPktsBuffer := rest }

/-- `send_ipc_pkts`. -/
def sendIpcPkts (d : Depacketizer) : Except Exn Depacketizer :=
  match d.ipcPktsBuffer with
  | [] => .ok d
  | rawIpcPkt :: rest => do
    let _ ← RxCommandPacket.decode rawIpcPkt
    return { d with ipcPktsBuffer := rest, rxCmdSocket := d.rxCmdSocket ++ [rawIpcPkt] }

/-- One iteration of the loop of `run`. -/
def iteration (d : Depacketizer) : Except Stop Depacketizer := do
  let d ← acquireBusPkt d
  let d ← raising (handleBusPkts d)
  raising (sendIpcPkts d)

/-- The first `n` iterations of `run`. -/
def run : ℕ → Depacketizer → Except Stop Depacketizer
  | 0, d => .ok d
  | n + 1, d => do run n (← iteration d)

/-! ## Framing

The packets a stream holds, stated on the stream alone. -/

/-- Byte `i` of a packet, as a number. -/
def octet (p : Bytes) (i : ℕ) : ℕ := (p[i]?.getD 0).toNat

/-- The 16-bit field at byte `i`. -/
def field16 (p : Bytes) (i : ℕ) : ℕ := octet p i * 256 + octet p (i + 1)

/-- The number of bytes read after a primary header with length field `n`: the low byte is
incremented, but its carry is lost when the high byte is odd. -/
def bodyLen (n : ℕ) : ℕ := if n % 512 = 511 then n - 255 else n + 1

/-- The first packet of a stream, and what follows it. -/
def nextPacket (spi : Bytes) : Option (Bytes × Bytes) :=
  (afterFirst ccsdsSync spi).bind fun rest =>
    let n := ccsdsHeaderLen + bodyLen (field16 rest pktLenIndex)
    if ccsdsHeaderLen ≤ rest.length ∧ n ≤ rest.length then some (rest.take n, rest.drop n) else none

/-- The CRC of a packet is right. -/
def CrcValid (p : Bytes) : Prop :=
  field16 p (p.length - 2) = crc16CcittFalse (p.take (p.length - 2))

instance (p : Bytes) : Decidable (CrcValid p) := inferInstanceAs (Decidable (_ = _))

theorem octet_lt (p : Bytes) (i : ℕ) : octet p i < 256 := UInt8.toNat_lt _

theorem byteAt_of_lt {p : Bytes} {i : ℕ} (h : i < p.length) : byteAt p i = .ok (octet p i) := by
  simp [byteAt, octet, index_of_lt h, h]

theorem byteAt_of_le {p : Bytes} {i : ℕ} (h : p.length ≤ i) :
    byteAt p i = .error .indexError := by
  simp [byteAt, index_of_le h]

theorem field16_lt (p : Bytes) (i : ℕ) : field16 p i < 2 ^ 16 := by
  have h₁ := octet_lt p i
  have h₂ := octet_lt p (i + 1)
  rw [field16]
  omega

theorem shiftLeft_or_octet (p : Bytes) (i : ℕ) :
    octet p i <<< 8 ||| octet p (i + 1) = field16 p i :=
  shiftLeft_or _ (octet_lt _ _)

/-- An odd number absorbs the lowest bit. -/
theorem or_one (n : ℕ) : n ||| 1 = if n % 2 = 1 then n else n + 1 := by
  have hd : (n ||| 1) / 2 = n / 2 := by simp [Nat.or_div_two]
  have hm : (n ||| 1) % 2 = 1 := by simp [Nat.or_mod_two_eq_one]
  split_ifs <;> omega

theorem shiftLeft_or_add_one (p : Bytes) (i : ℕ) :
    octet p i <<< 8 ||| octet p (i + 1) + 1 = bodyLen (field16 p i) := by
  have hlo := octet_lt p (i + 1)
  rw [bodyLen, field16]
  rcases Nat.lt_or_ge (octet p (i + 1)) 255 with h | h
  · rw [shiftLeft_or _ (by omega), if_neg (by omega)]
    omega
  -- the carry meets the lowest bit of the high byte
  · obtain h : octet p (i + 1) = 255 := by omega
    rw [h, show 255 + 1 = 1 <<< 8 from rfl, ← Nat.shiftLeft_or_distrib, or_one, Nat.shiftLeft_eq]
    split_ifs <;> omega

theorem bodyLen_pos (n : ℕ) : 0 < bodyLen n := by
  rw [bodyLen]
  split_ifs <;> omega

theorem bodyLen_le {n : ℕ} (h : n < 2 ^ 16) : bodyLen n ≤ 2 ^ 16 := by
  rw [bodyLen]
  split_ifs <;> omega

theorem octet_take {p : Bytes} {i n : ℕ} (h : i < n) : octet (p.take n) i = octet p i := by
  rw [octet, List.getElem?_take_of_lt h, octet]

theorem octet_append {p q : Bytes} {i : ℕ} (h : i < p.length) :
    octet (p ++ q) i = octet p i := by
  rw [octet, List.getElem?_append_left h, octet]

theorem field16_take {p : Bytes} {i n : ℕ} (h : i + 1 < n) :
    field16 (p.take n) i = field16 p i := by
  rw [field16, octet_take (by omega), octet_take h, field16]

theorem field16_append {p q : Bytes} {i : ℕ} (h : i + 1 < p.length) :
    field16 (p ++ q) i = field16 p i := by
  rw [field16, octet_append (by omega), octet_append h, field16]

section Be16

theorem field16_be16 {n : ℕ} (hn : n < 2 ^ 16) (l : Bytes) : field16 (be16 n ++ l) 0 = n := by
  simp only [field16, octet, be16, List.cons_append, List.getElem?_cons_zero,
    List.getElem?_cons_succ, Option.getD_some, UInt8.toNat_ofNat']
  omega

@[simp] theorem octet_be16_succ (n : ℕ) (l : Bytes) (i : ℕ) :
    octet (be16 n ++ l) (i + 2) = octet l i := rfl

@[simp] theorem field16_be16_succ (n : ℕ) (l : Bytes) (i : ℕ) :
    field16 (be16 n ++ l) (i + 2) = field16 l i := rfl

theorem octet_append_right (p q : Bytes) (i : ℕ) :
    octet (p ++ q) (p.length + i) = octet q i := by
  rw [octet, List.getElem?_append_right (Nat.le_add_right _ _), Nat.add_sub_cancel_left, octet]

theorem field16_append_right (p q : Bytes) (i : ℕ) :
    field16 (p ++ q) (p.length + i) = field16 q i := by
  rw [field16, Nat.add_assoc, octet_append_right, octet_append_right, field16]

theorem octet_of_field16 (p : Bytes) (i : ℕ) : octet p i = field16 p i / 256 := by
  have h := octet_lt p (i + 1)
  rw [field16]
  omega

/-- A CRC at the end of its packet is right. -/
theorem crcValid_append (body : Bytes) : CrcValid (body ++ be16 (crc16CcittFalse body)) := by
  have hlen : (body ++ be16 (crc16CcittFalse body)).length - 2 = body.length := by simp
  rw [CrcValid, hlen, List.take_left, ← Nat.add_zero body.length, field16_append_right,
    ← List.append_nil (be16 _), field16_be16 (crc16CcittFalse_lt _)]

end Be16

/-- The length of a packet is the one its length field makes the code read. -/
def Framed (p : Bytes) : Prop := p.length = ccsdsHeaderLen + bodyLen (field16 p pktLenIndex)

theorem Framed.lt_length {p : Bytes} (h : Framed p) : 6 < p.length := by
  have hpos := bodyLen_pos (field16 p pktLenIndex)
  rw [h, ccsdsHeaderLen]
  omega

theorem Framed.length_le {p : Bytes} (h : Framed p) : p.length ≤ 2 ^ 16 + 6 := by
  have hle := bodyLen_le (field16_lt p pktLenIndex)
  rw [h, ccsdsHeaderLen]
  omega

/-- A packet is what follows the first marker, up to the length read. -/
theorem nextPacket_eq_some_iff {spi p rest : Bytes} : nextPacket spi = some (p, rest) ↔
    ∃ pre, spi = pre ++ (p ++ rest) ∧ FirstEnd ccsdsSync pre ∧ Framed p := by
  have hlen : ccsdsHeaderLen = 6 := rfl
  have hidx : pktLenIndex = 4 := rfl
  simp only [nextPacket, Option.bind_eq_some_iff, afterFirst_eq_some_iff]
  constructor
  · rintro ⟨l, ⟨pre, rfl, hpre⟩, hl⟩
    split_ifs at hl with h
    obtain ⟨rfl, rfl⟩ := Prod.mk.inj (Option.some.inj hl)
    have hpos := bodyLen_pos (field16 l pktLenIndex)
    refine ⟨pre, by rw [List.take_append_drop], hpre, ?_⟩
    rw [Framed, field16_take (by omega), List.length_take, Nat.min_eq_left h.2]
  · rintro ⟨pre, rfl, hpre, hp⟩
    have hlt := hp.lt_length
    refine ⟨p ++ rest, ⟨pre, rfl, hpre⟩, ?_⟩
    rw [field16_append (by omega), ← hp, if_pos ⟨by simp; omega, by simp⟩, List.take_left,
      List.drop_left]

/-- What `acquire_bus_pkt` does with a packet: the buffer, or an error report. -/
def file (d : Depacketizer) (p : Bytes) : Except Exn Depacketizer :=
  if CrcValid p then .ok { d with busPktsBuffer := d.busPktsBuffer ++ [p] }
  else do
    let rawErrPkt ← TxPacket.encode errDpktCrcInvalid (be16 p.length ++ p)
    return { d with txSocket := d.txSocket ++ [rawErrPkt] }

section ErrorReport

variable {n : ℕ}

theorem packOne_network_H (h : n < 2 ^ 16) : packOne false .H (.int n) = .ok (be16 n) :=
  packInt_natCast h

theorem packOne_network_H_of_le (h : 2 ^ 16 ≤ n) :
    packOne false .H (.int n) = .error .structError :=
  packInt_natCast_of_le h

theorem pack_network_H_bytes (h : n < 2 ^ 16) (p : Bytes) :
    pack (network (.H :: List.replicate p.length .B)) (.int n :: p.map fun b => .int b.toNat) =
      .ok (be16 n ++ p) := by
  rw [pack, packFrom_cons (by decide), packOne_network_H h, ok_bind, packFrom_bytes]
  rfl

theorem pack_network_H_of_le (h : 2 ^ 16 ≤ n) (cs : List Code) (vs : List Value) :
    pack (network (.H :: cs)) (.int n :: vs) = .error .structError := by
  rw [pack, packFrom_cons (by decide), packOne_network_H_of_le h, error_bind]

/-- The error report of a packet. A packet its length field cannot hold does not fit the IPC packet
either. -/
theorem encode_errPktPl (p : Bytes) :
    (pack (network (.H :: List.replicate p.length .B))
      (.int p.length :: p.map fun b => .int b.toNat) >>= TxPacket.encode errDpktCrcInvalid) =
    TxPacket.encode errDpktCrcInvalid (be16 p.length ++ p) := by
  rcases Nat.lt_or_ge p.length (2 ^ 16) with h | h
  · rw [pack_network_H_bytes h, ok_bind]
  · have hle : ¬ (be16 p.length ++ p).length < 2 ^ 16 := by
      rw [List.length_append, length_be16]
      omega
    rw [pack_network_H_of_le h, error_bind, TxPacket.encode_of_not fun hlt => hle hlt.2]

end ErrorReport

section Reads

variable {spi p rest : Bytes}

/-- The reads of a packet that is there. -/
theorem reads_of_nextPacket (h : nextPacket spi = some (p, rest)) :
    ∃ l l', awaitSync spi = .ok l ∧ readData ccsdsHeaderLen l = .ok (p.take ccsdsHeaderLen, l') ∧
      readData (bodyLen (field16 (p.take ccsdsHeaderLen) pktLenIndex)) l' =
        .ok (p.drop ccsdsHeaderLen, rest) := by
  obtain ⟨pre, rfl, hpre, hp⟩ := nextPacket_eq_some_iff.mp h
  have hlt := hp.lt_length
  have h6 : ccsdsHeaderLen = 6 := rfl
  have hbody : bodyLen (field16 (p.take ccsdsHeaderLen) pktLenIndex) =
      (p.drop ccsdsHeaderLen).length := by
    rw [field16_take (by decide), List.length_drop, hp, Nat.add_sub_cancel_left]
  refine ⟨p ++ rest, p.drop ccsdsHeaderLen ++ rest, ?_, ?_, ?_⟩
  · have hscan : scan ccsdsSync 0 (pre ++ (p ++ rest)) = some (p ++ rest) :=
      (scan_eq_afterFirst ccsdsSync_head _).trans (afterFirst_append_eq_some_iff.mpr hpre)
    rw [awaitSync, hscan]
  · rw [readData, if_pos (by rw [List.length_append]; omega),
      List.take_append_of_le_length (by omega), List.drop_append_of_le_length (by omega)]
  · rw [hbody, readData, if_pos (by rw [List.length_append]; omega), List.take_left, List.drop_left]

/-- The read that waits when there is no packet. -/
theorem blocks_of_nextPacket (h : nextPacket spi = none) : awaitSync spi = .error .blocked ∨
    ∃ l, awaitSync spi = .ok l ∧ (readData ccsdsHeaderLen l = .error .blocked ∨
      ∃ buf l', readData ccsdsHeaderLen l = .ok (buf, l') ∧ buf.length = ccsdsHeaderLen ∧
        readData (bodyLen (field16 buf pktLenIndex)) l' = .error .blocked) := by
  have hscan : scan ccsdsSync 0 spi = afterFirst ccsdsSync spi :=
    scan_eq_afterFirst ccsdsSync_head _
  unfold nextPacket at h
  rw [awaitSync, hscan]
  cases hafter : afterFirst ccsdsSync spi with
  | none => exact .inl rfl
  | some l =>
    rw [hafter, Option.bind_some] at h
    refine .inr ⟨l, rfl, ?_⟩
    rcases Nat.lt_or_ge l.length ccsdsHeaderLen with hheader | hheader
    · exact .inl (if_neg (Nat.not_le.mpr hheader))
    · refine .inr ⟨l.take ccsdsHeaderLen, l.drop ccsdsHeaderLen, if_pos hheader,
        List.length_take_of_le hheader, if_neg fun hbody => ?_⟩
      rw [field16_take (by decide), List.length_drop] at hbody
      dsimp only at h
      rw [if_pos ⟨hheader, by omega⟩] at h
      cases h

/-- The length that is read from a header. -/
theorem pktLen_read {buf : Bytes} (h : buf.length = ccsdsHeaderLen) :
    byteAt buf pktLenIndex = .ok (octet buf pktLenIndex) ∧
    byteAt buf (pktLenIndex + 1) = .ok (octet buf (pktLenIndex + 1)) ∧
    octet buf pktLenIndex <<< 8 ||| octet buf (pktLenIndex + 1) + 1 =
      bodyLen (field16 buf pktLenIndex) :=
  ⟨byteAt_of_lt (by rw [h]; decide), byteAt_of_lt (by rw [h]; decide), shiftLeft_or_add_one buf _⟩

/-- The CRC that is read from a packet, behind the bytes that it is checked against. -/
theorem crc_read (h : Framed p) :
    ccsdsHeaderLen + bodyLen (field16 (p.take ccsdsHeaderLen) pktLenIndex) - 2 = p.length - 2 ∧
    byteAt p (p.length - 2) = .ok (octet p (p.length - 2)) ∧
    byteAt p (p.length - 2 + 1) = .ok (octet p (p.length - 2 + 1)) ∧
    (octet p (p.length - 2) <<< 8 ||| octet p (p.length - 2 + 1) =
      crc16CcittFalse (slice p 0 (p.length - 2 : ℕ)) ↔ CrcValid p) := by
  have hlt := h.lt_length
  refine ⟨?_, byteAt_of_lt (by omega), byteAt_of_lt (by omega), ?_⟩
  · rw [field16_take (by decide), h]
  · rw [shiftLeft_or_octet, slice_zero, CrcValid]

end Reads

theorem acquireBusPkt_eq (d : Depacketizer) : acquireBusPkt d = match nextPacket d.spi with
    | none => .error .blocked
    | some (p, rest) => raising (file { d with spi := rest } p) := by
  have hapid : ∀ {buf : Bytes}, buf.length = ccsdsHeaderLen →
      byteAt buf apidIndex = .ok (octet buf apidIndex) := fun h => byteAt_of_lt (by rw [h]; decide)
  unfold acquireBusPkt
  cases hnext : nextPacket d.spi with
  | none =>
    rcases blocks_of_nextPacket hnext with hsync | ⟨l, hsync, hheader | ⟨buf, l', hheader, h6,
      hbody⟩⟩
    · rw [hsync, error_bind]
    · rw [hsync, ok_bind, hheader, error_bind]
    · obtain ⟨hhi, hlo, hlen⟩ := pktLen_read h6
      simp only [hsync, hheader, ok_bind, hapid h6, hhi, hlo, raising_ok, hlen, hbody, error_bind]
  | some next =>
    obtain ⟨p, rest⟩ := next
    obtain ⟨l, l', hsync, hheader, hbody⟩ := reads_of_nextPacket hnext
    obtain ⟨-, -, -, hp⟩ := nextPacket_eq_some_iff.mp hnext
    have h6 : (p.take ccsdsHeaderLen).length = ccsdsHeaderLen :=
      List.length_take_of_le hp.lt_length.le
    obtain ⟨hhi, hlo, hlen⟩ := pktLen_read h6
    obtain ⟨hindex, hcrcHi, hcrcLo, hcrc⟩ := crc_read hp
    simp only [hsync, hheader, ok_bind, hapid h6, hhi, hlo, raising_ok, hlen, hbody,
      List.take_append_drop, hindex, hcrcHi, hcrcLo, hcrc, file]
    by_cases hc : CrcValid p
    · rw [if_pos hc, if_pos hc]
      rfl
    · rw [if_neg hc, if_neg hc, ← encode_errPktPl]
      simp only [raising_bind, bind_assoc, pure_eq_ok, raising_ok]

/-! ## The fields of a packet -/

/-- The sequence flags. -/
def flagOf (p : Bytes) : ℕ := octet p 2 / 64

/-- The APID the code reads: ten of its eleven bits. -/
def apidOf (p : Bytes) : ℕ := octet p 0 % 4 * 256 + octet p 1

/-- The seconds. -/
def tsSecOf (p : Bytes) : ℕ := field16 p 6 * 65536 + field16 p 8

/-- What follows the secondary header, up to the CRC. -/
def dataOf (p : Bytes) : Bytes := (p.take (p.length - 2)).drop 12

/-- The command packet for a bus packet. -/
def rxCommand (p : Bytes) : Bytes :=
  RxCommandPacket.header (apidOf p) (dataOf p).length (tsSecOf p) (octet p 10) ++ dataOf p

/-- What an iteration does with the packet it acquires. -/
def receive (d : Depacketizer) (p : Bytes) : Except Exn Depacketizer :=
  if CrcValid p then
    if flagOf p = 0b11 then
      if p.length < 11 then .error .indexError
      else .ok { d with rxCmdSocket := d.rxCmdSocket ++ [rxCommand p] }
    else if flagOf p = 0b01 then .error .indexError
    else .ok d
  else do
    let rawErrPkt ← TxPacket.encode errDpktCrcInvalid (be16 p.length ++ p)
    return { d with txSocket := d.txSocket ++ [rawErrPkt] }

section Fields

variable {p : Bytes}

theorem apidOf_lt (p : Bytes) : apidOf p < 2 ^ 16 := by
  have h := octet_lt p 1
  rw [apidOf]
  omega

theorem tsSecOf_lt (p : Bytes) : tsSecOf p < 2 ^ 32 := by
  have h₁ := field16_lt p 6
  have h₂ := field16_lt p 8
  rw [tsSecOf]
  omega

theorem Framed.length_dataOf_lt (h : Framed p) : (dataOf p).length < 2 ^ 16 := by
  have hle := h.length_le
  simp only [dataOf, List.length_drop, List.length_take]
  omega

theorem seqFlag_eq (h : 2 < p.length) : seqFlag p = .ok (flagOf p) := by
  have hmask : octet p 2 >>> 6 &&& 0b11000000 >>> 6 = octet p 2 >>> 6 % 4 :=
    Nat.and_two_pow_sub_one_eq_mod _ 2
  have hlt := octet_lt p 2
  rw [seqFlag, byteAt_of_lt h, ok_bind, pure_eq_ok, Nat.shiftRight_and_distrib, hmask, flagOf,
    Nat.shiftRight_eq_div_pow]
  congr 1
  omega

theorem seqCnt_ok (h : 3 < p.length) : ∃ cnt, seqCnt p = .ok cnt :=
  ⟨_, by rw [seqCnt, byteAt_of_lt (by omega), byteAt_of_lt h]; rfl⟩

theorem dataField_eq (h : Framed p) : dataField p = .ok (dataOf p) := by
  have hlt := h.lt_length
  have hend : 12 + ((bodyLen (field16 p pktLenIndex) : ℤ) - 8) = ((p.length - 2 : ℕ) : ℤ) := by
    have hp : p.length = 6 + bodyLen (field16 p pktLenIndex) := h
    omega
  rw [dataField, byteAt_of_lt (by omega), byteAt_of_lt (by omega)]
  simp only [ok_bind, pure_eq_ok, shiftLeft_or_add_one]
  rw [show field16 p 4 = field16 p pktLenIndex from rfl, hend, dataOf]
  exact congrArg Except.ok (slice_nat p 12 (p.length - 2))

theorem commandFields_eq (h : Framed p) (hlen : 11 ≤ p.length) :
    commandFields p = .ok (apidOf p, tsSecOf p, octet p 10, dataOf p) := by
  have hb : ∀ i < 11, byteAt p i = .ok (octet p i) := fun i hi => byteAt_of_lt (by omega)
  have hmask : octet p 0 &&& 0b00000011 = octet p 0 % 4 := Nat.and_two_pow_sub_one_eq_mod _ 2
  simp only [commandFields, hb 0 (by decide), hb 1 (by decide), hb 6 (by decide),
    hb 7 (by decide), hb 8 (by decide), hb 9 (by decide), hb 10 (by decide), dataField_eq h,
    ok_bind, pure_eq_ok, hmask, shiftLeft_or _ (octet_lt p _)]
  have hts : ((octet p 6 * 256 + octet p 7) * 256 + octet p 8) * 256 + octet p 9 = tsSecOf p := by
    rw [tsSecOf, field16, field16]
    ring
  rw [hts, apidOf]

theorem byteAt_cases (p : Bytes) (i : ℕ) :
    byteAt p i = .ok (octet p i) ∨ byteAt p i = .error .indexError :=
  (Nat.lt_or_ge i p.length).imp byteAt_of_lt byteAt_of_le

/-- A packet too short for the secondary header. -/
theorem commandFields_of_lt (hlen : p.length < 11) : commandFields p = .error .indexError := by
  have h10 : byteAt p 10 = .error .indexError := byteAt_of_le (by omega)
  rw [commandFields, h10]
  rcases byteAt_cases p 0 with h | h <;> simp only [h, ok_bind, error_bind]
  rcases byteAt_cases p 1 with h | h <;> simp only [h, ok_bind, error_bind]
  rcases byteAt_cases p 6 with h | h <;> simp only [h, ok_bind, error_bind]
  rcases byteAt_cases p 7 with h | h <;> simp only [h, ok_bind, error_bind]
  rcases byteAt_cases p 8 with h | h <;> simp only [h, ok_bind, error_bind]
  rcases byteAt_cases p 9 with h | h <;> simp only [h, ok_bind, error_bind]

end Fields

/-! ## One iteration -/

/-- Both buffers are empty, as at the start. -/
structure Idle (d : Depacketizer) : Prop where
  bus : d.busPktsBuffer = []
  ipc : d.ipcPktsBuffer = []

theorem idle_init (spi : Bytes) : Idle (init spi) := ⟨rfl, rfl⟩

theorem Idle.of_receive {d d' : Depacketizer} {p : Bytes} (hd : Idle d)
    (h : receive d p = .ok d') : Idle d' := by
  rw [receive] at h
  split_ifs at h with hc h3 hlen h1
  · obtain rfl := Except.ok.inj h
    exact ⟨hd.bus, hd.ipc⟩
  · obtain rfl := Except.ok.inj h
    exact hd
  · obtain ⟨raw, -, hraw⟩ := bind_eq_ok.mp h
    obtain rfl := Except.ok.inj hraw
    exact ⟨hd.bus, hd.ipc⟩

theorem handleBusPkts_nil {d : Depacketizer} (h : d.busPktsBuffer = []) :
    handleBusPkts d = .ok d := by
  rw [handleBusPkts, h]

/-- Handling the only packet of the buffer. -/
theorem handleBusPkts_singleton {d : Depacketizer} {p : Bytes} (h : Framed p) :
    handleBusPkts { d with busPktsBuffer := [p] } =
      if flagOf p = 0b11 then
        if p.length < 11 then .error .indexError
        else .ok { d with
          ipcPktsBuffer := d.ipcPktsBuffer ++ [rxCommand p], busPktsBuffer := [] }
      else if flagOf p = 0b01 then .error .indexError
      else .ok { d with busPktsBuffer := [] } := by
  have hlt := h.lt_length
  have hflag : seqFlag p = .ok (flagOf p) := seqFlag_eq (by omega)
  obtain ⟨cnt, hcnt⟩ := seqCnt_ok (p := p) (by omega)
  simp only [handleBusPkts, hflag, hcnt, ok_bind, pure_eq_ok]
  split_ifs with h3 hlen h1
  · rw [commandFields_of_lt hlen, error_bind]
  · rw [commandFields_eq h (by omega)]
    simp only [ok_bind, RxCommandPacket.encode_eq (apidOf_lt p) h.length_dataOf_lt (tsSecOf_lt p)
      (Nat.lt_trans (octet_lt p 10) (by decide)), rxCommand]
  -- the scan finds the packet itself, and there is no second one to pop
  · have hscan : sequenceCompleted [p] = .ok true := by
      simp [sequenceCompleted, hflag, h1]
    simp only [hscan, ok_bind, if_true, popFront]
    rcases Nat.lt_or_ge p.length 11 with hlen | hlen
    · rw [commandFields_of_lt hlen, error_bind]
    · rw [commandFields_eq h hlen, ok_bind, error_bind]
  · rfl

theorem decode_rxCommand {p : Bytes} (h : Framed p) : RxCommandPacket.decode (rxCommand p) =
    .ok (apidOf p, tsSecOf p, octet p 10, dataOf p) :=
  have hms : octet p 10 < 2 ^ 32 := Nat.lt_trans (octet_lt p 10) (by decide)
  RxCommandPacket.decode_encode (apidOf_lt p) h.length_dataOf_lt (tsSecOf_lt p) hms
    (RxCommandPacket.encode_eq (apidOf_lt p) h.length_dataOf_lt (tsSecOf_lt p) hms)

/-- Sending the only packet of the buffer. -/
theorem sendIpcPkts_singleton {d : Depacketizer} {p : Bytes} (h : Framed p) :
    sendIpcPkts { d with ipcPktsBuffer := [rxCommand p] } = .ok { d with
      ipcPktsBuffer := [], rxCmdSocket := d.rxCmdSocket ++ [rxCommand p] } := by
  simp only [sendIpcPkts, decode_rxCommand h, ok_bind, pure_eq_ok]

/-- **An iteration receives the next packet, or waits for one.** -/
theorem iteration_eq {d : Depacketizer} (hd : Idle d) : iteration d = match nextPacket d.spi with
    | none => .error .blocked
    | some (p, rest) => raising (receive { d with spi := rest } p) := by
  obtain ⟨spi, bus, ipc, rx, tx⟩ := d
  obtain ⟨rfl, rfl⟩ : bus = [] ∧ ipc = [] := ⟨hd.bus, hd.ipc⟩
  rw [iteration, acquireBusPkt_eq]
  dsimp only
  cases hnext : nextPacket spi with
  | none => rfl
  | some pr =>
    obtain ⟨p, rest⟩ := pr
    obtain ⟨-, -, -, hp⟩ := nextPacket_eq_some_iff.mp hnext
    have hhandle := handleBusPkts_singleton (d := ⟨rest, [], [], rx, tx⟩) hp
    have hsend := sendIpcPkts_singleton (d := ⟨rest, [], [], rx, tx⟩) hp
    simp only [List.nil_append] at hhandle hsend ⊢
    simp only [file, receive, List.nil_append]
    split_ifs with hc h3 hlen h1
    · simp only [raising_ok, ok_bind, hhandle, if_pos h3, if_pos hlen, raising_error, error_bind]
    · simp only [raising_ok, ok_bind, hhandle, if_pos h3, if_neg hlen, hsend]
    · simp only [raising_ok, ok_bind, hhandle, if_neg h3, if_pos h1, raising_error, error_bind]
    · simp only [raising_ok, ok_bind, hhandle, if_neg h3, if_neg h1, sendIpcPkts]
    · cases TxPacket.encode errDpktCrcInvalid (be16 p.length ++ p) with
      | ok raw => rfl
      | error e => rfl

/-! ## Runs -/

theorem run_add (m n : ℕ) (d : Depacketizer) : run (m + n) d = run m d >>= run n := by
  induction m generalizing d with
  | zero => rw [Nat.zero_add, run, ok_bind]
  | succ m ih =>
    rw [Nat.succ_add, run, run]
    cases iteration d with
    | ok d' => exact ih d'
    | error e => rfl

/-- The buffers are empty between iterations. -/
theorem Idle.of_iteration {d d' : Depacketizer} (hd : Idle d) (h : iteration d = .ok d') :
    Idle d' := by
  rw [iteration_eq hd] at h
  cases hnext : nextPacket d.spi with
  | none => simp [hnext] at h
  | some pr =>
    obtain ⟨p, rest⟩ := pr
    simp only [hnext] at h
    cases hrec : receive { d with spi := rest } p with
    | error e => simp [hrec] at h
    | ok d₁ =>
      obtain rfl : d₁ = d' := by simpa [hrec] using h
      exact Idle.of_receive (d := { d with spi := rest }) ⟨hd.bus, hd.ipc⟩ hrec

theorem Idle.of_run {n : ℕ} {d d' : Depacketizer} (hd : Idle d) (h : run n d = .ok d') :
    Idle d' := by
  induction n generalizing d with
  | zero =>
    obtain rfl := Except.ok.inj h
    exact hd
  | succ n ih =>
    obtain ⟨d₁, hd₁, hrun⟩ := bind_eq_ok.mp h
    exact ih (hd.of_iteration hd₁) hrun

end Depacketizer

end ClickA.Bus
