import ClickA.Bus.Ccsds
import ClickA.Ipc.Packets
import ClickA.Stream.Segments

/-!
# The packetizer

`packetizer.py` takes the packets for the bus from a socket, cuts their payloads into bus packets,
and writes these to the SPI device. Each iteration of its loop handles one IPC packet and writes one
bus packet.

## Main definitions

* `ByteObject`: a Python object that holds bytes, and its type
* `Packetizer`: the process, with the packets it has written
* `handleTxPkts`, `sendBusPkts`, `iteration`, `run`: its loop
* `telemetry`: the packets for a payload cut into segments

## Main results

* `busTxPkt_eq`: the bytes of a bus packet
* `handleTxPkts_bytearray`: a payload that can be changed in place is cut into its segments
* `handleTxPkts_str_of_lt`, `handleTxPkts_str_of_le`: a `str` is cut only when one segment holds it
-/

namespace ClickA.Bus

open Python Stream Options

/-- The types of Python objects that hold bytes: `str`, which cannot be changed, and
`bytearray`. -/
inductive ByteType
  | str
  | bytearray
deriving DecidableEq, Repr

/-- A Python object that holds bytes. -/
structure ByteObject where
  type : ByteType
  bytes : Bytes
deriving DecidableEq, Repr

/-- `del obj[:n]`. -/
def ByteObject.delFront (n : ℕ) : ByteObject → Except Exn ByteObject
  | ⟨.str, _⟩ => .error .typeError
  | ⟨.bytearray, b⟩ => .ok ⟨.bytearray, b.drop n⟩

theorem ByteObject.bytes_of_delFront {n : ℕ} {obj obj' : ByteObject}
    (h : obj.delFront n = .ok obj') : obj'.bytes = obj.bytes.drop n := by
  obtain ⟨_ | _, b⟩ := obj
  · simp [delFront] at h
  · obtain rfl := Except.ok.inj h
    rfl

/-- The packetizer: its two buffers, and the packets it has written to the device. -/
structure Packetizer where
  ipcPktsBuffer : List Bytes
  busPktsBuffer : List Bytes
  spi : List Bytes
deriving DecidableEq, Repr

namespace Packetizer

/-- The packetizer before its first iteration. -/
def init : Packetizer := ⟨[], [], []⟩

/-- `bus_tx_pkt`, with the length the header tells and the data that follow it. -/
def busTxPkt (apid seqFlag seqCnt dataLen : ℕ) (data : Bytes) : Bytes :=
  let pkt := [UInt8.ofNat ((apid >>> 8) &&& 0b00000111), UInt8.ofNat (apid &&& 0xFF),
    UInt8.ofNat ((seqFlag <<< 6) ||| ((seqCnt >>> 8) &&& 0b00111111)),
    UInt8.ofNat (seqCnt &&& 0xFF),
    UInt8.ofNat (((dataLen + 1) >>> 8) &&& 0xFF), UInt8.ofNat ((dataLen + 1) &&& 0xFF)] ++ data
  let crc := crc16CcittFalse pkt
  ccsdsSync ++ (pkt ++ [UInt8.ofNat (crc >>> 8), UInt8.ofNat (crc &&& 0xFF)])

/-- The loop of `handle_tx_pkts`: full segments are cut from the payload while more than one is
left. -/
def segmentLoop (apid seqFlag seqCnt : ℕ) (pktData : ByteObject) (busPkts : List Bytes) :
    Except Exn (ℕ × ℕ × ByteObject × List Bytes) :=
  if _h : busDataLen < pktData.bytes.length then
    let busPkts := busPkts ++
      [busTxPkt apid seqFlag seqCnt busDataLen (pktData.bytes.take busDataLen)]
    match hdel : pktData.delFront busDataLen with
    | .ok rest => segmentLoop apid 0b00 (seqCnt + 1) rest busPkts
    | .error e => .error e
  else .ok (seqFlag, seqCnt, pktData, busPkts)
termination_by pktData.bytes.length
decreasing_by
  rw [ByteObject.bytes_of_delFront hdel, List.length_drop]
  exact Nat.sub_lt (Nat.zero_lt_of_lt _h) (by decide)

/-- `handle_tx_pkts`, for the type of the payload that `struct.unpack` returns. -/
def handleTxPkts (type : ByteType) (p : Packetizer) : Except Exn Packetizer :=
  match p.ipcPktsBuffer with
  | [] => .ok p
  | rawIpcPkt :: ipcPkts => do
    let (apid, payload) ← TxPacket.decode rawIpcPkt
    let (seqFlag, seqCnt, pktData, busPkts) ←
      segmentLoop apid 0b01 0 ⟨type, payload⟩ p.busPktsBuffer
    -- last or only packet
    let seqFlag := if seqFlag = 0b01 then 0b11 else 0b10
    let data := pktData.bytes.take busDataLen
    return { p with
      ipcPktsBuffer := ipcPkts
      busPktsBuffer := busPkts ++ [busTxPkt apid seqFlag seqCnt pktData.bytes.length data] }

/-- `spi.write` at one time: whether it takes the bytes, or raises an exception. -/
abbrev SpiWrite : Type := Bytes → Except Exn Unit

/-- `send_bus_pkts`: the first packet is taken from the buffer and written. -/
def sendBusPkts (write : SpiWrite) (p : Packetizer) : Except Exn Packetizer :=
  match p.busPktsBuffer with
  | [] => .ok p
  | rawBusPkt :: busPkts => do
    write rawBusPkt
    return { p with busPktsBuffer := busPkts, spi := p.spi ++ [rawBusPkt] }

/-- One iteration of `run`, with the packet it receives and the device it writes to. -/
def iteration (type : ByteType) (p : Packetizer) (ipcPkt : Bytes) (write : SpiWrite) :
    Except Exn Packetizer := do
  let p ← handleTxPkts type { p with ipcPktsBuffer := p.ipcPktsBuffer ++ [ipcPkt] }
  sendBusPkts write p

/-- The iterations of `run` for the packets received, each with its write; an exception ends it. -/
def run (type : ByteType) (p : Packetizer) (its : List (Bytes × SpiWrite)) :
    Except Exn Packetizer :=
  its.foldlM (fun p it => iteration type p it.1 it.2) p

/-! ## Bus packets -/

theorem ofNat_congr {m n : ℕ} (h : m % 256 = n % 256) : UInt8.ofNat m = UInt8.ofNat n := by
  apply UInt8.toNat_inj.mp
  simpa using h

/-- Two numbers that agree with the bytes of a third. -/
theorem eq_be16 {a b n : ℕ} (ha : a % 256 = n / 256 % 256) (hb : b % 256 = n % 256) :
    [UInt8.ofNat a, UInt8.ofNat b] = be16 n := by
  rw [be16, ofNat_congr ha, ofNat_congr hb]

variable {apid seqFlag seqCnt : ℕ} {data : Bytes}

/-- The bytes of a bus packet: the masks keep the bits of each field. -/
theorem busTxPkt_eq (t : Telemetry) (ha : t.apid = BitVec.ofNat 11 apid)
    (hf : t.grouping.flag = seqFlag) (hc : t.seqCnt = BitVec.ofNat 14 seqCnt) :
    busTxPkt apid seqFlag seqCnt t.data.length t.data = t.frame := by
  have h3 : ∀ x : ℕ, x &&& 0b00000111 = x % 8 := fun x => Nat.and_two_pow_sub_one_eq_mod x 3
  have h6 : ∀ x : ℕ, x &&& 0b00111111 = x % 64 := fun x => Nat.and_two_pow_sub_one_eq_mod x 6
  have h8 : ∀ x : ℕ, x &&& 0xFF = x % 256 := fun x => Nat.and_two_pow_sub_one_eq_mod x 8
  have hflag := t.grouping.flag_lt
  have hor : seqFlag <<< 6 ||| seqCnt >>> 8 % 64 = seqFlag * 64 + seqCnt >>> 8 % 64 := by
    rw [← Nat.shiftLeft_add_eq_or_of_lt (Nat.mod_lt _ (by decide)), Nat.shiftLeft_eq]
  have hpkt : [UInt8.ofNat ((apid >>> 8) &&& 0b00000111), UInt8.ofNat (apid &&& 0xFF),
      UInt8.ofNat ((seqFlag <<< 6) ||| ((seqCnt >>> 8) &&& 0b00111111)),
      UInt8.ofNat (seqCnt &&& 0xFF),
      UInt8.ofNat (((t.data.length + 1) >>> 8) &&& 0xFF),
      UInt8.ofNat ((t.data.length + 1) &&& 0xFF)] ++ t.data = t.body := by
    have hfst : [UInt8.ofNat ((apid >>> 8) &&& 0b00000111), UInt8.ofNat (apid &&& 0xFF)] =
        be16 t.apid.toNat := by
      rw [ha, BitVec.toNat_ofNat, h3, h8, Nat.shiftRight_eq_div_pow]
      exact eq_be16 (by omega) (by omega)
    have hsnd : [UInt8.ofNat ((seqFlag <<< 6) ||| ((seqCnt >>> 8) &&& 0b00111111)),
        UInt8.ofNat (seqCnt &&& 0xFF)] = be16 (t.grouping.flag * 16384 + t.seqCnt.toNat) := by
      rw [hc, BitVec.toNat_ofNat, h6, h8, hor, Nat.shiftRight_eq_div_pow]
      exact eq_be16 (by omega) (by omega)
    have hlen : [UInt8.ofNat (((t.data.length + 1) >>> 8) &&& 0xFF),
        UInt8.ofNat ((t.data.length + 1) &&& 0xFF)] = be16 t.lengthField := by
      have hl : t.lengthField = t.data.length + 1 := by rw [Telemetry.lengthField]; omega
      rw [hl, h8, h8, Nat.shiftRight_eq_div_pow]
      exact eq_be16 (by omega) (by omega)
    rw [Telemetry.body, ← hfst, ← hsnd, ← hlen]
    rfl
  have hcrc : [UInt8.ofNat (crc16CcittFalse t.body >>> 8),
      UInt8.ofNat (crc16CcittFalse t.body &&& 0xFF)] = be16 (crc16CcittFalse t.body) := by
    rw [h8, Nat.shiftRight_eq_div_pow]
    exact eq_be16 (by omega) (by omega)
  rw [busTxPkt, hpkt, hcrc, Telemetry.frame]

/-! ## Segments -/

/-- A segment of the payload of a bus packet. -/
abbrev DataSegment : Type := Segment UInt8 busDataLen

/-- The packet for a segment. -/
def packetFor (apid : BitVec 11) (g : Grouping) (k : ℕ) (s : DataSegment) : Telemetry where
  apid := apid
  grouping := g
  seqCnt := BitVec.ofNat 14 k
  data := s.1
  fits := Nat.lt_of_le_of_lt (Nat.succ_le_succ s.2) (by decide)

/-- The packets for the segments of a payload, numbered from `k`: the packet numbered 0 is the
first. -/
def telemetry (apid : BitVec 11) : ℕ → List DataSegment → List Telemetry
  | _, [] => []
  | k, [s] => [packetFor apid (if k = 0 then .standalone else .last) k s]
  | k, s :: s' :: ss =>
    packetFor apid (if k = 0 then .first else .continuation) k s :: telemetry apid (k + 1)
      (s' :: ss)

theorem busDataLen_pos : 0 < busDataLen := by decide

/-- The segments of a payload. -/
def dataSegments (payload : Bytes) : List DataSegment := segments busDataLen_pos payload

/-- The bus packets for an IPC packet. -/
def busPkts (apid : ℕ) (payload : Bytes) : List Bytes :=
  (telemetry (BitVec.ofNat 11 apid) 0 (dataSegments payload)).map Telemetry.frame

theorem busTxPkt_packetFor (apid k : ℕ) (s : DataSegment) {g : Grouping} (hf : g.flag = seqFlag) :
    busTxPkt apid seqFlag k s.1.length s.1 = (packetFor (BitVec.ofNat 11 apid) g k s).frame :=
  busTxPkt_eq (packetFor (BitVec.ofNat 11 apid) g k s) rfl hf rfl

theorem telemetry_cons (a : BitVec 11) (k : ℕ) (s : DataSegment) {ss : List DataSegment}
    (h : ss ≠ []) : telemetry a k (s :: ss) =
      packetFor a (if k = 0 then .first else .continuation) k s :: telemetry a (k + 1) ss := by
  cases ss with
  | nil => exact absurd rfl h
  | cons s' ss => rfl

@[simp] theorem length_telemetry (a : BitVec 11) (k : ℕ) (ss : List DataSegment) :
    (telemetry a k ss).length = ss.length := by
  induction k, ss using telemetry.induct with
  | case1 => rfl
  | case2 => rfl
  | case3 k s s' ss ih => rw [telemetry, List.length_cons, ih]; rfl

section Loop

variable {payload : Bytes} {pkts : List Bytes} {obj : ByteObject}

theorem segmentLoop_of_le (h : obj.bytes.length ≤ busDataLen) :
    segmentLoop apid seqFlag seqCnt obj pkts = .ok (seqFlag, seqCnt, obj, pkts) := by
  rw [segmentLoop, dif_neg (Nat.not_lt.mpr h)]

theorem segmentLoop_bytearray_of_lt (h : busDataLen < payload.length) :
    segmentLoop apid seqFlag seqCnt ⟨.bytearray, payload⟩ pkts =
      segmentLoop apid 0b00 (seqCnt + 1) ⟨.bytearray, payload.drop busDataLen⟩
        (pkts ++ [busTxPkt apid seqFlag seqCnt busDataLen (payload.take busDataLen)]) := by
  rw [segmentLoop, dif_pos h]
  rfl

/-- A `str` does not lose its first bytes. -/
theorem segmentLoop_str_of_lt (h : busDataLen < payload.length) :
    segmentLoop apid seqFlag seqCnt ⟨.str, payload⟩ pkts = .error .typeError := by
  rw [segmentLoop, dif_pos h]
  rfl

/-- The loop from the packet numbered `k` on, and the last packet after it. -/
theorem segmentLoop_bytearray (apid k : ℕ) (payload : Bytes) (pkts : List Bytes) :
    ∃ seqFlag seqCnt rest pkts',
      segmentLoop apid (if k = 0 then 0b01 else 0b00) k ⟨.bytearray, payload⟩ pkts =
        .ok (seqFlag, seqCnt, ⟨.bytearray, rest⟩, pkts') ∧
      pkts' ++ [busTxPkt apid (if seqFlag = 0b01 then 0b11 else 0b10) seqCnt rest.length
        (rest.take busDataLen)] =
      pkts ++ (telemetry (BitVec.ofNat 11 apid) k (dataSegments payload)).map Telemetry.frame := by
  rw [dataSegments]
  induction payload using segments.induct busDataLen_pos generalizing k pkts with
  | case1 payload h ih =>
    rw [segmentLoop_bytearray_of_lt h, segments_of_lt _ h, telemetry_cons _ _ _ (segments_ne_nil _)]
    obtain ⟨seqFlag, seqCnt, rest, pkts', hloop, hpkts⟩ := ih (k + 1)
      (pkts ++ [busTxPkt apid (if k = 0 then 0b01 else 0b00) k busDataLen
          (payload.take busDataLen)])
    refine ⟨seqFlag, seqCnt, rest, pkts', hloop, ?_⟩
    rw [hpkts, List.append_assoc, List.map_cons]
    have hlen : (payload.take busDataLen).length = busDataLen :=
      List.length_take_of_le (Nat.le_of_lt h)
    have hflag : (if k = 0 then Grouping.first else .continuation).flag =
        if k = 0 then 0b01 else 0b00 := by
      split <;> rfl
    have hpkt := busTxPkt_packetFor apid k ⟨payload.take busDataLen, List.length_take_le _ _⟩ hflag
    dsimp only at hpkt
    rw [hlen] at hpkt
    rw [hpkt]
    rfl
  | case2 payload h =>
    have hle := Nat.le_of_not_lt h
    rw [segmentLoop_of_le hle, segments_of_le _ hle]
    refine ⟨_, _, _, _, rfl, ?_⟩
    have hflag : (if k = 0 then Grouping.standalone else .last).flag =
        if (if k = 0 then 0b01 else 0b00) = 0b01 then 0b11 else 0b10 := by
      split <;> rfl
    rw [List.take_of_length_le hle, busTxPkt_packetFor apid k ⟨payload, hle⟩ hflag]
    rfl

end Loop

/-! ## One iteration -/

section Iteration

variable {p : Packetizer} {payload raw : Bytes} {ipcPkts : List Bytes}

/-- A payload that can be changed in place is cut into its segments. -/
theorem handleTxPkts_bytearray (hp : p.ipcPktsBuffer = raw :: ipcPkts)
    (hraw : TxPacket.encode apid payload = .ok raw) :
    handleTxPkts .bytearray p = .ok { p with
      ipcPktsBuffer := ipcPkts, busPktsBuffer := p.busPktsBuffer ++ busPkts apid payload } := by
  obtain ⟨seqFlag, seqCnt, rest, pkts, hloop, hpkts⟩ :=
    segmentLoop_bytearray apid 0 payload p.busPktsBuffer
  rw [if_pos rfl] at hloop
  rw [handleTxPkts, hp]
  simp only [TxPacket.decode_encode hraw, ok_bind, hloop, hpkts, pure_eq_ok, busPkts]

/-- A `str` that one segment holds is not cut. -/
theorem handleTxPkts_str_of_le (hp : p.ipcPktsBuffer = raw :: ipcPkts)
    (hraw : TxPacket.encode apid payload = .ok raw) (h : payload.length ≤ busDataLen) :
    handleTxPkts .str p = .ok { p with
      ipcPktsBuffer := ipcPkts, busPktsBuffer := p.busPktsBuffer ++ busPkts apid payload } := by
  have hle : ∀ type, (ByteObject.mk type payload).bytes.length ≤ busDataLen := fun _ => h
  rw [← handleTxPkts_bytearray hp hraw, handleTxPkts, handleTxPkts, hp]
  simp only [TxPacket.decode_encode hraw, ok_bind, segmentLoop_of_le (hle _)]

/-- A longer one raises an exception. -/
theorem handleTxPkts_str_of_lt (hp : p.ipcPktsBuffer = raw :: ipcPkts)
    (hraw : TxPacket.encode apid payload = .ok raw) (h : busDataLen < payload.length) :
    handleTxPkts .str p = .error .typeError := by
  rw [handleTxPkts, hp]
  simp only [TxPacket.decode_encode hraw, ok_bind, segmentLoop_str_of_lt h, error_bind]

end Iteration

end Packetizer

end ClickA.Bus
