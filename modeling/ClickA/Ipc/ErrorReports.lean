import ClickA.Bus.Packetizer
import ClickA.Files.Host

/-!
# Error reports

`send_exception` of `errors.py`: an exception is reported to the bus with its type, its number, its
place and its trace, which is cut to the room that is left in a bus packet.

## Main definitions

* `Report`: what is found out about an exception
* `Report.payload`: the payload of the report
* `Report.Laid`, `SentAlone`: its length fields tell the lengths of its strings, and the packetizer
  makes one packet of it

## Main results

* `Report.payload_eq`: the fields of the payload
* `Report.oneFrame_iff`: a report fits a bus packet if and only if its trace does not have to be
  cut and its line has a number of 16 bits
-/

namespace ClickA

open Python Options Bus Stream

/-- `FULL_TRACE_ENABLE`. -/
def fullTraceEnable : Bool := true

/-- What `send_exception` finds out about an exception: the name of its type, its number (0 if it
has none), the name of the file and the line that raised it, and the trace. -/
structure Report where
  errorType : Bytes
  errno : ℕ
  fileName : Bytes
  lineNum : ℕ
  fullTrace : Bytes

namespace Report

/-- `available_space`. -/
def availableSpace (r : Report) : ℤ :=
  busDataLen - r.errorType.length - r.fileName.length - 6

/-- `pkt_payload`. -/
def payload (r : Report) : Except Exn Bytes := do
  let pktPayload ← pack (native [.B]) [.int r.errorType.length]
  let pktPayload := pktPayload ++ (← pack (network [.s r.errorType.length]) [.str r.errorType])
  let pktPayload := pktPayload ++ (← pack (native [.B]) [.int r.errno])
  let pktPayload := pktPayload ++ (← pack (network [.H]) [.int r.fileName.length])
  let pktPayload := pktPayload ++ (← pack (network [.s r.fileName.length]) [.str r.fileName])
  let pktPayload := pktPayload ++ (← pack (network [.H]) [.int r.lineNum])
  if fullTraceEnable then
    if r.availableSpace < r.fullTrace.length then
      let pktPayload := pktPayload ++ (← pack (network [.H]) [.int r.availableSpace])
      let trace ← pack (network [.s r.availableSpace.toNat]) [.str r.fullTrace]
      return pktPayload ++ trace
    else
      let pktPayload := pktPayload ++ (← pack (network [.H]) [.int r.fullTrace.length])
      let trace ← pack (network [.s r.fullTrace.length]) [.str r.fullTrace]
      return pktPayload ++ trace
  else return pktPayload

/-- The fields of a payload, with what is left of the trace: each string stands behind its
length. -/
def fields (r : Report) (trace : Bytes) : Bytes :=
  [UInt8.ofNat r.errorType.length] ++ r.errorType ++ [UInt8.ofNat r.errno] ++
    be16 r.fileName.length ++ r.fileName ++ be16 r.lineNum ++ be16 trace.length ++ trace

/-- The length fields of a payload tell the lengths of the strings behind them. -/
def Laid (r : Report) (payload : Bytes) : Prop :=
  ∃ trace : Bytes, trace <+: r.fullTrace ∧ r.errorType.length < 2 ^ 8 ∧
    r.fileName.length < 2 ^ 16 ∧ trace.length < 2 ^ 16 ∧ payload = r.fields trace

end Report

/-- The packetizer makes one packet of the payload, which stands alone. -/
def SentAlone (payload : Bytes) : Prop :=
  ∃ (raw : Bytes) (t : Telemetry), TxPacket.encode Files.errGenException payload = .ok raw ∧
    t.data = payload ∧ t.grouping = .standalone ∧
      ∀ (type : ByteType) (spi : List Bytes),
        Packetizer.handleTxPkts type ⟨[raw], [], spi⟩ = .ok ⟨[], [t.frame], spi⟩

/-- The report fits a bus packet. -/
def Report.OneFrame (r : Report) : Prop :=
  ∃ payload, r.payload = .ok payload ∧ payload.length ≤ busDataLen ∧ r.Laid payload ∧
    SentAlone payload

theorem sentAlone_of_le {payload : Bytes} (h : payload.length ≤ busDataLen) :
    SentAlone payload := by
  have hraw := TxPacket.encode_eq (show Files.errGenException < 2 ^ 16 by decide)
    (Nat.lt_of_le_of_lt h (by decide))
  refine ⟨_, Packetizer.packetFor (BitVec.ofNat 11 Files.errGenException) .standalone 0
    ⟨payload, h⟩, hraw, rfl, rfl, fun type spi => ?_⟩
  have hpkts : Packetizer.busPkts Files.errGenException payload =
      [(Packetizer.packetFor (BitVec.ofNat 11 Files.errGenException) .standalone 0
        ⟨payload, h⟩).frame] := by
    rw [Packetizer.busPkts, Packetizer.dataSegments, segments_of_le _ h]
    rfl
  rw [← hpkts]
  cases type with
  | str => exact Packetizer.handleTxPkts_str_of_le rfl hraw h
  | bytearray => exact Packetizer.handleTxPkts_bytearray rfl hraw

/-! ## The fields -/

section Fields

variable {r : Report} {n : ℕ} {b : Bytes}

theorem pack_byte (h : n < 2 ^ 8) : pack (native [.B]) [.int n] = .ok [UInt8.ofNat n] := by
  simp [pack, packFrom, gap, Code.align, packOne_B h, leBytes]

theorem pack_short (h : n < 2 ^ 16) : pack (network [.H]) [.int n] = .ok (be16 n) := by
  have hone : packOne false .H (.int n) = .ok (be16 n) := packInt_natCast h
  simp [pack, packFrom, gap, hone]

theorem pack_short_of_le (h : 2 ^ 16 ≤ n) :
    pack (network [.H]) [.int n] = .error .structError := by
  have hone : packOne false .H (.int n) = .error .structError := packInt_natCast_of_le (k := 2) h
  simp [pack, packFrom, hone]

/-- A string is cut to the length of its code. -/
theorem pack_string (h : n ≤ b.length) : pack (network [.s n]) [.str b] = .ok (b.take n) := by
  simp [pack, packFrom, gap, packOne, Nat.sub_eq_zero_of_le h]

theorem pack_whole (b : Bytes) : pack (network [.s b.length]) [.str b] = .ok b := by
  rw [pack_string le_rfl, List.take_length]

namespace Report

/-- What is left of the trace. -/
def keptTrace (r : Report) : Bytes := r.fullTrace.take r.availableSpace.toNat

/-- The fields of the payload, when each number fits its field. -/
theorem payload_eq (htype : r.errorType.length < 2 ^ 8) (herrno : r.errno < 2 ^ 8)
    (hroom : r.errorType.length + r.fileName.length + 6 ≤ busDataLen)
    (hline : r.lineNum < 2 ^ 16) : r.payload = .ok (r.fields r.keptTrace) := by
  have hbus : busDataLen < 2 ^ 16 := by decide
  obtain ⟨space, hspace⟩ : ∃ space : ℕ, r.availableSpace = space :=
    Int.eq_ofNat_of_zero_le (by unfold availableSpace; omega)
  have hle : space < 2 ^ 16 := by
    unfold availableSpace at hspace
    omega
  have hfile : r.fileName.length < 2 ^ 16 := by omega
  unfold payload
  simp only [pack_byte htype, pack_whole, pack_byte herrno, pack_short hfile, pack_short hline,
    ok_bind, hspace, Int.toNat_natCast, fullTraceEnable, if_true]
  unfold keptTrace
  rw [hspace, Int.toNat_natCast]
  split
  · have hcut : space ≤ r.fullTrace.length := by omega
    rw [pack_short hle, ok_bind, pack_string hcut, ok_bind]
    simp only [fields, List.length_take_of_le hcut]
    rfl
  · have hwhole : r.fullTrace.length ≤ space := by omega
    rw [pack_short (by omega), ok_bind, List.take_of_length_le hwhole]
    rfl

/-- The line number has no other field. -/
theorem lineNum_lt {payload : Bytes} (h : r.payload = .ok payload) : r.lineNum < 2 ^ 16 := by
  by_contra hnot
  obtain ⟨_, -, h⟩ := bind_eq_ok.mp h
  obtain ⟨_, -, h⟩ := bind_eq_ok.mp h
  obtain ⟨_, -, h⟩ := bind_eq_ok.mp h
  obtain ⟨_, -, h⟩ := bind_eq_ok.mp h
  obtain ⟨_, -, h⟩ := bind_eq_ok.mp h
  rw [pack_short_of_le (Nat.le_of_not_lt hnot)] at h
  cases h

theorem length_fields (trace : Bytes) : (r.fields trace).length =
    r.errorType.length + r.fileName.length + trace.length + 8 := by
  simp only [fields, List.length_append, List.length_singleton, length_be16]
  omega

/-- The overhead was counted two bytes too small: a trace that is cut leaves no room for them. -/
theorem length_fields_le_iff
    (hroom : r.errorType.length + r.fileName.length + 8 ≤ busDataLen) :
    (r.fields r.keptTrace).length ≤ busDataLen ↔
      r.errorType.length + r.fileName.length + r.fullTrace.length + 8 ≤ busDataLen := by
  rw [length_fields, keptTrace, List.length_take]
  unfold availableSpace
  omega

/-- The fields have the lengths that they tell, however much of the trace is left. -/
theorem laid_fields (htype : r.errorType.length < 2 ^ 8)
    (hroom : r.errorType.length + r.fileName.length + 6 ≤ busDataLen) :
    r.Laid (r.fields r.keptTrace) := by
  have hbus : busDataLen < 2 ^ 16 := by decide
  refine ⟨r.keptTrace, List.take_prefix _ _, htype, by omega, ?_, rfl⟩
  rw [keptTrace, List.length_take]
  unfold availableSpace
  omega

end Report

end Fields

/-- A report fits a bus packet if and only if its line has a number of 16 bits and its trace, with
the eight bytes of the other fields, does not have to be cut. -/
theorem Report.oneFrame_iff {r : Report} (htype : r.errorType.length ≤ 255)
    (herrno : r.errno < 256)
    (hroom : r.errorType.length + r.fileName.length ≤ busDataLen - 8) :
    r.OneFrame ↔ r.lineNum < 2 ^ 16 ∧
      r.errorType.length + r.fileName.length + r.fullTrace.length + 8 ≤ busDataLen := by
  have htype : r.errorType.length < 2 ^ 8 := by omega
  have hroom : r.errorType.length + r.fileName.length + 8 ≤ busDataLen := by
    have : 8 ≤ busDataLen := by decide
    omega
  constructor
  · rintro ⟨payload, hpayload, hlength, -, -⟩
    have hline := lineNum_lt hpayload
    rw [payload_eq htype herrno (by omega) hline, Except.ok.injEq] at hpayload
    rw [← hpayload, length_fields_le_iff hroom] at hlength
    exact ⟨hline, hlength⟩
  · rintro ⟨hline, htrace⟩
    have hlength := (length_fields_le_iff hroom).mpr htrace
    exact ⟨_, payload_eq htype herrno (by omega) hline, hlength, laid_fields htype (by omega),
      sentAlone_of_le hlength⟩

/-- An exception in `pat.py`, with a trace of so many bytes. -/
def tracedReport (traceLength : ℕ) : Report where
  errorType := ascii "OSError"
  errno := 2
  fileName := ascii "pat.py"
  lineNum := 12
  fullTrace := List.replicate traceLength 65

theorem oneFrame_iff_traced : (tracedReport 100).OneFrame ↔ (tracedReport 100).lineNum < 2 ^ 16 ∧
    (tracedReport 100).errorType.length + (tracedReport 100).fileName.length +
      (tracedReport 100).fullTrace.length + 8 ≤ busDataLen :=
  Report.oneFrame_iff (by decide) (by decide) (by decide)

/-- A trace of 5000 bytes is cut to two bytes too many. -/
theorem not_oneFrame_traced : (tracedReport 5000).errorType.length ≤ 255 ∧
    (tracedReport 5000).errno < 256 ∧
    (tracedReport 5000).errorType.length + (tracedReport 5000).fileName.length ≤ busDataLen - 8 ∧
    ¬ (tracedReport 5000).OneFrame := by
  refine ⟨by decide, by decide, by decide, ?_⟩
  rintro ⟨payload, hpayload, hlength, -, -⟩
  rw [Report.payload_eq (by decide) (by decide) (by decide) (by decide),
    Except.ok.injEq] at hpayload
  rw [← hpayload, Report.length_fields_le_iff (by decide)] at hlength
  simp only [tracedReport, List.length_replicate] at hlength
  exact absurd hlength (by decide)

end ClickA
