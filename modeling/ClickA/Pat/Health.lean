import ClickA.Ipc.Control
import ClickA.Pat.Packets

/-!
# What PAT logs

`log` formats a line into a buffer that was not initialized, and `send_packet_pat_health` sends it
up to its first 0 to housekeeping, which takes it up to the first line feed. Without a line it is a
heartbeat.

## Main definitions

* `sendPacketPatHealth`, `log`: the message, if nothing is read behind the buffer
* `Health`: what PAT sends to housekeeping

## Main results

* `log_isSome_iff`: a line is sent exactly when a 0 is left behind it in the buffer
* `Health.decode_message`: housekeeping decodes the line that was logged
-/

namespace ClickA.Pat

open Python Cpp

/-- `pat_health_packet_struct`, with data in the zeroed array. -/
def patHealthPacket (pid : UInt32) (transmitFlag : ℕ) (data : Bytes) : Bytes :=
  image 0 [(.uint 4, leBytes 4 pid.toNat), (.uint 4, leBytes 4 transmitFlag),
    (.uint 4, leBytes 4 bufferSize), (.chars bufferSize, memcpy (List.replicate bufferSize 0) data)]

/-- `send_packet_pat_health`: the message. -/
def sendPacketPatHealth (pid : UInt32) : Option Bytes → Option Bytes
  | some data => do
    let n ← strlen data
    if n + 1 ≤ bufferSize then some (patHealthPacket pid 1 (data.take (n + 1))) else none
  | none => some (patHealthPacket pid 0 [])

/-- The line of a log without its end: the clock, and each message with a blank behind it. -/
def logLine (clock : Bytes) (msgs : List Bytes) : Bytes :=
  ascii "[" ++ clock ++ ascii "] " ++ msgs.flatMap (· ++ ascii " ")

/-- `log`, to PAT health: what does not fit the buffer is not written there. -/
def log (pid : UInt32) (garbage : ℕ → UInt8) (clock : Bytes) (msgs : List Bytes) : Option Bytes :=
  let buffer := memcpy (uninitialized garbage bufferSize) (logLine clock msgs ++ [0x0A])
  sendPacketPatHealth pid (some buffer)

/-- What PAT sends to housekeeping: a heartbeat, or a line of its log. -/
inductive Health
  | heartbeat
  | log (garbage : ℕ → UInt8) (clock : Bytes) (msgs : List Bytes)

namespace Health

def message (pid : UInt32) : Health → Option Bytes
  | heartbeat => sendPacketPatHealth pid none
  | log garbage clock msgs => Pat.log pid garbage clock msgs

/-- The texts are without a 0. -/
def Plain : Health → Prop
  | heartbeat => True
  | log _ clock msgs => 0 ∉ logLine clock msgs

/-- The lines that are for the telemetry: up to the first line feed. -/
def lines : Health → List Bytes
  | heartbeat => []
  | log _ clock msgs => [(logLine clock msgs).takeWhile (· ≠ 0x0A)]

end Health

/-! ## The buffer -/

section Buffer

variable {text : Bytes} {garbage : ℕ → UInt8} {pid : UInt32}

/-- The buffer, when a line is in it. -/
theorem memcpy_uninitialized (h : text.length < bufferSize) :
    memcpy (uninitialized garbage bufferSize) (text ++ [0x0A]) =
      (text ++ [0x0A]) ++ (uninitialized garbage bufferSize).drop (text.length + 1) := by
  have hlen : (text ++ [0x0A]).length = text.length + 1 := List.length_append
  rw [memcpy, length_uninitialized, List.take_of_length_le (hlen.trans_le h), hlen]

/-- The line feed is no end of the text in the buffer. -/
theorem zero_mem_memcpy_line (hplain : 0 ∉ text) :
    0 ∈ memcpy (uninitialized garbage bufferSize) (text ++ [0x0A]) ↔
      ∃ i, text.length < i ∧ i < bufferSize ∧ garbage i = 0 := by
  have hend : (0 : UInt8) ∉ text ++ [0x0A] := by
    rw [List.mem_append, List.mem_singleton, not_or]
    exact ⟨hplain, by decide⟩
  rw [mem_memcpy_uninitialized, or_iff_right fun hmem => hend (List.mem_of_mem_take hmem),
    List.length_append]
  rfl

/-- A text in a buffer is sent if its end is there. -/
theorem sendPacketPatHealth_some {data : Bytes} (hlen : data.length = bufferSize) :
    sendPacketPatHealth pid (some data) =
      if 0 ∈ data then some (patHealthPacket pid 1 (data.take (data.idxOf 0 + 1))) else none := by
  simp only [sendPacketPatHealth, strlen]
  by_cases hmem : 0 ∈ data
  · have hlt : data.idxOf 0 < data.length := List.idxOf_lt_length_of_mem hmem
    rw [if_pos hmem, if_pos hmem]
    exact if_pos (hlen ▸ hlt)
  · rw [if_neg hmem, if_neg hmem]
    rfl

end Buffer

section Log

variable {pid : UInt32} {garbage : ℕ → UInt8} {clock : Bytes} {msgs : List Bytes}

/-- **A line is sent exactly when a 0 was left behind it in the buffer**: `log` writes none
there. -/
theorem log_isSome_iff (hplain : 0 ∉ logLine clock msgs) :
    (log pid garbage clock msgs).isSome ↔
      ∃ i, (logLine clock msgs).length < i ∧ i < bufferSize ∧ garbage i = 0 := by
  have hlen := length_memcpy (uninitialized garbage bufferSize) (logLine clock msgs ++ [0x0A])
  rw [length_uninitialized] at hlen
  rw [log, sendPacketPatHealth_some hlen, ← zero_mem_memcpy_line hplain]
  split
  · next hmem => exact iff_of_true rfl hmem
  · next hmem => exact iff_of_false Bool.false_ne_true hmem

/-- The line is in the message, with its end. -/
theorem log_eq_some (hplain : 0 ∉ logLine clock msgs) {raw : Bytes}
    (h : log pid garbage clock msgs = some raw) : ∃ behind : Bytes,
      (logLine clock msgs ++ 0x0A :: behind).length ≤ bufferSize ∧
        raw = patHealthPacket pid 1 (logLine clock msgs ++ 0x0A :: behind) := by
  obtain ⟨i, hi, hlt, hzero⟩ := (log_isSome_iff hplain).mp (Option.isSome_iff_exists.mpr ⟨raw, h⟩)
  have hlen := length_memcpy (uninitialized garbage bufferSize) (logLine clock msgs ++ [0x0A])
  rw [length_uninitialized] at hlen
  have hmem := (zero_mem_memcpy_line hplain).mpr ⟨i, hi, hlt, hzero⟩
  have hend : (0 : UInt8) ∉ logLine clock msgs ++ [0x0A] := by
    rw [List.mem_append, List.mem_singleton, not_or]
    exact ⟨hplain, by decide⟩
  rw [log, sendPacketPatHealth_some hlen, if_pos hmem, Option.some.injEq] at h
  rw [memcpy_uninitialized (hi.trans hlt)] at h
  rw [List.idxOf_append_of_notMem hend, Nat.add_assoc, List.take_length_add_append,
    List.append_assoc, List.singleton_append] at h
  refine ⟨_, ?_, h.symm⟩
  rw [List.length_append, List.length_cons, List.length_take, List.length_drop,
    length_uninitialized]
  omega

end Log

/-! ## What housekeeping decodes -/

/-- The first part ends at the first separator. -/
theorem index_splitAt_zero (sep : UInt8) (s : Bytes) :
    index (splitAt sep s) 0 = .ok (s.takeWhile (· ≠ sep)) := by
  induction s with
  | nil => rfl
  | cons b s ih =>
    rw [splitAt]
    split
    · next hb => rw [List.takeWhile_cons_of_neg (by simpa using hb), index_cons_zero]
    · next hb =>
      rw [List.takeWhile_cons_of_pos (by simpa using hb)]
      cases hparts : splitAt sep s with
      | nil => exact absurd hparts (splitAt_ne_nil sep s)
      | cons part parts =>
        rw [hparts, index_cons_zero] at ih
        rw [index_cons_zero, Except.ok.inj ih]

/-- What is behind a separator does not matter. -/
theorem takeWhile_append_sep (sep : UInt8) (s behind : Bytes) :
    (s ++ sep :: behind).takeWhile (· ≠ sep) = s.takeWhile (· ≠ sep) := by
  induction s with
  | nil => exact List.takeWhile_cons_of_neg (by simp)
  | cons b s ih =>
    rw [List.cons_append, List.takeWhile_cons, List.takeWhile_cons, ih]

/-- A packet that is at most as long as its array is decoded. -/
theorem decode_patHealthPacket (pid : UInt32) (flag : ℕ) (data : Bytes) (hflag : flag < 2 ^ 32)
    (hdata : data.length ≤ bufferSize) : ∃ payload, data <+: payload ∧
      PATHealthPacket.decode (patHealthPacket pid flag data) =
        .ok ⟨payload.takeWhile (· ≠ 0x0A), flag == 1, pid.toNat, flag, bufferSize, payload⟩ := by
  have hlen : (memcpy (List.replicate bufferSize 0) data).length = bufferSize := by
    rw [length_memcpy, List.length_replicate]
  have hcopied : data <+: memcpy (List.replicate bufferSize 0) data := by
    rw [memcpy, List.length_replicate, List.take_of_length_le hdata]
    exact List.prefix_append _ _
  refine ⟨memcpy (List.replicate bufferSize 0) data, hcopied, ?_⟩
  have hbytes : patHealthPacket pid flag data = leBytes 4 pid.toNat ++ (leBytes 4 flag ++
      (leBytes 4 bufferSize ++ memcpy (List.replicate bufferSize 0) data)) := by
    simp [patHealthPacket, image, roundUp, Ty.align, Ty.size]
  rw [hbytes]
  generalize memcpy (List.replicate bufferSize 0) data = payload at hlen
  have hpack : pack (native [.I, .I, .I, .s bufferSize])
      [.int pid.toNat, .int flag, .int bufferSize, .str payload] = .ok (leBytes 4 pid.toNat ++
        (leBytes 4 flag ++ (leBytes 4 bufferSize ++ payload))) := by
    have hsize : bufferSize < 2 ^ 32 := by decide
    simp only [pack, packFrom, gap, Code.align, Code.size, packOne_I pid.toNat_lt, packOne_I hflag,
      packOne_I hsize]
    simp [packOne, ← hlen]
  have hunpack := unpack_pack (.cons (exact_int 4 _) (.cons (exact_int 4 _) (.cons (exact_int 4 _)
    (.cons (exact_str hlen) .nil)))) hpack
  have hraw : (leBytes 4 pid.toNat ++ (leBytes 4 flag ++ (leBytes 4 bufferSize ++ payload))).length
      - 12 = bufferSize := by
    simp only [List.length_append, length_leBytes, hlen]
    omega
  simp only [PATHealthPacket.decode, hraw, hunpack, ok_bind, checkAssert_of, index_splitAt_zero]
  simp

namespace Health

variable {pid : UInt32} {health : Health} {raw : Bytes}

/-- **Housekeeping decodes what PAT has sent**: a packet that is for the telemetry, with the line
that was logged, or one that is not. -/
theorem decode_message (hplain : health.Plain) (h : health.message pid = some raw) :
    ∃ packet, PATHealthPacket.decode raw = .ok packet ∧ packet.returnAddr = pid.toNat ∧
      (if packet.txBool then [packet.telemetryString] else []) = health.lines := by
  cases health with
  | heartbeat =>
    obtain ⟨payload, -, hdecode⟩ := decode_patHealthPacket pid 0 [] (by decide)
      (Nat.zero_le bufferSize)
    obtain rfl := Option.some.inj h
    exact ⟨_, hdecode, rfl, rfl⟩
  | log garbage clock msgs =>
    obtain ⟨behind, hlen, rfl⟩ := log_eq_some hplain h
    obtain ⟨_, ⟨zeros, rfl⟩, hdecode⟩ := decode_patHealthPacket pid 1 _ (by decide) hlen
    refine ⟨_, hdecode, rfl, ?_⟩
    show [_] = [_]
    rw [List.append_assoc, List.cons_append, List.singleton_inj]
    exact takeWhile_append_sep _ _ _

end Health

end ClickA.Pat
