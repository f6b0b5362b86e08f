import ClickA.Client.Interface
import ClickA.Python.Text
import Mathlib.Data.NNRat.Floor

/-!
# What the periodic checks pack

`housekeeping.py`: the check of the system packs counters, periods and what `psutil` reads, one byte
or four bytes each, and the check of the FPGA packs the registers of its telemetry with their types.
A value that does not fit its bytes raises an exception.

## Main definitions

* `packAll`: integers packed one by one with the same code
* `Process`, `Readings`: what `psutil` reads
* `bootCount`, `Readings.memory`, `Readings.procInfo`: parts of the packet of the system
* `telemetryTypes`, `packAnswer`: the registers of the FPGA

## Main results

* `exists_packAll`, `packAll_error`: integers are packed if they fit
* `exists_procInfo`: processes always fit
* `exists_packAnswer`: so do registers that have their types
-/

namespace ClickA.Housekeeping

open Python Options
open Fpga (RegisterType baseType)

/-- `HK_PAT_ID` and so on: the identifiers of the processes. -/
def hkPatId : ℕ := 0x01
def hkFpgaId : ℕ := 0x02
def hkPktId : ℕ := 0x03
def hkDepktId : ℕ := 0x04
def hkSysId : ℕ := 0x05
def hkLbId : ℕ := 0x06
def hkChId : ℕ := 0x80

/-! ## The system -/

/-- `struct.pack` of integers, one by one with the same code: `B`, or `!L` as four bytes. -/
def packAll (c : Code) (ns : List ℕ) : Except Exn Bytes :=
  pack (network (ns.map fun _ => c)) (ns.map fun n : ℕ => .int n)

/-- `procs`: the identifiers, by the commands of the processes. -/
def procs : List (Bytes × ℕ) :=
  [(ascii "/root/bin/pat", hkPatId), (ascii "/root/commandhandler/commandhandler.py", hkChId),
    (ascii "/root/fpga/fpga.py", hkFpgaId), (ascii "/root/bus/packetizer.py", hkPktId),
    (ascii "/root/bus/depacketizer.py", hkDepktId),
    (ascii "/root/commandhandler/router.py", hkLbId),
    (ascii "/root/housekeeping/housekeeping.py", hkSysId)]

/-- A process of `psutil.process_iter`. The percentages are floats that are not negative. -/
structure Process where
  name : Bytes
  cmdline : List Bytes
  cpuPercent : NNRat
  memoryPercent : NNRat

/-- `p_name`: the script of a Python process, or PAT. -/
def Process.pName (p : Process) : Bytes :=
  if p.name = ascii "python" ∧ p.cmdline.length = 3 then p.cmdline.getD 2 []
  else if p.name = ascii "pat" ∧ p.cmdline.length = 1 then p.cmdline.getD 0 []
  else []

/-- The bytes of a process, if it is one of `procs`. `B` cuts the fraction of a percentage off. -/
def Process.info (p : Process) : List ℕ :=
  match procs.find? fun entry => entry.1 = p.pName with
  | some (_, id) => [id, ⌊p.cpuPercent⌋₊ % 256, ⌊p.memoryPercent⌋₊ % 256]
  | none => []

/-- What `psutil` reads for one check: `disk_usage`, `virtual_memory` and `process_iter`. -/
structure Readings where
  diskUsed : ℕ
  diskFree : ℕ
  vmemTotal : ℕ
  vmemAvailable : ℕ
  vmemUsed : ℕ
  processes : List Process

namespace Readings

variable (r : Readings)

/-- The usage of the disk and of the memory. -/
def memory : Except Exn Bytes :=
  packAll .I ([r.diskUsed, r.diskFree, r.vmemTotal, r.vmemAvailable, r.vmemUsed].map (· % 2 ^ 32))

/-- The processes of `procs`. -/
def procInfo : Except Exn Bytes := packAll .B (r.processes.flatMap Process.info)

end Readings

/-- The boot count: the number of lines of `id.txt`, if it can be read. The loop over no line leaves
the variable unassigned. -/
def bootCount : Option ℕ → Except Exn Bytes
  | none => .error .ioError
  | some count => if count = 0 then .error .nameError else packAll .I [count]

section System

variable {k : ℕ} {ns : List ℕ}

theorem packAll_cons (n : ℕ) (ns : List ℕ) : packAll (.uint k) (n :: ns) = (do
    let b ← packInt false k n
    let rest ← packAll (.uint k) ns
    return b ++ rest) := by
  have hx : Code.uint k ≠ .x := Code.noConfusion
  have hoff : ∀ (ns : List ℕ) (off off' : ℕ),
      packFrom false off (ns.map fun _ => Code.uint k) (ns.map fun n : ℕ => .int n) =
        packFrom false off' (ns.map fun _ => Code.uint k) (ns.map fun n : ℕ => .int n) := by
    intro ns
    induction ns with
    | nil => exact fun _ _ => rfl
    | cons n ns ih =>
      intro off off'
      rw [List.map_cons, List.map_cons, packFrom_cons hx, packFrom_cons hx, ih _ 0,
        ih (off' + _ + _) 0]
      rfl
  rw [packAll, pack, List.map_cons, List.map_cons, packFrom_cons hx, hoff ns _ 0]
  rfl

/-- Integers that fit are packed. -/
theorem exists_packAll (h : ∀ n ∈ ns, n < 256 ^ k) :
    ∃ raw, packAll (.uint k) ns = .ok raw ∧ raw.length = k * ns.length := by
  induction ns with
  | nil => exact ⟨[], rfl, rfl⟩
  | cons n ns ih =>
    obtain ⟨hn, hns⟩ := List.forall_mem_cons.mp h
    obtain ⟨raw, hraw, hlen⟩ := ih hns
    refine ⟨ordered false (leBytes k n) ++ raw, ?_, ?_⟩
    · rw [packAll_cons, packInt_natCast hn, hraw]
      rfl
    · rw [List.length_append, length_ordered, length_leBytes, hlen, List.length_cons, Nat.mul_succ,
        Nat.add_comm]

/-- One that does not fit raises an exception. -/
theorem packAll_error {n : ℕ} (hmem : n ∈ ns) (hn : 256 ^ k ≤ n) :
    ∃ e, packAll (.uint k) ns = .error e := by
  induction ns with
  | nil => exact absurd hmem List.not_mem_nil
  | cons m ns ih =>
    rw [packAll_cons]
    rcases List.mem_cons.mp hmem with rfl | hmem
    · exact ⟨_, by rw [packInt_natCast_of_le hn]; rfl⟩
    · obtain ⟨e, he⟩ := ih hmem
      cases packInt false k m with
      | error e' => exact ⟨e', rfl⟩
      | ok b => exact ⟨e, by rw [he]; rfl⟩

variable (r : Readings)

theorem exists_memory : ∃ raw, r.memory = .ok raw ∧ raw.length = 20 := by
  refine exists_packAll (k := 4) fun n hn => ?_
  obtain ⟨m, -, rfl⟩ := List.mem_map.mp hn
  exact Nat.mod_lt _ (by decide)

/-- The processes fit, with three bytes each. -/
theorem exists_procInfo : ∃ raw, r.procInfo = .ok raw ∧
    raw.length = (r.processes.flatMap Process.info).length := by
  have hbyte : ∀ n ∈ r.processes.flatMap Process.info, n < 256 ^ 1 := by
    intro n hn
    obtain ⟨p, -, hp⟩ := List.mem_flatMap.mp hn
    unfold Process.info at hp
    split at hp
    · next id hid =>
      have hids : ∀ entry ∈ procs, entry.2 < 256 := by decide
      rcases List.mem_cons.mp hp with rfl | hp
      · exact hids _ (List.mem_of_find?_eq_some hid)
      · rcases List.mem_pair.mp hp with rfl | rfl <;> exact Nat.mod_lt _ (by decide)
    · exact absurd hp List.not_mem_nil
  obtain ⟨raw, hraw, hlen⟩ := exists_packAll hbyte
  exact ⟨raw, hraw, hlen.trans (Nat.one_mul _)⟩

theorem length_bootCount {bootIds : Option ℕ} {raw : Bytes} (h : bootCount bootIds = .ok raw) :
    raw.length = 4 := by
  cases bootIds with
  | none => cases h
  | some count =>
    rw [bootCount] at h
    split_ifs at h
    exact length_of_pack h

end System

/-! ## The FPGA -/

/-- `FPGA_TELEM_TYPE`. -/
def telemetryTypes : List RegisterType := fpgaTelemRegs.map baseType

/-- The registers of an answer, each packed with its type in network order. -/
def packTelemetry : List RegisterType → List Value → Except Exn Bytes
  | _, [] => .ok []
  | [], _ :: _ => .error .indexError
  | type :: types, value :: values => do
    let codes ← Client.RegisterType.toCodes type
    let b ← pack (network codes) [value]
    let rest ← packTelemetry types values
    return b ++ rest

/-- The values that are packed of an answer. A string is the sequence of its characters; a single
register is no sequence, and neither is no answer. -/
def packAnswer : Client.RegValue → Except Exn Bytes
  | .list values => packTelemetry telemetryTypes values
  | .str s => packTelemetry telemetryTypes (s.map fun c => .str [c])
  | .none | .single _ => .error .typeError

/-- The value has the type of its register. A float is one that single precision holds. -/
def HasType : RegisterType → Value → Prop
  | .codes [.x, .x, .x, .uint 1], .int n => 0 ≤ n ∧ n < 256 ^ 1
  | .codes [.x, .x, .uint 2], .int n => 0 ≤ n ∧ n < 256 ^ 2
  | .codes [.uint 4], .int n => 0 ≤ n ∧ n < 256 ^ 4
  | .codes [.f], .float x => x.isInf = true ∨ x.toFloat32.isInf = false
  | _, _ => False

/-- The registers of the telemetry, each with its type. -/
def IsTelemetry : Client.RegValue → Prop
  | .list values => List.Forall₂ HasType telemetryTypes values
  | _ => False

/-- A value behind bytes that are left out. -/
theorem pack_padded {c : Code} {value : Value} {b : Bytes} (pad : ℕ)
    (hb : packOne false c value = .ok b) (hc : c ≠ .x) :
    pack (network (List.replicate pad .x ++ [c])) [value] = .ok (List.replicate pad 0 ++ b) := by
  have hpad : ∀ off, packFrom false off (List.replicate pad .x ++ [c]) [value] =
      .ok (List.replicate pad 0 ++ b) := by
    induction pad with
    | zero =>
      intro off
      rw [List.replicate_zero, List.nil_append, packFrom_cons hc, hb]
      simp [packFrom, gap]
    | succ pad ih =>
      intro off
      rw [List.replicate_succ, List.cons_append, packFrom, ih]
      rfl
  exact hpad 0

theorem exists_pack_of_hasType {type : RegisterType} {value : Value} (h : HasType type value) :
    ∃ codes b, Client.RegisterType.toCodes type = .ok codes ∧
      pack (network codes) [value] = .ok b ∧ b.length = 4 := by
  have hint {k : ℕ} {n : ℤ} (hn : 0 ≤ n ∧ n < 256 ^ k) :
      packOne false (.uint k) (.int n) = .ok (ordered false (leBytes k n.toNat)) := if_pos hn
  unfold HasType at h
  split at h
  · have hb := pack_padded 3 (hint h) Code.noConfusion
    exact ⟨_, _, rfl, hb, length_of_pack hb⟩
  · have hb := pack_padded 2 (hint h) Code.noConfusion
    exact ⟨_, _, rfl, hb, length_of_pack hb⟩
  · have hb := pack_padded 0 (hint h) Code.noConfusion
    exact ⟨_, _, rfl, hb, length_of_pack hb⟩
  · next x =>
    have hfloat : packOne false .f (.float x) =
        .ok (ordered false (leBytes 4 x.toFloat32.toBits.toNat)) := by
      rcases h with h | h <;> simp [packOne, packFloat, h]
    have hb := pack_padded 0 hfloat Code.noConfusion
    exact ⟨_, _, rfl, hb, length_of_pack hb⟩
  · exact h.elim

/-- Registers that have their types are packed, in four bytes each. -/
theorem exists_packTelemetry {types : List RegisterType} {values : List Value}
    (h : List.Forall₂ HasType types values) :
    ∃ raw, packTelemetry types values = .ok raw ∧ raw.length = 4 * values.length := by
  induction h with
  | nil => exact ⟨[], rfl, rfl⟩
  | cons hvalue _ ih =>
    obtain ⟨codes, b, hcodes, hb, hblen⟩ := exists_pack_of_hasType hvalue
    obtain ⟨raw, hraw, hlen⟩ := ih
    refine ⟨b ++ raw, ?_, ?_⟩
    · rw [packTelemetry, hcodes, ok_bind, hb, ok_bind, hraw]
      rfl
    · rw [List.length_append, hblen, hlen, List.length_cons]
      omega

/-- The answer of the FPGA fits. -/
theorem exists_packAnswer {answer : Client.RegValue} (h : IsTelemetry answer) :
    ∃ raw, packAnswer answer = .ok raw ∧ raw.length = 4 * fpgaTelemRegs.length := by
  cases answer with
  | list values =>
    obtain ⟨raw, hraw, hlen⟩ := exists_packTelemetry h
    have hlength : telemetryTypes.length = values.length := List.Forall₂.length_eq h
    refine ⟨raw, hraw, ?_⟩
    rw [hlen, ← hlength, telemetryTypes, List.length_map]
  | none => exact h.elim
  | str s => exact h.elim
  | single v => exact h.elim

end ClickA.Housekeeping
