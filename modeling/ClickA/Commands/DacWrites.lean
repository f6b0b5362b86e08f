import ClickA.Client.ReadBack
import ClickA.Commands.Acknowledged

/-!
# Writing the DAC channels

`CMD_PL_SET_FPGA` reads the registers back that it has written, and acknowledges the command by what
it reads. The DAC channels are read as zeros.

## Main definitions

* `Verified`: what is written is read back and acknowledged

## Main results

* `countErrors_zeros`: values that are compared with zeros
* `ensures_setFpga_dac`: what the command handler acknowledges
* `verified_iff`: a command is verified if and only if it writes zeros
-/

namespace ClickA.Commands

open Python Options Fpga Handler

/-- The read-back of the command handler returns the values that it has written, and the command is
acknowledged. -/
structure Verified (env : Env) (payload : Bytes) (startAddr numRegisters : ℕ) (writeData : List ℤ)
    (w : World) : Prop where
  readBack : Ensures (do
      let _ ← writeReg env startAddr (.list writeData)
      readReg env startAddr numRegisters)
    (fun value _ => valuesOf env value = some (writeData.map .int)) w
  acked : Ensures (setFpga env payload) (fun _ w' => AckedWith cmdPlSetFpga cmdAck w w') w

/-- The first channel is written, at half scale. -/
def dacPayload : Bytes := [1, 1, 246, 1, 0, 0, 2, 0]

theorem unpack_dacPayload : unpack (setFpgaFormat dacPayload.length) dacPayload =
    .ok [.int 1, .int 502, .int 1, .int 512] := rfl

-- a goal about a statement is not computed
attribute [local irreducible] pack unpack HKControlPacket.encode FPGAMapRequestPacket.encode

section Dac

variable {env : Env} {server : Fpga.Env} {w w' w'' : World}
  {cmdId cmdId' status status' startAddr numRegisters : ℕ} {writeData : List ℤ} {payload : Bytes}

/-- No value differs from a zero exactly when all are zero. -/
theorem countErrors_zeros {num m : ℕ} (hnum : num ≤ writeData.length) (hm : num ≤ m) :
    ∃ k, countErrors num (List.replicate m (.int 0)) writeData = .ok k ∧
      (k = 0 ↔ ∀ n ∈ writeData.take num, n = 0) := by
  induction num with
  | zero => exact ⟨0, rfl, by simp⟩
  | succ num ih =>
    obtain ⟨k, hk, hzero⟩ := ih (by omega) (by omega)
    have hread : index (List.replicate m (Value.int 0)) num = .ok (.int 0) := by
      rw [index_of_lt (by rw [List.length_replicate]; omega), List.getElem_replicate]
    refine ⟨_, by
      rw [countErrors_succ, hk, ok_bind, hread, ok_bind, index_of_lt (by omega), ok_bind]
      rfl, ?_⟩
    rw [List.take_succ_eq_append_getElem (by omega)]
    simp only [differs, List.mem_append, List.mem_singleton, or_imp, forall_and, forall_eq]
    rw [← hzero, Nat.add_eq_zero_iff]
    refine and_congr_right fun _ => ?_
    rw [Bool.toNat_eq_zero, decide_eq_false_iff_not, not_not, eq_comm]

/-- A write of DAC channels returns. -/
theorem ensures_writeReg_dac (hserves : Client.Serves env.fpga server) (hidle : Client.Idle w.fpga)
    (hstart : dac1A ≤ startAddr) (hend : startAddr + writeData.length ≤ dac1A + 8)
    (hfits : ∀ n ∈ writeData, 0 ≤ n ∧ n < 2 ^ 16) :
    Ensures (writeReg env startAddr (.list writeData))
      (fun _ w' => Client.Idle w'.fpga ∧ w'.hkSent = w.hkSent) w := by
  obtain ⟨fut, s₁, v, s₂, hasync, hwait, hidle'⟩ :=
    Client.exists_writeReg_dac hserves hidle hstart hend hfits
  unfold writeReg
  rw [Ensures, wp_bind, wp_onClient, wp_of_ok hasync, wp_onClient, wp_of_ok hwait]
  exact ⟨hidle', rfl⟩

/-- A read of DAC channels returns zeros. -/
theorem ensures_readReg_dac (hserves : Client.Serves env.fpga server) (hidle : Client.Idle w.fpga)
    (hstart : dac1A ≤ startAddr) (hend : startAddr + numRegisters ≤ dac1A + 8) :
    Ensures (readReg env startAddr numRegisters) (fun value w' =>
      value = Client.regValue (List.replicate numRegisters (.int 0)) ∧
        w'.hkSent = w.hkSent) w := by
  obtain ⟨fut, s₁, s₂, hasync, hwait, -⟩ := Client.exists_readReg_dac hserves hidle hstart hend
  unfold readReg
  rw [Ensures, wp_bind, wp_onClient, wp_of_ok hasync, wp_onClient, wp_of_ok hwait]
  exact ⟨rfl, rfl⟩

theorem valuesOf_zeros (env : Env) (n : ℕ) :
    valuesOf env (Client.regValue (List.replicate n (.int 0))) =
      if n = 0 then none else some (List.replicate n (.int 0)) := by
  rcases n with _ | _ | n
  · rfl
  · exact if_pos ⟨by omega, by omega⟩
  · rfl

/-- What is read back behind a write of DAC channels. -/
theorem ensures_readBack (hserves : Client.Serves env.fpga server) (hidle : Client.Idle w.fpga)
    (hstart : dac1A ≤ startAddr) (hend : startAddr + writeData.length ≤ dac1A + 8)
    (hfits : ∀ n ∈ writeData, 0 ≤ n ∧ n < 2 ^ 16) : Ensures (do
      let _ ← writeReg env startAddr (.list writeData)
      readReg env startAddr writeData.length)
    (fun value w' => value = Client.regValue (List.replicate writeData.length (.int 0)) ∧
      w'.hkSent = w.hkSent) w := by
  refine (ensures_writeReg_dac hserves hidle hstart hend hfits).bind ?_
  rintro v w' ⟨hidle', hsame⟩
  refine (ensures_readReg_dac hserves hidle' hstart hend).imp ?_
  rintro value w'' ⟨rfl, hsame'⟩
  exact ⟨rfl, hsame'.trans hsame⟩

/-- The command that is acknowledged, and its status. -/
def ackOf (writeData : List ℤ) : ℕ × ℕ :=
  if writeData = [] then (cmdPlGetFpga, cmdErr)
  else (cmdPlSetFpga, if ∀ n ∈ writeData, n = 0 then cmdAck else cmdErr)

/-- **The command handler acknowledges the zeros that it has written, and no other values.** -/
theorem ensures_setFpga_dac (hserves : Client.Serves env.fpga server)
    (hidle : Client.Idle w.fpga) {values : List Value} {rqNumber : ℕ}
    (hunpack : unpack (setFpgaFormat payload.length) payload = .ok values)
    (hints : ints values = (rqNumber : ℤ) :: startAddr :: writeData.length :: writeData)
    (hstart : dac1A ≤ startAddr) (hend : startAddr + writeData.length ≤ dac1A + 8)
    (hfits : ∀ n ∈ writeData, 0 ≤ n ∧ n < 2 ^ 16) : Ensures (setFpga env payload)
      (fun _ w' => AckedWith (ackOf writeData).1 (ackOf writeData).2 w w') w := by
  have hread := ensures_readBack hserves hidle hstart hend hfits
  unfold setFpga
  rw [hunpack, Ensures, wp_bind, wp_raise_ok, hints]
  dsimp only
  rw [if_pos rfl, Int.toNat_natCast, Int.toNat_natCast, ← bind_assoc]
  refine hread.bind ?_
  rintro value w' ⟨rfl, hsame⟩
  rw [valuesOf_zeros]
  unfold ackOf
  by_cases hnil : writeData = []
  -- nothing to read: the value is `None`, which the handler takes for a failed read
  · rw [if_pos (by rw [hnil]; rfl), if_pos hnil]
    exact ensures_ackedWith (by decide) (by decide) hsame
  · rw [if_neg (by simpa using hnil), if_neg hnil]
    obtain ⟨k, hk, hzero⟩ := countErrors_zeros (le_refl writeData.length) le_rfl
    rw [List.take_length] at hzero
    dsimp only
    unfold compareRegs
    rw [hk, Ensures, wp_bind, wp_raise_ok]
    simp only [hzero]
    exact ensures_ackedWith (by decide) (by split <;> decide) hsame

/-- The command is acknowledged as itself exactly when zeros are written. -/
theorem ackOf_eq_iff (writeData : List ℤ) : ackOf writeData = (cmdPlSetFpga, cmdAck) ↔
    writeData ≠ [] ∧ ∀ n ∈ writeData, n = 0 := by
  unfold ackOf
  by_cases hnil : writeData = []
  · rw [if_pos hnil]
    exact iff_of_false (by decide) fun h => h.1 hnil
  · rw [if_neg hnil, and_iff_right hnil]
    split
    · next hzero => exact iff_of_true rfl hzero
    · next hzero => exact iff_of_false (by decide) hzero

/-- The values that are read back are those that were written exactly when these are zeros. -/
theorem some_replicate_eq_iff (writeData : List ℤ) :
    some (List.replicate writeData.length (Value.int 0)) = some (writeData.map .int) ↔
      ∀ n ∈ writeData, n = 0 := by
  rw [Option.some.injEq, eq_comm, List.eq_replicate_iff]
  simp

/-- A wrong number of registers is not written. -/
theorem setFpga_eq_of_ne {values : List Value} {rqNumber : ℕ}
    (hunpack : unpack (setFpgaFormat payload.length) payload = .ok values)
    (hints : ints values = (rqNumber : ℤ) :: startAddr :: numRegisters :: writeData)
    (hne : numRegisters ≠ writeData.length) : setFpga env payload w = .ok () w := by
  have hraise : raise (.ok values) w = .ok values w := rfl
  unfold setFpga
  rw [hunpack, Python.bind_of_ok hraise, hints]
  dsimp only
  rw [if_neg fun h => hne (Int.natCast_inj.mp h)]
  rfl

/-- A command for DAC channels is verified exactly when it writes zeros. -/
theorem verified_of_idle (hserves : Client.Serves env.fpga server) (hidle : Client.Idle w.fpga)
    {values : List Value} {rqNumber : ℕ}
    (hunpack : unpack (setFpgaFormat payload.length) payload = .ok values)
    (hints : ints values = (rqNumber : ℤ) :: startAddr :: numRegisters :: writeData)
    (hstart : dac1A ≤ startAddr) (hend : startAddr + numRegisters ≤ dac1A + 8)
    (hfits : ∀ n ∈ writeData, 0 ≤ n ∧ n < 2 ^ 16) :
    Verified env payload startAddr numRegisters writeData w ↔
      numRegisters = writeData.length ∧ writeData ≠ [] ∧ ∀ n ∈ writeData, n = 0 := by
  by_cases hlength : numRegisters = writeData.length
  · subst hlength
    rw [and_iff_right rfl, ← ackOf_eq_iff]
    have hacked := ensures_setFpga_dac hserves hidle hunpack hints hstart hend hfits
    constructor
    · rintro ⟨-, hverified⟩
      obtain ⟨_, w', hacks, hacks'⟩ := hacked.of_allows hverified.allows
      exact Prod.ext_iff.mpr (hacks.inj hacks')
    · intro hack
      rw [hack] at hacked
      obtain ⟨hne, hzero⟩ := (ackOf_eq_iff writeData).mp hack
      refine ⟨(ensures_readBack hserves hidle hstart hend hfits).imp ?_, hacked⟩
      rintro value w' ⟨rfl, -⟩
      rw [valuesOf_zeros, if_neg (by simpa using hne)]
      exact (some_replicate_eq_iff writeData).mpr hzero
  · refine iff_of_false ?_ fun h => hlength h.1
    rintro ⟨-, hverified⟩
    rw [Ensures, wp_of_ok (setFpga_eq_of_ne hunpack hints hlength)] at hverified
    obtain ⟨raw, origin, payload, hsent, -⟩ := hverified
    simp at hsent

end Dac

/-- **A write of DAC channels is verified and acknowledged exactly when it writes zeros, and a read
returns what was last written exactly when that is zero**: where the answers are those of the
server, in time. -/
theorem verified_iff {env : Env} {server : Fpga.Env} {w : World} {payload : Bytes}
    {values : List Value} {rqNumber startAddr numRegisters : ℕ} {writeData : List ℤ}
    (hserves : Client.Serves env.fpga server) (hreached : Client.Reached env.fpga w.fpga)
    (hunpack : unpack (setFpgaFormat payload.length) payload = .ok values)
    (hints : ints values = (rqNumber : ℤ) :: startAddr :: numRegisters :: writeData)
    (hstart : dac1A ≤ startAddr) (hend : startAddr + numRegisters ≤ dac1A + 8)
    (hfits : ∀ n ∈ writeData, 0 ≤ n ∧ n < 2 ^ 16) :
    (Verified env payload startAddr numRegisters writeData w ↔
      numRegisters = writeData.length ∧ writeData ≠ [] ∧ ∀ n ∈ writeData, n = 0) ∧
    ∀ (writes : List FPGAMapRequestPacket) (req : FPGAMapRequestPacket) (s : Loop × Fpga.World),
      (∀ write ∈ writes, Client.DacWrite write) → Client.DacRead req →
        (Client.ReadsLast server s writes req ↔
          ∀ n, Client.lastWritten writes req.startAddr = some n → n = 0) :=
  ⟨verified_of_idle hserves (Client.idle_of_reached hserves.prompt hreached) hunpack hints hstart
      hend hfits,
    fun _ _ s hwrites hread => Client.readsLast_zero_iff hwrites hread s⟩

/-- A payload computer whose FPGA answers as the server does. -/
def dacEnv : Env := { quietEnv with fpga := Client.dacServer }

theorem verified_iff_dacPayload :
    (Verified dacEnv dacPayload 502 1 [512] {} ↔
      1 = [512].length ∧ ([512] : List ℤ) ≠ [] ∧ ∀ n ∈ ([512] : List ℤ), n = 0) ∧
    ∀ (writes : List FPGAMapRequestPacket) (req : FPGAMapRequestPacket) (s : Loop × Fpga.World),
      (∀ write ∈ writes, Client.DacWrite write) → Client.DacRead req →
        (Client.ReadsLast Client.echoes s writes req ↔
          ∀ n, Client.lastWritten writes req.startAddr = some n → n = 0) :=
  verified_iff (Client.serves_dacServer Client.echoes) ⟨[], rfl⟩ unpack_dacPayload rfl (by decide)
    (by decide) (by decide)

/-- Half scale is read back as zero. -/
theorem not_verified_dacPayload : ¬ Verified dacEnv dacPayload 502 1 [512] {} := by
  intro hverified
  have hzero := ((verified_of_idle (Client.serves_dacServer Client.echoes) Client.idle_init
    unpack_dacPayload rfl (by decide) (by decide) (by decide)).mp hverified).2.2 512 (by decide)
  exact absurd hzero (by decide)

end ClickA.Commands
