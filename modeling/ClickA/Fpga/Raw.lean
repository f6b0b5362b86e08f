import ClickA.Fpga.Virtual

/-!
# Registers of the FPGA

A request that starts below 128 is one transfer. Its values are encoded by the types of its range,
so that the answer exists only for a range of registers of the FPGA.

## Main definitions

* `requestWords`: the words of the transfer

## Main results

* `valuesIn_raw`: the values of such a range are integers
* `serveRaw_eq`: the answer takes the values and counts the errors of the transfer
* `exists_encodeRegs_raw_iff`: the answer is encoded when the range ends below 128
* `raises_serveRaw`: otherwise the server raises
-/

namespace ClickA.Fpga

open Python Options

section Raw

variable {env : Env} {req : FPGAMapRequestPacket} {w : World} {regs : Edfa.Regs}

/-- A list of integers, as values. -/
theorem exists_map_int {values : List Value} (h : ∀ v ∈ values, ∃ n : ℤ, v = .int n) :
    ∃ ns : List ℤ, values = ns.map .int := by
  induction values with
  | nil => exact ⟨[], rfl⟩
  | cons v values ih =>
    obtain ⟨n, rfl⟩ := h v List.mem_cons_self
    obtain ⟨ns, rfl⟩ := ih fun v hv => h v (List.mem_cons_of_mem _ hv)
    exact ⟨n :: ns, rfl⟩

/-- The values of a range of registers of the FPGA are integers. -/
theorem valuesIn_raw (hreq : req.Valid) (h : req.startAddr + registerNumber req ≤ 128) :
    ∃ ns : List ℤ, valuesIn req = .ok (ns.map .int) ∧ ns.length = registerNumber req := by
  obtain ⟨values, hvalues, hall⟩ := valuesIn_spec (P := fun _ v => ∃ n : ℤ, v = .int n) hreq
    (fun _ _ => ⟨0, rfl⟩) fun addr haddr pl hlen => by
      have hlt := (mem_addresses_iff addr).mp haddr
      have htype : registerType addr = .codes [.x, .x, .x, .B] := registerType_raw (by omega)
      obtain ⟨n, hn, -⟩ := decodeReg_int .byte htype hlen
      exact ⟨_, hn, n, rfl⟩
  obtain ⟨ns, rfl⟩ := exists_map_int fun v hv => by
    obtain ⟨i, hi, rfl⟩ := List.getElem_of_mem hv
    have hi' : i < (addresses req).length := hall.length_eq ▸ hi
    exact hall.get hi' hi
  refine ⟨ns, hvalues, ?_⟩
  rw [← length_valuesIn hvalues, List.length_map]

/-- The words of the transfer of a request. -/
def rawWords (req : FPGAMapRequestPacket) (ns : List ℤ) : Bytes :=
  words req.rwFlag req.startAddr ns

/-- The errors and values of the transfer of a request. -/
def rawResults (env : Env) (w : World) (req : FPGAMapRequestPacket) (ns : List ℤ) :
    List Bool × List UInt8 :=
  results (rawWords req ns) (env.replyTo w (rawWords req ns))

theorem serveRaw_eq {ns : List ℤ} (hlen : ns.length = registerNumber req) :
    serveRaw env req (ns.map .int) w =
      answer req (.list ((rawResults env w req ns).2.map fun b => .int b.toNat))
        ((rawResults env w req ns).1.count true) (w.sent (rawWords req ns)) := by
  have htransfer : transfer env (addresses req) (List.replicate (registerNumber req) req.rwFlag)
      (ns.map .int) w = .ok (rawResults env w req ns) (w.sent (rawWords req ns)) := by
    unfold addresses
    rw [← hlen]
    exact transfer_eq req.rwFlag req.startAddr ns
  unfold serveRaw
  show EStateM.bind (transfer env _ _ _) _ w = _
  unfold EStateM.bind
  rw [htransfer]

theorem length_rawResults_snd (env : Env) (w : World) (ns : List ℤ) :
    (rawResults env w req ns).2.length = ns.length :=
  length_results_snd req.rwFlag req.startAddr ns

/-- Bytes are encoded as the values of a range exactly when it ends below 128. -/
theorem exists_encodeRegs_raw_iff {addr : ℕ} (haddr : addr ≤ 128) (vs : List UInt8) :
    (∃ raw, encodeRegs addr (vs.map fun b => .int b.toNat) = .ok raw) ↔ addr + vs.length ≤ 128 := by
  rw [encodeRegs_eq_ok_iff]
  simp only [List.length_map, List.getElem_map]
  constructor
  · intro h
    by_contra hlt
    obtain ⟨raw, hraw⟩ := h (128 - addr) (by omega)
    have htype : registerType (addr + (128 - addr)) = .codes [.x, .x, .x, .x] := by
      rw [Nat.add_sub_cancel' haddr]
      decide
    rw [encodeReg_of_type htype] at hraw
    simp [pack, packFrom] at hraw
  · intro hle i hi
    rw [encodeReg_int_iff .byte (registerType_raw (by omega))]
    have hbyte := vs[i].toNat_lt
    omega

theorem encodePayload_list {addr : ℕ} (h : registerType addr ≠ .str) (vs : List Value) :
    encodePayload addr (.list vs) = encodeRegs addr vs := if_neg h

theorem registerType_raw_ne_str {addr : ℕ} (h : addr < 128) : registerType addr ≠ .str := by
  rw [registerType_raw h]
  exact RegisterType.noConfusion

/-- A range that runs out of the registers of the FPGA is not answered. -/
theorem raises_serveRaw (h128 : req.startAddr < 128)
    (hend : 128 < req.startAddr + registerNumber req) {values : List Value}
    (hlen : values.length = registerNumber req) : Raises (serveRaw env req values) w := by
  unfold serveRaw
  dsimp only
  cases hdata : encAll (addresses req) (List.replicate (registerNumber req) req.rwFlag) values with
  | error e =>
    refine Raises.bind ?_
    unfold transfer
    rw [hdata]
    trivial
  | ok dataIn =>
    have hbytes := length_encAll hdata (by rw [List.length_replicate, length_addresses])
      (by rw [hlen, length_addresses])
    rw [length_addresses] at hbytes
    have hvalues := length_results env w hbytes
    rw [Raises, Allows, wp_bind, wp_of_ok (transfer_of_encAll hdata)]
    refine raises_answer (mt ?_ (Nat.not_le.mpr hend)) _ _
    rw [encodePayload_list (registerType_raw_ne_str h128)]
    intro hencode
    rw [← hvalues]
    exact (exists_encodeRegs_raw_iff h128.le _).mp hencode

/-- The words of the transfer of a request, as the server computes them. -/
def requestWords (req : FPGAMapRequestPacket) : Except Exn Bytes := do
  let values ← valuesIn req
  encAll (addresses req) (List.replicate (registerNumber req) req.rwFlag) values

/-- A request of registers of the FPGA is served by a transfer. -/
theorem serve_raw_eq (h128 : req.startAddr < 128) : serve env req regs = (do
    let values ← lift (valuesIn req)
    serveRaw env req values
    return regs) := by
  unfold serve edfaInStr edfaOutStr
  rw [if_neg (by omega), if_neg (by omega)]
  simp only [if_pos h128]

/-- Of a request, an iteration serves what is decoded. -/
theorem wp_iteration_message {state : Loop} {raw : Bytes} {Q : World → Prop}
    {E : Exn → World → Prop} (hdecode : FPGAMapRequestPacket.decode raw = .ok req) :
    Wp (iteration env state (.message raw)) (fun _ w' => Q w') E w ↔
      Wp (serve env req state.regBuffer) (fun _ w' => Q w') E w := by
  unfold iteration
  dsimp only
  rw [hdecode, wp_bind, wp_lift_ok, wp_bind]
  rfl

theorem requestWords_eq {ns : List ℤ} (hvalues : valuesIn req = .ok (ns.map .int))
    (hlen : ns.length = registerNumber req) : requestWords req = .ok (rawWords req ns) := by
  unfold requestWords addresses rawWords
  rw [hvalues, ok_bind, ← hlen]
  exact encAll_int req.rwFlag req.startAddr ns

end Raw

end ClickA.Fpga
