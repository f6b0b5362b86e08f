import ClickA.Ipc.FpgaPackets
import Mathlib.Data.List.TakeWhile

/-!
# The subscription of the PAT process

`main.cpp`: the socket of the answers of the FPGA server is subscribed to the bytes of the process
id, as a string. A string ends at its first zero byte, and a process id below `2 ^ 22` has one.

## Main definitions

* `cString`: a string of C
* `subscription`: what the answer socket is subscribed to
* `Delivered`: a message that passes the subscription

## Main results

* `delivered_iff_mod`: an answer passes if the low bytes of its return address are those of the
  process id
* `delivered_own`: the own answers pass
* `exists_foreign_delivered`: for each process id, another client's answers pass as well
* `delivered_iff_own_iff`: when an answer passes exactly if it is the process's own
-/

namespace ClickA.Pat

open Python (Bytes leBytes leNat leNat_lt leNat_leBytes length_leBytes)

/-! ## The low bytes of a number -/

theorem take_leBytes {j k : ℕ} (h : j ≤ k) (n : ℕ) : (leBytes k n).take j = leBytes j n := by
  induction j generalizing k n with
  | zero => simp [leBytes]
  | succ j ih =>
    cases k with
    | zero => omega
    | succ k => simp [leBytes, ih (Nat.le_of_succ_le_succ h)]

/-- The number of the low bytes. -/
theorem leNat_leBytes_mod (k n : ℕ) : leNat (leBytes k n) = n % 256 ^ k := by
  induction k generalizing n with
  | zero => simp [leBytes, leNat, Nat.mod_one]
  | succ k ih =>
    have hbyte : (UInt8.ofNat n).toNat = n % 256 := UInt8.toNat_ofNat'
    rw [leBytes, leNat, ih, hbyte, Nat.pow_succ, Nat.mul_comm (256 ^ k) 256, Nat.mod_mul]

theorem leBytes_eq_iff {k m n : ℕ} : leBytes k m = leBytes k n ↔ m % 256 ^ k = n % 256 ^ k := by
  constructor
  · intro h
    rw [← leNat_leBytes_mod, ← leNat_leBytes_mod, h]
  · intro h
    have hlow (a : ℕ) : leBytes k a = leBytes k (a % 256 ^ k) := by
      have hbytes := Python.leBytes_leNat (leBytes k a)
      rw [length_leBytes, leNat_leBytes_mod] at hbytes
      exact hbytes.symm
    rw [hlow m, hlow n, h]

/-! ## The filter -/

/-- The characters before the first zero byte, where a string of C ends. -/
def cString (chars : Bytes) : Bytes := chars.takeWhile (· ≠ 0)

/-- `subscription`: the process id is copied into an array of characters, and the socket is
subscribed to the string that begins there. Behind the array stands what is in memory. -/
def subscription (patPid : UInt32) (behind : Bytes) : Bytes :=
  cString (leBytes 4 patPid.toNat ++ behind)

/-- A message passes if it begins with what the socket is subscribed to. -/
def Delivered (patPid : UInt32) (behind message : Bytes) : Prop :=
  subscription patPid behind <+: message

instance (patPid : UInt32) (behind message : Bytes) : Decidable (Delivered patPid behind message) :=
  inferInstanceAs (Decidable (_ <+: _))

/-- How many bytes of the process id stand before the first that is zero. -/
def subscribedBytes (patPid : UInt32) : ℕ := (cString (leBytes 4 patPid.toNat)).length

variable {patPid : UInt32} {behind : Bytes}
  {returnAddr rqNumber rwFlag errorFlag startAddr size : ℕ} {readData raw : Bytes}

theorem cString_isPrefix (chars : Bytes) : cString chars <+: chars := List.takeWhile_prefix _

theorem subscribedBytes_le (patPid : UInt32) : subscribedBytes patPid ≤ 4 := by
  have hle := (cString_isPrefix (leBytes 4 patPid.toNat)).length_le
  rwa [length_leBytes] at hle

theorem cString_eq (patPid : UInt32) :
    cString (leBytes 4 patPid.toNat) = leBytes (subscribedBytes patPid) patPid.toNat := by
  rw [← take_leBytes (subscribedBytes_le patPid)]
  exact List.prefix_iff_eq_take.mp (cString_isPrefix _)

/-- The highest byte of a process id below `2 ^ 22` is zero, so that it is never compared. -/
theorem subscribedBytes_lt (hpid : patPid.toNat < 2 ^ 22) : subscribedBytes patPid < 4 := by
  apply lt_of_le_of_ne (subscribedBytes_le patPid)
  intro hall
  have hbytes : cString (leBytes 4 patPid.toNat) = leBytes 4 patPid.toNat :=
      hall ▸ cString_eq patPid
  have hnonzero : ∀ b ∈ cString (leBytes 4 patPid.toNat), b ≠ 0 := by
    intro b hb
    simpa using List.mem_takeWhile_imp hb
  have hlast : (0 : UInt8) ∈ leBytes 4 patPid.toNat := by
    have hzero : patPid.toNat / 256 / 256 / 256 = 0 := by omega
    simp [leBytes, hzero]
  rw [← hbytes] at hlast
  exact hnonzero 0 hlast rfl

/-- The string ends inside the array. -/
theorem subscription_eq (hpid : patPid.toNat < 2 ^ 22) :
    subscription patPid behind = leBytes (subscribedBytes patPid) patPid.toNat := by
  have hinside : (cString (leBytes 4 patPid.toNat)).length ≠ (leBytes 4 patPid.toNat).length := by
    rw [length_leBytes]
    exact (subscribedBytes_lt hpid).ne
  calc subscription patPid behind
      = cString (leBytes 4 patPid.toNat) := by
        simp only [subscription, cString, List.takeWhile_append]
        exact if_neg hinside
    _ = _ := cString_eq patPid

/-- Packets begin with their return address, and only the subscribed bytes of it are compared. -/
theorem delivered_iff_mod (hpid : patPid.toNat < 2 ^ 22) {rest : Bytes}
    (hraw : raw = leBytes 4 returnAddr ++ rest) : Delivered patPid behind raw ↔
      returnAddr % 256 ^ subscribedBytes patPid = patPid.toNat % 256 ^ subscribedBytes patPid := by
  have htake : raw.take (subscribedBytes patPid) = leBytes (subscribedBytes patPid) returnAddr := by
    rw [hraw, List.take_append_of_le_length (by simpa using subscribedBytes_le patPid)]
    exact take_leBytes (subscribedBytes_le patPid) returnAddr
  calc Delivered patPid behind raw
      ↔ leBytes (subscribedBytes patPid) patPid.toNat = raw.take (subscribedBytes patPid) := by
        rw [Delivered, subscription_eq hpid, List.prefix_iff_eq_take, length_leBytes]
    _ ↔ leBytes (subscribedBytes patPid) patPid.toNat =
          leBytes (subscribedBytes patPid) returnAddr := by rw [htake]
    _ ↔ _ := leBytes_eq_iff.trans eq_comm

/-- An answer begins with its return address. -/
theorem exists_append_of_encode (h : FPGAMapAnswerPacket.encode returnAddr rqNumber rwFlag errorFlag
    startAddr size readData = .ok raw) : ∃ rest, raw = leBytes 4 returnAddr ++ rest := by
  have hsize : readData.length = size := by
    by_contra hne
    rw [FPGAMapAnswerPacket.encode, Python.assertThat, if_neg hne] at h
    exact absurd h (by simp)
  subst hsize
  obtain ⟨-, -, -, hraw⟩ := FPGAMapAnswerPacket.of_encode h
  rw [FPGAMapRequestPacket.headerBytes, List.append_assoc] at hraw
  exact ⟨_, hraw⟩

/-- The own answers pass. -/
theorem delivered_own (hpid : patPid.toNat < 2 ^ 22)
    (h : FPGAMapAnswerPacket.encode patPid.toNat rqNumber rwFlag errorFlag startAddr size readData =
      .ok raw) : Delivered patPid behind raw := by
  obtain ⟨rest, hraw⟩ := exists_append_of_encode h
  exact (delivered_iff_mod hpid hraw).mpr rfl

/-- **No process id keeps all other clients out**: with another byte of the address above those
that are compared, an answer to another client passes. -/
theorem exists_foreign_delivered (hpid : patPid.toNat < 2 ^ 22) :
    ∃ returnAddr, returnAddr < 2 ^ 32 ∧ returnAddr ≠ patPid.toNat ∧
      ∀ {rqNumber rwFlag errorFlag startAddr size : ℕ} {readData raw : Bytes},
        FPGAMapAnswerPacket.encode returnAddr rqNumber rwFlag errorFlag startAddr size readData =
          .ok raw → Delivered patPid behind raw := by
  refine ⟨patPid.toNat + 256 ^ 3, by omega, by omega, fun h => ?_⟩
  obtain ⟨rest, hraw⟩ := exists_append_of_encode h
  have hdvd : 256 ^ subscribedBytes patPid ∣ 256 ^ 3 :=
    Nat.pow_dvd_pow 256 (Nat.le_of_lt_succ (subscribedBytes_lt hpid))
  rw [delivered_iff_mod hpid hraw, Nat.add_mod, Nat.mod_eq_zero_of_dvd hdvd, Nat.add_zero,
    Nat.mod_mod]

/-- **An answer passes exactly if it is the process's own, unless it is to another client whose
address has the same bytes up to the first zero byte of the process id.** -/
theorem delivered_iff_own_iff (hpid : patPid.toNat < 2 ^ 22)
    (h : FPGAMapAnswerPacket.encode returnAddr rqNumber rwFlag errorFlag startAddr size readData =
      .ok raw) :
    (Delivered patPid behind raw ↔ returnAddr = patPid.toNat) ↔
      (returnAddr = patPid.toNat ∨ returnAddr % 256 ^ subscribedBytes patPid ≠
        patPid.toNat % 256 ^ subscribedBytes patPid) := by
  obtain ⟨rest, hraw⟩ := exists_append_of_encode h
  rw [delivered_iff_mod hpid hraw]
  constructor
  · intro hiff
    by_cases hown : returnAddr = patPid.toNat
    · exact .inl hown
    · exact .inr (mt hiff.mp hown)
  · rintro (hown | hother)
    · simp [hown]
    · refine ⟨fun hsame => absurd hsame hother, fun hown => ?_⟩
      rw [hown]

/-- An answer with one value to the client with the address 66536, at the process id 1000. -/
theorem delivered_iff_own_foreign :
    (Delivered 1000 [] (leBytes 4 66536 ++ [7, 0, 5, 0, 4, 0, 0, 0, 1, 2, 3, 4]) ↔ 66536 = 1000) ↔
      (66536 = 1000 ∨ 66536 % 256 ^ subscribedBytes 1000 ≠ 1000 % 256 ^ subscribedBytes 1000) := by
  have h : FPGAMapAnswerPacket.encode 66536 7 0 0 5 4 [1, 2, 3, 4] =
      .ok (leBytes 4 66536 ++ [7, 0, 5, 0, 4, 0, 0, 0, 1, 2, 3, 4]) := by decide
  have hpid : (1000 : UInt32).toNat < 2 ^ 22 := by decide
  exact delivered_iff_own_iff hpid h

/-- The same answer is delivered to the process, though it is not the process's own. -/
theorem delivered_foreign : ¬ ∀ (patPid : UInt32) (behind : Bytes)
    (returnAddr rqNumber rwFlag errorFlag startAddr size : ℕ) (readData raw : Bytes),
    patPid.toNat < 2 ^ 22 →
      FPGAMapAnswerPacket.encode returnAddr rqNumber rwFlag errorFlag startAddr size readData =
        .ok raw → (Delivered patPid behind raw ↔ returnAddr = patPid.toNat) := by
  intro hclaim
  have h : FPGAMapAnswerPacket.encode 66536 7 0 0 5 4 [1, 2, 3, 4] =
      .ok (leBytes 4 66536 ++ [7, 0, 5, 0, 4, 0, 0, 0, 1, 2, 3, 4]) := by decide
  have hpid : (1000 : UInt32).toNat < 2 ^ 22 := by decide
  have hdelivered : Delivered 1000 []
      (leBytes 4 66536 ++ [7, 0, 5, 0, 4, 0, 0, 0, 1, 2, 3, 4]) := by
    decide
  have hown := (hclaim 1000 [] 66536 7 0 0 5 4 [1, 2, 3, 4] _ hpid h).mp hdelivered
  exact absurd hown (by decide)

end ClickA.Pat
