import ClickA.Bus.Depacketizer
import ClickA.Driver.Phases

/-!
# The two scanners for the sync marker

The depacketizer counts the bytes of the marker that it has matched, and the driver shifts each byte
into a register of 32 bits. Both stop behind the first marker of the stream.

## Main definitions

* `syncScan`: the search of `spi_xfer_complete`, over the bytes it takes

## Main results

* `parse_of_syncScan`, `parse_of_syncScan_none`: the parsing loop searches as `syncScan` does
* `scanners_stop`: both scanners stop behind the first marker, or not at all
-/

namespace ClickA.Driver

open Python (Bytes)
open Stream

/-- The search for the marker: `SYNC_VALID` before each byte, and `SYNC_UPDATE` with it. The result
is the rest of the stream, or nothing when it ends first. -/
def syncScan (sync : BitVec 32) : Bytes → Option Bytes
  | [] => if sync = packetSyncMarker then some [] else none
  | b :: l => if sync = packetSyncMarker then some (b :: l) else syncScan (shiftIn sync b) l

section SyncScan

variable {sync : BitVec 32} {p l r : Bytes}

theorem syncScan_of_eq (h : sync = packetSyncMarker) (l : Bytes) : syncScan sync l = some l := by
  cases l <;> simp [syncScan, h]

/-- The search from the middle of a stream, of which `p` has been taken. -/
theorem syncScan_eq_some_iff (hsync : sync = register p) :
    syncScan sync l = some r ↔ ∃ q, l = q ++ r ∧ Completes Bus.ccsdsSync p q := by
  induction l generalizing sync p with
  | nil =>
    by_cases hp : Bus.ccsdsSync <:+ p
    · have hfound : sync = packetSyncMarker := hsync.trans ((register_eq_marker_iff p).mpr hp)
      simp only [syncScan_of_eq hfound, completes_nil_iff hp, Option.some.injEq, exists_eq_right,
        List.nil_append]
    · have hne : sync ≠ packetSyncMarker := hsync ▸ mt (register_eq_marker_iff p).mp hp
      simp only [syncScan, if_neg hne, reduceCtorEq, false_iff, not_exists, not_and]
      intro q hq hc
      rw [(List.append_eq_nil_iff.mp hq.symm).1] at hc
      exact hp (by simpa using hc.1)
  | cons b l ih =>
    by_cases hp : Bus.ccsdsSync <:+ p
    · have hfound : sync = packetSyncMarker := hsync.trans ((register_eq_marker_iff p).mpr hp)
      simp only [syncScan_of_eq hfound, completes_nil_iff hp, Option.some.injEq, exists_eq_right,
        List.nil_append]
    · have hne : sync ≠ packetSyncMarker := hsync ▸ mt (register_eq_marker_iff p).mp hp
      have hstep : shiftIn sync b = register (p ++ [b]) := by rw [hsync, register_concat]
      rw [syncScan, if_neg hne, ih hstep]
      constructor
      · rintro ⟨q, rfl, hq⟩
        exact ⟨b :: q, rfl, (completes_cons_iff hp).mpr hq⟩
      · rintro ⟨_ | ⟨c, q⟩, hl, hq⟩
        · exact absurd (by simpa using hq.1) hp
        · obtain ⟨rfl, rfl⟩ := List.cons.inj hl
          exact ⟨q, rfl, (completes_cons_iff hp).mp hq⟩

/-- **The register finds the first occurrence.** -/
theorem syncScan_eq_afterFirst (l : Bytes) : syncScan 0 l = afterFirst Bus.ccsdsSync l := by
  refine Option.ext fun r => ?_
  rw [syncScan_eq_some_iff (p := []) (show (0 : BitVec 32) = register [] from rfl),
    afterFirst_eq_some_iff]
  simp only [Completes, FirstEnd, List.nil_append]

end SyncScan

/-! ## The parsing loop -/

section Parse

variable {accepted : Bool} {d : SpiData}

/-- The parsing loop goes on behind the byte at which the search stops. -/
theorem parse_of_syncScan {rest : Bytes} (hsync : d.sync = 0)
    (h : syncScan 0 (bytesAt d.rx d.readPtr d.readLen) = some rest) :
    parse accepted d =
      if (atHeader d (d.readLen - rest.length)).readLen < packetHeaderLen then
        .returned (requestMore accepted (atHeader d (d.readLen - rest.length)) packetHeaderLen)
      else parse accepted (atHeader d (d.readLen - rest.length)) := by
  obtain ⟨q, hq, hc⟩ := (syncScan_eq_some_iff (p := []) rfl).mp h
  have hlen : d.readLen = q.length + rest.length := by
    rw [← List.length_append, ← hq, length_bytesAt]
  have hj : d.readLen - rest.length = q.length := by omega
  have htaken : bytesAt d.rx d.readPtr q.length = q := by
    rw [← take_bytesAt d.rx d.readPtr (show q.length ≤ d.readLen by omega), hq, List.take_left]
  rw [hj]
  exact parse_of_completes (p := []) hsync (by decide) (by omega) (htaken.symm ▸ hc)

/-- A search that does not stop takes all bytes. -/
theorem parse_of_syncScan_none (hsync : d.sync = 0)
    (h : syncScan 0 (bytesAt d.rx d.readPtr d.readLen) = none) :
    parse accepted d = .left { d with
      sync := register (bytesAt d.rx d.readPtr d.readLen)
      readLen := 0
      readPtr := d.readPtr + d.readLen } := by
  refine parse_of_not_suffix (p := []) hsync fun j hj hm => ?_
  rw [List.nil_append, ← take_bytesAt d.rx d.readPtr hj] at hm
  obtain ⟨i, -, hfirst⟩ := exists_firstEnd_take hm
  have hsome : syncScan 0 (bytesAt d.rx d.readPtr d.readLen) =
      some ((bytesAt d.rx d.readPtr d.readLen).drop i) := by
    rw [syncScan_eq_afterFirst]
    exact afterFirst_eq_some_iff.mpr ⟨_, (List.take_append_drop i _).symm, hfirst⟩
  rw [hsome] at h
  cases h

end Parse

/-! ## Both scanners -/

theorem awaitSync_eq (l : Bytes) : Bus.Depacketizer.awaitSync l =
    match afterFirst Bus.ccsdsSync l with
    | some rest => .ok rest
    | none => .error .blocked := by
  have hscan : scan Bus.ccsdsSync 0 l = afterFirst Bus.ccsdsSync l :=
    scan_eq_afterFirst Bus.ccsdsSync_head l
  unfold Bus.Depacketizer.awaitSync
  cases hafter : afterFirst Bus.ccsdsSync l with
  | none => simp only [hscan, hafter]
  | some rest => simp only [hscan, hafter]

/-- **Both scanners stop behind the first marker of a stream**, and neither stops if there is
none. -/
theorem scanners_stop :
    (∀ pre rest : Bytes,
      (Bus.Depacketizer.awaitSync (pre ++ rest) = .ok rest ↔ FirstEnd Bus.ccsdsSync pre) ∧
      (syncScan 0 (pre ++ rest) = some rest ↔ FirstEnd Bus.ccsdsSync pre)) ∧
    (∀ stream : Bytes,
      (Bus.Depacketizer.awaitSync stream = .error .blocked ↔ ¬ Bus.ccsdsSync <:+: stream) ∧
      (syncScan 0 stream = none ↔ ¬ Bus.ccsdsSync <:+: stream)) := by
  refine ⟨fun pre rest => ⟨?_, ?_⟩, fun stream => ⟨?_, ?_⟩⟩
  · rw [awaitSync_eq, ← afterFirst_append_eq_some_iff (r := rest)]
    cases afterFirst Bus.ccsdsSync (pre ++ rest) <;> simp
  · rw [syncScan_eq_afterFirst, afterFirst_append_eq_some_iff]
  · rw [awaitSync_eq, ← afterFirst_eq_none_iff]
    cases afterFirst Bus.ccsdsSync stream <;> simp
  · rw [syncScan_eq_afterFirst, afterFirst_eq_none_iff]

end ClickA.Driver
