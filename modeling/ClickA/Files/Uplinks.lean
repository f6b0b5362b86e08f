import ClickA.Files.Staging

/-!
# Uplinks

Each uplink of a chunk adds it to the folder of its transfer, in place of one with the same numbers.

## Main definitions

* `Carries`: the payload of a command carries a chunk
* `uplinks`: the chunks of commands are uplinked, one after the other

## Main results

* `ensures_uplinkFile`: an uplink adds its chunk
* `ensures_uplinks`: after uplinks the folder has the chunks that they carried
-/

namespace ClickA.Files

open Python Python.Disk

/-- The payload of a command carries a chunk. -/
def Carries (payload : Bytes) (transferId : ℕ) (key : Key) (data : Bytes) : Prop :=
  ∃ chunkLen chunkPayload, unpackChunk payload =
    .ok (transferId, key.1, key.2, chunkLen, chunkPayload) ∧ chunkPayload.take chunkLen = data

/-- The chunks of commands are uplinked. -/
@[irreducible]
def uplinks (env : Env) (payloads : List Bytes) : Stmt Unit := payloads.forM (uplinkFile env)

variable {env : Env} {h : Host} {disk : Disk} {sent : List Bytes} {transferId : ℕ}
  {chunks : Chunks} {key key' : Key} {data data' payload : Bytes} {payloads : List Bytes}

/-- A payload carries one chunk. -/
theorem Carries.inj (h : Carries payload transferId key data)
    (h' : Carries payload transferId key' data') : key = key' ∧ data = data' := by
  obtain ⟨chunkLen, chunkPayload, heq, rfl⟩ := h
  obtain ⟨chunkLen', chunkPayload', heq', rfl⟩ := h'
  rw [heq, Except.ok.injEq, Prod.mk.injEq, Prod.mk.injEq, Prod.mk.injEq, Prod.mk.injEq] at heq'
  obtain ⟨-, hnum, hlen, rfl, rfl⟩ := heq'
  exact ⟨Prod.ext hnum hlen, rfl⟩

/-- The numbers of a chunk are read from two bytes each. -/
theorem Carries.lt (h : Carries payload transferId key data) :
    transferId < 2 ^ 16 ∧ key.1 < 2 ^ 16 ∧ key.2 < 2 ^ 16 := by
  obtain ⟨chunkLen, chunkPayload, heq, -⟩ := h
  unfold unpackChunk at heq
  split at heq
  · cases heq
  · unfold unpack at heq
    split at heq
    · rw [ok_bind] at heq
      simp only [unpackFrom, unpackOne, pure_eq_ok, Except.ok.injEq, Prod.mk.injEq,
        Int.toNat_natCast, List.drop_drop] at heq
      obtain ⟨rfl, hnum, hlen, -⟩ := heq
      rw [← hnum, ← hlen]
      exact ⟨leNat_two_lt _, leNat_two_lt _, leNat_two_lt _⟩
    · cases heq

theorem stages_empty (hcreatable : disk.Creatable (stagingPath transferId))
    (hempty : ∀ name, isChunk name = true → name :: stagingPath transferId ∉ disk) :
    Stages disk transferId fun _ => none where
  creatable := hcreatable
  isDir := fun _ hkey => Bool.noConfusion hkey
  content := by
    intro key
    unfold Disk.content chunkPath
    rw [AList.lookup_eq_none.mpr (hempty _ isChunk_nameOf)]
  named := fun name hname hmem => absurd hmem (hempty name hname)

/-- An uplink adds its chunk. -/
theorem ensures_uplinkFile (hreliable : env.Reliable) (hstages : Stages disk transferId chunks)
    (hcarries : Carries payload transferId key data) (hle : key.1 ≤ key.2) (hat : h.At disk sent) :
    Ensures (uplinkFile env payload) (fun _ h' => ∃ disk', h'.At disk' sent ∧
      Stages disk' transferId (Function.update chunks key (some data))) h := by
  obtain ⟨chunkLen, chunkPayload, hunpack, rfl⟩ := hcarries
  unfold uplinkFile
  rw [hunpack, Ensures, wp_bind, wp_raise_ok]
  dsimp only
  rw [wp_tryCatch, if_neg (Nat.not_lt.mpr hle)]
  refine (ensures_writeChunk hreliable hstages hat key.1 key.2).mono ?_ fun _ _ hfalse =>
    hfalse.elim
  rintro _ h' ⟨disk', hmakes, hat'⟩
  exact ⟨_, hat', (hstages.makes hmakes).put_chunk hmakes.made⟩

/-- **After uplinks the folder has the chunks that they carried**, beside those it had. -/
theorem ensures_uplinks (hreliable : env.Reliable) (hstages : Stages disk transferId chunks)
    (hcarry : ∀ payload ∈ payloads, ∃ key data, Carries payload transferId key data ∧ key.1 ≤ key.2)
    (hat : h.At disk sent) :
    Ensures (uplinks env payloads) (fun _ h' => ∃ disk' chunks', h'.At disk' sent ∧
      Stages disk' transferId chunks' ∧
      (∀ key data, chunks' key = some data →
        chunks key = some data ∨ ∃ payload ∈ payloads, Carries payload transferId key data) ∧
      ∀ key, (chunks' key).isSome = true ↔ (chunks key).isSome = true ∨
        ∃ payload ∈ payloads, ∃ data, Carries payload transferId key data) h := by
  unfold uplinks
  induction payloads generalizing h disk chunks with
  | nil => exact ⟨disk, chunks, hat, hstages, by simp, by simp⟩
  | cons payload payloads ih =>
    obtain ⟨key, data, hcarries, hle⟩ := hcarry payload List.mem_cons_self
    show Ensures (uplinkFile env payload >>= fun _ => payloads.forM (uplinkFile env)) _ h
    refine (ensures_uplinkFile hreliable hstages hcarries hle hat).bind ?_
    rintro _ h' ⟨disk', hat', hstages'⟩
    refine (ih hstages' (fun p hp => hcarry p (List.mem_cons_of_mem _ hp)) hat').imp ?_
    rintro _ h'' ⟨disk'', chunks'', hat'', hstages'', hdata, hsome⟩
    refine ⟨disk'', chunks'', hat'', hstages'', ?_, ?_⟩
    · intro key' data' hkey'
      rcases hdata key' data' hkey' with hold | ⟨p, hp, hcarries'⟩
      · by_cases hkey : key' = key
        · rw [hkey, Function.update_self, Option.some.injEq] at hold
          exact .inr ⟨payload, List.mem_cons_self, hkey ▸ hold ▸ hcarries⟩
        · rw [Function.update_of_ne hkey] at hold
          exact .inl hold
      · exact .inr ⟨p, List.mem_cons_of_mem _ hp, hcarries'⟩
    · intro key'
      rw [hsome key', List.exists_mem_cons_iff]
      by_cases hkey : key' = key
      · rw [hkey, Function.update_self]
        simp only [Option.isSome_some, true_or, true_iff]
        exact .inr (.inl ⟨data, hcarries⟩)
      · rw [Function.update_of_ne hkey]
        have hnot : ¬ ∃ data, Carries payload transferId key' data := fun ⟨_, hcarries'⟩ =>
          hkey (hcarries'.inj hcarries).1
        simp only [hnot, false_or]

end ClickA.Files
