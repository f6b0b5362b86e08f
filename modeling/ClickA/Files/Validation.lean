import ClickA.Files.Disassembly
import ClickA.Files.Faults
import ClickA.Files.Moves

/-!
# Validation

`validate_file`: the digest of a file is compared with the one that was uplinked, and the other
digest is to be reported. The packet of the report is made of a name that is not bound.

## Main definitions

* `mismatchPacket`: the packet that reports another digest
* `Validated`: a validation reports what it finds

## Main results

* `ensures_validateFile`: a file with the digest is passed in silence
* `raises_validateFile`: with another digest the command is left by an exception
* `validated_iff`: a validation reports what it finds if and only if the file has the digest
-/

namespace ClickA.Files

open Python Python.Disk

/-- `ERR_FL_FILE_INVALID`. -/
def errFlFileInvalid : ℕ := 0x381

/-- The packet that reports another digest: the digest of the file, the one that was expected, the
length of the name, and the name. -/
def mismatchPacket (checkHash fileHash : Bytes) (fileNameLen : ℕ) (fileName : Bytes) :
    Except Exn Bytes := do
  let payload ← pack (network [.s 16, .s 16, .H, .s fileNameLen])
    [.str checkHash, .str fileHash, .int fileNameLen, .str fileName]
  TxPacket.encode errFlFileInvalid payload

/-- The validation ends normally. It has sent nothing if the digest is that of the content, and one
packet about the two digests otherwise. -/
def Validated (env : Env) (raw content fileHash : Bytes) (fileNameLen : ℕ) (fileName : Bytes)
    (h : Host) : Prop :=
  Ensures (validateFile env raw) (fun _ h' =>
    if md5 content = fileHash then h'.sent = h.sent
    else ∃ packet, mismatchPacket (md5 content) fileHash fileNameLen fileName = .ok packet ∧
      h'.sent = h.sent ++ [packet]) h

variable {env : Env} {h : Host} {raw content fileHash rest : Bytes} {fileNameLen : ℕ} {path : Path}

/-- The file is hashed to its end. -/
theorem ensures_openHash (hreliable : env.Reliable)
    (hreadable : Readable env h.disk (rest.take fileNameLen) path content) :
    Ensures (do hashFile env (← openRead env (rest.take fileNameLen)))
      (fun digest h' => digest = md5 content ∧ h'.At h.disk h.sent) h := by
  refine (ensures_openRead hreliable hreadable ⟨rfl, rfl⟩).bind ?_
  rintro source h' ⟨rfl, hat⟩
  exact ensures_hashFile hreliable hreadable.content hat

/-- A file with the digest is passed in silence. -/
theorem ensures_validateFile (hreliable : env.Reliable)
    (hunpack : unpackValidate raw = .ok (fileHash, fileNameLen, rest))
    (hreadable : Readable env h.disk (rest.take fileNameLen) path content)
    (hhash : md5 content = fileHash) :
    Ensures (validateFile env raw) (fun _ h' => h'.At h.disk h.sent) h := by
  unfold validateFile
  rw [hunpack, Ensures, wp_bind, wp_raise_ok]
  dsimp only
  rw [wp_tryCatch, ← bind_assoc, wp_bind]
  refine (ensures_openHash hreliable hreadable).mono ?_ fun _ _ hfalse => hfalse.elim
  rintro digest h' ⟨rfl, hat⟩
  rw [if_neg (not_not.mpr hhash)]
  exact hat

/-- With another digest the command is left by an exception. -/
theorem raises_validateFile (hreliable : env.Reliable)
    (hunpack : unpackValidate raw = .ok (fileHash, fileNameLen, rest))
    (hreadable : Readable env h.disk (rest.take fileNameLen) path content)
    (hhash : md5 content ≠ fileHash) : Raises (validateFile env raw) h := by
  unfold validateFile
  rw [hunpack, Raises, Allows, wp_bind, wp_raise_ok]
  dsimp only
  rw [wp_tryCatch, ← bind_assoc, wp_bind]
  refine (ensures_openHash hreliable hreadable).mono ?_ fun _ _ hfalse => hfalse.elim
  rintro digest h' ⟨rfl, -⟩
  -- the branch appends to a name that it has not bound
  rw [if_pos hhash, wp_throw]
  -- and the report of that exception raises again
  exact (wp_sendException _ h').mono (fun _ _ hfalse => hfalse.elim) fun _ _ _ => trivial

theorem not_validated (hreliable : env.Reliable)
    (hunpack : unpackValidate raw = .ok (fileHash, fileNameLen, rest))
    (hreadable : Readable env h.disk (rest.take fileNameLen) path content)
    (hhash : md5 content ≠ fileHash) :
    ¬ Validated env raw content fileHash fileNameLen (rest.take fileNameLen) h :=
  (raises_validateFile hreliable hunpack hreadable hhash).not_ensures

/-- A validation of a readable file reports what it finds if and only if the file has the
digest. -/
theorem validated_iff (hreliable : env.Reliable)
    (hunpack : unpackValidate raw = .ok (fileHash, fileNameLen, rest))
    (hreadable : Readable env h.disk (rest.take fileNameLen) path content) :
    Validated env raw content fileHash fileNameLen (rest.take fileNameLen) h ↔
      md5 content = fileHash := by
  constructor
  · intro hvalidated
    by_contra hhash
    exact not_validated hreliable hunpack hreadable hhash hvalidated
  · intro hhash
    refine (ensures_validateFile hreliable hunpack hreadable hhash).imp fun _ h' hat => ?_
    rw [if_pos hhash]
    exact hat.sent

/-- The payload that names the file `/a`. -/
def validatePayload (fileHash : Bytes) : Bytes := fileHash ++ [0, 2, 47, 97]

/-- The host with the file `/a` of one byte. -/
def byteHost : Host where
  disk := (∅ : Disk).put [ascii "a"] [7]

theorem readable_byteHost :
    Readable plainEnv byteHost.disk ((ascii "/a").take 2) [ascii "a"] [7] :=
  ⟨by decide, by decide, content_put⟩

theorem validated_iff_oneByte :
    Validated plainEnv (validatePayload (md5 [7])) [7] (md5 [7]) 2 ((ascii "/a").take 2) byteHost ↔
      md5 [7] = md5 [7] :=
  validated_iff (fun _ => rfl) (by decide +kernel) readable_byteHost

/-- A digest that the byte does not have. -/
def zeros : Bytes := List.replicate 16 0

theorem unpackValidate_zeros :
    unpackValidate (validatePayload zeros) = .ok (zeros, 2, ascii "/a") := by
  decide +kernel

/-- Another digest is not reported. -/
theorem not_validated_zeros :
    ¬ Validated plainEnv (validatePayload zeros) [7] zeros 2 ((ascii "/a").take 2) byteHost :=
  not_validated (fun _ => rfl) unpackValidate_zeros readable_byteHost (by decide +kernel)

end ClickA.Files
