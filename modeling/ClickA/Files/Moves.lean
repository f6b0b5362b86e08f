import ClickA.Files.Transfer

/-!
# Moves

`move_file`, `del_file`, `validate_file` and `auto_assemble_file`, with what they use of `os` and
`shutil`. A file is moved by its name. Where that fails it is copied and then removed, and the copy
may break off.

## Main definitions

* `rename`, `remove`, `rmdir`: the operations of `os`
* `copyfile`, `copy2`, `copytree`, `rmtree`, `move`: the functions of `shutil`
* `validateFile`, `moveFile`, `delFile`, `autoAssembleFile`: the commands
-/

namespace ClickA.Files

open Python

def ebusy : ℕ := 16

def einval : ℕ := 22

def enotempty : ℕ := 39

/-! ## Texts of paths -/

/-- `text.rstrip('/')`. -/
def rstripSlash (text : Bytes) : Bytes := (text.reverse.dropWhile (· = slash)).reverse

/-- `os.path.basename(text)`. -/
def basename (text : Bytes) : Bytes := (text.reverse.takeWhile (· ≠ slash)).reverse

/-- `os.path.join(dir, name)`. -/
def join (dir name : Bytes) : Bytes :=
  if name.head? = some slash then name
  else if dir = [] ∨ dir.getLast? = some slash then dir ++ name
  else dir ++ slash :: name

/-- A directory is moved, with what is in it. -/
def relocate (disk : Disk) (src dst : Path) : Disk :=
  (disk.keys.filter src.isSuffixOf).foldl (fun disk path =>
    match disk.lookup path with
    | some node => (disk.erase path).insert (path.take (path.length - src.length) ++ dst) node
    | none => disk) disk

/-- No path on the disk is longer. -/
def depth (disk : Disk) : ℕ := (disk.keys.map List.length).foldr max 0

/-! ## What is used of `os` -/

section Os

variable (env : Env)

/-- `try:` a statement, `except OSError:` a default. -/
def attempt {α : Type} (x : Stmt α) (default : α) : Stmt α :=
  tryCatch x fun e =>
    match e with
    | .os _ => return default
    | e => throw e

/-- The path that `os.stat(text)` finds. -/
def statPath (text : Bytes) : Stmt Path := do
  if text.contains 0 then throw (.raised .typeError)
  operation env
  let path := resolve env.cwd text
  if text ≠ [] && (← get).disk.exists? path then return path else throw (.os enoent)

/-- `os.path.isdir(text)`. -/
def isdir (text : Bytes) : Stmt Bool :=
  attempt (do
    let path ← statPath env text
    return (← get).disk.isDir path) false

/-- `os.path.exists(text)`. -/
def pathExists (text : Bytes) : Stmt Bool :=
  attempt (do
    let _ ← statPath env text
    return true) false

/-- `_samefile(src, dst)`. -/
def samefile (src dst : Bytes) : Stmt Bool :=
  attempt (do
    let path ← statPath env src
    return path = (← statPath env dst)) false

/-- `os.rename(src, dst)`. -/
def rename (src dst : Bytes) : Stmt Unit := do
  if src.contains 0 || dst.contains 0 then throw (.raised .typeError)
  operation env
  let disk := (← get).disk
  match target env.cwd (rstripSlash src), target env.cwd (rstripSlash dst) with
  | some old, some new =>
    if !disk.isDir new.tail then throw (.os enoent)
    else
      match disk.lookup old with
      | none => throw (.os enoent)
      | some (.file content) =>
        if src.getLast? = some slash || dst.getLast? = some slash then throw (.os enotdir)
        else if old = new then return ()
        else if disk.isDir new then throw (.os eisdir)
        else modify fun h => { h with disk := Disk.put (h.disk.erase old) new content }
      | some .dir =>
        if old = new then return ()
        else if old.isSuffixOf new then throw (.os einval)
        else if (disk.content new).isSome then throw (.os enotdir)
        else if disk.names new ≠ [] then throw (.os enotempty)
        else modify fun h => { h with disk := relocate h.disk old new }
  | _, _ => throw (.os ebusy)

/-- `os.remove(text)`, which is `os.unlink(text)` too. -/
def remove (text : Bytes) : Stmt Unit := do
  if text.contains 0 then throw (.raised .typeError)
  operation env
  let disk := (← get).disk
  match target env.cwd text with
  | some path =>
    if disk.isDir path then throw (.os eisdir)
    else if disk.exists? path then modify fun h => { h with disk := h.disk.erase path }
    else throw (.os enoent)
  | none => throw (.os enotdir)

/-- `os.rmdir(text)`. -/
def rmdir (text : Bytes) : Stmt Unit := do
  if text.contains 0 then throw (.raised .typeError)
  operation env
  let disk := (← get).disk
  match target env.cwd (rstripSlash text) with
  | some path =>
    if !disk.exists? path then throw (.os enoent)
    else if !disk.isDir path then throw (.os enotdir)
    else if disk.names path ≠ [] then throw (.os enotempty)
    else modify fun h => { h with disk := h.disk.erase path }
  | none => throw (.os einval)

end Os

/-! ## What is used of `shutil` -/

/-- What is raised in `shutil`: its own `Error`, or what the operations raise. -/
inductive Failure
  | error
  | other (e : Err)
deriving DecidableEq

abbrev Shutil := EStateM Failure Host

/-- A statement that does not use `shutil`. -/
def os {α : Type} (x : Stmt α) : Shutil α := fun h =>
  match x h with
  | .ok a h' => .ok a h'
  | .error e h' => .error (.other e) h'

section Shutil

variable (env : Env)

/-- The loop of `copyfileobj`. -/
def copyBlocks (source dest : Path) : ℕ → ℕ → Stmt Unit
  | 0, _ => return ()
  | fuel + 1, position => do
    let buf ← read env source position (16 * 1024)
    if buf = [] then return ()
    else
      write env dest buf
      copyBlocks source dest fuel (position + buf.length)

/-- What `copyfile` does with two files. Each turn of its loop reads a byte at least. -/
def copyOpened (src dst : Bytes) : Stmt Unit := do
  -- a named pipe is looked for
  let _ ← pathExists env src
  let _ ← pathExists env dst
  let source ← openRead env src
  let size := (((← get).disk.content source).getD []).length
  let dest ← openWrite env dst
  copyBlocks env source dest (size + 1) 0

/-- `copyfile`. -/
def copyfile (src dst : Bytes) : Shutil Unit := do
  if ← os (samefile env src dst) then throw .error
  os (copyOpened env src dst)

/-- `copystat`: the mode and the times are read, and set. -/
def copystat (src dst : Bytes) : Stmt Unit := do
  let _ ← statPath env src
  let _ ← statPath env dst
  let _ ← statPath env dst

/-- `copy2`. -/
def copy2 (src dst : Bytes) : Shutil Unit := do
  let dst := if ← os (isdir env dst) then join dst (basename src) else dst
  copyfile env src dst
  os (copystat env src dst)

/-- `except` an error of a copy, with the number of those before it. -/
def collect (errors : ℕ) (x : Shutil Unit) : Shutil ℕ :=
  tryCatch (do
    x
    return errors) fun e =>
    match e with
    | .error | .other (.os _) => return errors + 1
    | e => throw e

/-- `copytree`. Each call is one directory deeper. -/
def copytree : ℕ → Bytes → Bytes → Shutil Unit
  | 0, _, _ => throw (.other (.os enoent))
  | fuel + 1, src, dst => do
    let names ← os (listdir env src)
    os (makedirs env (resolve env.cwd dst))
    let errors ← names.foldlM (fun errors name => collect errors (do
      if ← os (isdir env (join src name)) then copytree fuel (join src name) (join dst name)
      else copy2 env (join src name) (join dst name))) 0
    let errors ← collect errors (os (copystat env src dst))
    if errors ≠ 0 then throw .error

/-- `rmtree`. Each call is one directory deeper. -/
def rmtree : ℕ → Bytes → Stmt Unit
  | 0, _ => throw (.os enoent)
  | fuel + 1, text => do
    -- a link is looked for
    let _ ← pathExists env text
    let names ← listdir env text
    names.forM fun name => do
      if ← isdir env (join text name) then rmtree fuel (join text name)
      else remove env (join text name)
    rmdir env text

/-- The name is changed, or the file is copied and removed. -/
def moveTo (src dst realDst : Bytes) : Shutil Unit :=
  tryCatch (os (rename env src realDst)) fun e =>
    match e with
    | .other (.os _) => do
      let size := depth (← get).disk + 1
      if ← os (isdir env src) then
        if (resolve env.cwd src).isSuffixOf (resolve env.cwd dst) then throw .error
        copytree env size src realDst
        os (rmtree env size src)
      else
        copy2 env src realDst
        os (remove env src)
    | e => throw e

/-- `move`. -/
def move (src dst : Bytes) : Shutil Unit := do
  if ← os (isdir env dst) then
    if ← os (samefile env src dst) then os (rename env src dst)
    else
      let realDst := join dst (basename (rstripSlash src))
      if ← os (pathExists env realDst) then throw .error
      moveTo env src dst realDst
  else moveTo env src dst dst

end Shutil

/-! ## Commands -/

section Commands

variable (env : Env)

/-- What is unpacked for a validation: a digest and a name. -/
def unpackValidate (raw : Bytes) : Except Exn (Bytes × ℕ × Bytes) := do
  if raw.length < 18 then .error .structError
  else
    match ← unpack (network [.s 16, .H, .s (raw.length - 18)]) raw with
    | [.str fileHash, .int fileNameLen, .str rest] => return (fileHash, fileNameLen.toNat, rest)
    | _ => .error .structError

/-- `validate_file`. The packet about another digest is made of a name that is not bound. -/
def validateFile (raw : Bytes) : Stmt Unit := do
  let (fileHash, fileNameLen, fileNamePayload) ← raise (unpackValidate raw)
  tryCatch (do
    let checkHash ← hashFile env (← openRead env (fileNamePayload.take fileNameLen))
    if checkHash ≠ fileHash then throw (.raised .nameError)) (sendException env)

/-- What is unpacked for a move: the lengths of two names, and the names. -/
def unpackMove (raw : Bytes) : Except Exn (ℕ × ℕ × Bytes) := do
  if raw.length < 4 then .error .structError
  else
    match ← unpack (network [.H, .H, .s (raw.length - 4)]) raw with
    | [.int srcLen, .int destLen, .str rest] => return (srcLen.toNat, destLen.toNat, rest)
    | _ => .error .structError

/-- `try:` a statement of `shutil`, `except Exception`. Its `Error` has no number that
`send_exception` can pack. -/
def guarded (x : Shutil Unit) : Stmt Unit := fun h =>
  match x h with
  | .ok _ h' => .ok () h'
  | .error .error h' => .error (.raised .structError) h'
  | .error (.other e) h' => sendException env e h'

/-- `move_file`. -/
def moveFile (raw : Bytes) : Stmt Unit := do
  let (srcLen, destLen, fileNames) ← raise (unpackMove raw)
  guarded env (move env (fileNames.take srcLen) ((fileNames.drop srcLen).take destLen))

/-- What is unpacked for a removal: a flag and a name. -/
def unpackDel (raw : Bytes) : Except Exn (ℕ × ℕ × Bytes) := do
  if raw.length < 3 then .error .structError
  else
    match ← unpack (network [.B, .H, .s (raw.length - 3)]) raw with
    | [.int recursive, .int fileNameLen, .str rest] =>
      return (recursive.toNat, fileNameLen.toNat, rest)
    | _ => .error .structError

/-- `del_file`. -/
def delFile (raw : Bytes) : Stmt Unit := do
  let (recursive, fileNameLen, fileNamePayload) ← raise (unpackDel raw)
  let fileName := fileNamePayload.take fileNameLen
  tryCatch (do
    if recursive = 0xFF then rmtree env (depth (← get).disk + 1) fileName
    else remove env fileName) (sendException env)

/-- What is unpacked for an automatic assembly: a transfer, a digest and a name. -/
def unpackAutoAssemble (raw : Bytes) : Except Exn (ℕ × Bytes × ℕ × Bytes) := do
  if raw.length < 20 then .error .structError
  else
    match ← unpack (network [.H, .s 16, .H, .s (raw.length - 20)]) raw with
    | [.int transferId, .str fileHash, .int destFileNameLen, .str rest] =>
      return (transferId.toNat, fileHash, destFileNameLen.toNat, rest)
    | _ => .error .structError

def tempName : Name := ascii "reassembled_file.temp"

/-- The text of the file that a transfer is put together in. -/
def tempFileName (transferId : ℕ) : Bytes := stagingDir transferId ++ tempName

/-- `auto_assemble_file` up to the move, with the transfer. -/
def autoMoveFile (raw : Bytes) : Stmt ℕ := do
  let (transferId, fileHash, destFileNameLen, destFileNamePayload) ← raise (unpackAutoAssemble raw)
  let destFileName := destFileNamePayload.take destFileNameLen
  let tempFileName := tempFileName transferId
  let tempFileNameLen := tempFileName.length
  assembleFile env (← raise (pack (network [.H, .H, .s tempFileNameLen])
    [.int transferId, .int tempFileNameLen, .str tempFileName]))
  validateFile env (← raise (pack (network [.s 16, .H, .s tempFileNameLen])
    [.str fileHash, .int tempFileNameLen, .str tempFileName]))
  moveFile env (← raise (pack (network [.H, .H, .s tempFileNameLen, .s destFileNameLen])
    [.int tempFileNameLen, .int destFileNameLen, .str tempFileName, .str destFileName]))
  return transferId

/-- `auto_assemble_file`. -/
def autoAssembleFile (raw : Bytes) : Stmt Unit := do
  let transferId ← autoMoveFile env raw
  let delFileName := ascii "/root/file_staging/" ++ str transferId
  delFile env (← raise (pack (network [.B, .H, .s delFileName.length])
    [.int 0xFF, .int delFileName.length, .str delFileName]))

end Commands

end ClickA.Files
