import ClickA.Ipc.Packets
import ClickA.Python.Disk
import ClickA.Python.Effect

/-!
# The host of the command handler

What the command handler uses of `os` and of file objects: each operation may fail by itself, a
write after some of its bytes. A read sees the file as it is then.

## Main definitions

* `Err`: what is raised
* `Host`, `Stmt`: the disk and what was sent, and the statements on them
* `makeDirs`, `safeOpenW`: `make_dirs` and `safe_open_w`
* `openRead`, `read`, `write`, `stat`, `listdir`: the operations on files
* `sendException`: `send_exception`
-/

namespace ClickA.Files

open Python

/-- What is raised: a `FileError`, an `OSError` or `IOError` with its number, `ZeroDivisionError`,
`AttributeError`, and the other exceptions. -/
inductive Err
  | file (flag : ℕ)
  | os (errno : ℕ)
  | zeroDivisionError
  | attributeError
  | raised (e : Exn)
deriving DecidableEq

def enoent : ℕ := 2

def eio : ℕ := 5

def eexist : ℕ := 17

def enotdir : ℕ := 20

def eisdir : ℕ := 21

/-- What the host decides: the working directory, the order of the names in a directory, and whether
the `n`-th operation fails, a write after some bytes. The report of an exception has its type,
number and place. -/
structure Env where
  cwd : Path
  order : ℕ → List Name → List Name
  perm : ∀ n names, (order n names).Perm names
  fault : ℕ → Option ℕ
  report : Err → Bytes

/-- The disk, the number of operations on it, and the packets that were sent. -/
structure Host where
  disk : Disk := ∅
  operations : ℕ := 0
  sent : List Bytes := []

abbrev Stmt := EStateM Err Host

/-- A statement without effects. -/
def raise {α : Type} : Except Exn α → Stmt α
  | .ok a => pure a
  | .error e => throw (.raised e)

/-- A packet is sent to the packetizer. -/
def sendPacket (apid : ℕ) (payload : Bytes) : Stmt Unit := do
  let raw ← raise (TxPacket.encode apid payload)
  modify fun h => { h with sent := h.sent ++ [raw] }

section Operations

variable (env : Env)

/-- The next operation, and after how many bytes it fails if it does. -/
def operate : Stmt (Option ℕ) :=
  modifyGet fun h => (env.fault h.operations, { h with operations := h.operations + 1 })

/-- An operation that does nothing if it fails. -/
def operation : Stmt Unit := do
  match ← operate env with
  | none => return ()
  | some _ => throw (.os eio)

/-! ## Directories -/

/-- `os.mkdir`. -/
def mkdir (path : Path) : Stmt Unit := do
  operation env
  let disk := (← get).disk
  if disk.exists? path then throw (.os eexist)
  else if disk.isDir path.tail then modify fun h => { h with disk := h.disk.insert path .dir }
  else if disk.exists? path.tail then throw (.os enotdir)
  else throw (.os enoent)

/-- `os.makedirs`. -/
def makedirs : Path → Stmt Unit
  | [] => mkdir env []
  | name :: parent => do
    if !(← get).disk.exists? parent then
      tryCatch (makedirs parent) fun e => if e = .os eexist then pure () else throw e
    mkdir env (name :: parent)

/-- `make_dirs`. -/
def makeDirs (path : Path) : Stmt Unit :=
  tryCatch (makedirs env path) fun e => do
    if e = .os eexist && (← get).disk.isDir path then return () else throw e

/-- `os.listdir`. -/
def listdir (text : Bytes) : Stmt (List Name) := do
  operation env
  let h ← get
  let path := resolve env.cwd text
  if h.disk.isDir path then return env.order h.operations (h.disk.names path)
  else if h.disk.exists? path then throw (.os enotdir)
  else throw (.os enoent)

/-! ## Files -/

/-- `open(text, 'wb+')`. -/
def openWrite (text : Bytes) : Stmt Path := do
  if text.contains 0 then throw (.raised .typeError)
  operation env
  let disk := (← get).disk
  match target env.cwd text with
  | some path =>
    if disk.isDir path then throw (.os eisdir)
    else if disk.isDir path.tail then
      modify fun h => { h with disk := h.disk.put path [] }
      return path
    else if disk.exists? path.tail then throw (.os enotdir)
    else throw (.os enoent)
  | none => throw (.os eisdir)

/-- `safe_open_w`. -/
def safeOpenW (text : Bytes) : Stmt Path := do
  let dir := dirname text
  if dir ≠ [] then makeDirs env (resolve env.cwd dir)
  openWrite env text

/-- `f.write(data)`, at the end of the file. -/
def write (path : Path) (data : Bytes) : Stmt Unit := do
  let fault ← operate env
  let written := match fault with
    | none => data
    | some n => data.take n
  modify fun h => { h with
    disk := h.disk.put path ((h.disk.content path).getD [] ++ written) }
  match fault with
  | none => return ()
  | some _ => throw (.os eio)

/-- `open(text, 'rb')`. -/
def openRead (text : Bytes) : Stmt Path := do
  if text.contains 0 then throw (.raised .typeError)
  operation env
  let disk := (← get).disk
  match target env.cwd text with
  | some path =>
    if disk.isDir path then throw (.os eisdir)
    else if disk.exists? path then return path
    else throw (.os enoent)
  | none => throw (.os eisdir)

/-- `f.read(size)`, at a position. -/
def read (path : Path) (position size : ℕ) : Stmt Bytes := do
  operation env
  return ((((← get).disk.content path).getD []).drop position).take size

/-- `f.read()`, from the begin. -/
def readAll (path : Path) : Stmt Bytes := do
  operation env
  return ((← get).disk.content path).getD []

/-- `os.stat(text).st_size`, of a file. -/
def stat (text : Bytes) : Stmt ℕ := do
  operation env
  let disk := (← get).disk
  let path := resolve env.cwd text
  if disk.exists? path then return ((disk.content path).getD []).length
  else throw (.os enoent)

/-! ## Exceptions -/

/-- `ERR_GEN_EXCEPTION`. -/
def errGenException : ℕ := 0x387

/-- `send_exception`, with `RAISE_ENABLE`. An exception without a number is left by the
`AttributeError` that was caught when it was looked for. -/
def sendException {α : Type} (e : Err) : Stmt α := do
  sendPacket errGenException (env.report e)
  match e with
  | .os _ => throw e
  | _ => throw .attributeError

end Operations

end ClickA.Files
