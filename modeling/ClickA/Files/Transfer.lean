import ClickA.Files.Host
import ClickA.Python.Md5
import Mathlib.Data.List.Sort

/-!
# File transfers

`filehandling.py`: a file is cut into chunks, which are files of a staging folder, and a file is put
together of its chunks. The chunks find each other by their names.

## Main definitions

* `stagingDir`, `chunkName`: the staging folder of a transfer, and the names of its chunks
* `sortedChunks`: the chunks of a folder, sorted by their numbers
* `disassembleFile`, `requestFile`, `autoDownlinkFile`, `uplinkFile`, `assembleFile`: the commands
-/

namespace ClickA.Files

open Python

def flErrEmptyDir : ℕ := 0x01

def flErrFileName : ℕ := 0x02

def flErrSeqLen : ℕ := 0x03

def flErrMissingChunk : ℕ := 0x04

def flErrOutOfBounds : ℕ := 0x05

def flSuccess : ℕ := 0xFF

def tlmDlFile : ℕ := 0x3E1

def tlmDisassembleFile : ℕ := 0x3E2

def tlmAssembleFile : ℕ := 0x3E3

/-! ## Names -/

/-- The text of the staging folder of a transfer, up to the last slash. -/
def stagingDir (transferId : ℕ) : Bytes :=
    ascii "/root/file_staging/" ++ str transferId ++ ascii "/"

/-- The name of the file of a chunk. -/
def chunkName (seqNum seqLen : ℕ) : Name :=
  str seqNum ++ ascii "_" ++ str seqLen ++ ascii ".chunk"

def hashName : Name := ascii "md5.hash"

/-- `name.endswith('.chunk')`. -/
def isChunk (name : Name) : Bool := (ascii ".chunk").isSuffixOf name

/-- The byte between the numbers of a name. -/
def underscore : UInt8 := 95

/-- The pattern of the names of chunks, `\d{1,5}_\d{1,5}.chunk`, at the begin of a name. -/
def matchesChunkName (name : Name) : Bool :=
  (List.range' 1 5).any fun i => (List.range' 1 5).any fun j =>
    match name.drop i with
    | separator :: rest =>
      match rest.drop j with
      | dot :: behind =>
        (name.take i).length = i && (name.take i).all isDigit && separator = underscore &&
          (rest.take j).length = j && (rest.take j).all isDigit && dot ≠ 10 &&
          (ascii "chunk").isPrefixOf behind
      | [] => false
    | [] => false

/-- The two parts of the name of a chunk. -/
def parts (name : Name) : Except Exn (Bytes × Bytes) :=
  match splitAt underscore name with
  | [first, second] => .ok (first, second)
  | _ => .error .valueError

/-- The number of chunks that the name of a chunk says. -/
def totalOf (name : Name) : Except Exn ℤ := do
  let (_, seqLen) ← parts name
  intOf (slice seqLen 0 (-6))

/-- The numbers in the name of a chunk. -/
def numbersOf (name : Name) : Except Exn (ℤ × ℤ) := do
  let (seqNum, seqLen) ← parts name
  return (← intOf seqNum, ← intOf (slice seqLen 0 (-6)))

/-- The number that the chunks are sorted by. -/
def keyOf (name : Name) : Except Exn ℤ := intOf ((splitAt underscore name).headD [])

section Commands

variable (env : Env)

/-- The names of the chunks of a transfer, sorted by their numbers. -/
def sortedChunks (transferId : ℕ) : Stmt (List Name) := do
  let chunks := (← listdir env (stagingDir transferId)).filter isChunk
  let keyed ← raise (chunks.mapM fun name => do return (← keyOf name, name))
  return (keyed.insertionSort (·.1 ≤ ·.1)).map Prod.snd

/-! ## Downlink -/

/-- The loop that reads a file for its hash, with what was read before. -/
def hashBlocks (source : Path) : ℕ → ℕ → Bytes → Stmt Bytes
  | 0, _, hashed => return hashed
  | fuel + 1, position, hashed => do
    let buf ← read env source position 1024
    if buf = [] then return hashed
    else hashBlocks source fuel (position + buf.length) (hashed ++ buf)

/-- The digest of a file. Each turn of the loop reads a byte of it at least. -/
def hashFile (source : Path) : Stmt Bytes := do
  let size := (((← get).disk.content source).getD []).length
  return md5 (← hashBlocks env source (size + 1) 0 [])

/-- A chunk is written. -/
def writeChunk (transferId seqNum seqLen : ℕ) (data : Bytes) : Stmt Unit := do
  let chunkFile ← safeOpenW env (stagingDir transferId ++ chunkName seqNum seqLen)
  write env chunkFile data

/-- The loop that writes the chunks before the last one. Each turn takes a byte at least. -/
def cutChunks (transferId chunkSize fileLen seqLen : ℕ) (source : Path) : ℕ → ℕ → Stmt ℕ
  | 0, seqNum => return seqNum
  | fuel + 1, seqNum =>
    if seqNum * chunkSize < fileLen then do
      let chunkData ← read env source ((seqNum - 1) * chunkSize) chunkSize
      writeChunk env transferId seqNum seqLen chunkData
      cutChunks transferId chunkSize fileLen seqLen source fuel (seqNum + 1)
    else return seqNum

/-- `int(math.ceil(float(file_len)/chunk_size))`, with an exact quotient. -/
def ceilDiv (fileLen chunkSize : ℕ) : Stmt ℕ :=
  if chunkSize = 0 then throw .zeroDivisionError else return (fileLen + chunkSize - 1) / chunkSize

/-- The body of `disassemble_file`. -/
def disassemble (transferId chunkSize : ℕ) (fileName : Bytes) : Stmt Unit := do
  let fileHash ← hashFile env (← openRead env fileName)
  let hashPath ← safeOpenW env (stagingDir transferId ++ hashName)
  write env hashPath fileHash
  let source ← openRead env fileName
  let fileLen ← stat env fileName
  let seqLen ← ceilDiv fileLen chunkSize
  let seqNum ← cutChunks env transferId chunkSize fileLen seqLen source fileLen 1
  if (seqNum - 1) * chunkSize < fileLen then
    let chunkData ← read env source ((seqNum - 1) * chunkSize)
      (fileLen - (seqNum - 1) * chunkSize)
    writeChunk env transferId seqNum seqLen chunkData
  sendPacket tlmDisassembleFile (← raise (pack (network [.H, .H]) [.int transferId, .int seqNum]))

/-- What is unpacked of a command with a name: three numbers, and the rest. -/
def unpackNamed (raw : Bytes) : Except Exn (ℕ × ℕ × ℕ × Bytes) := do
  if raw.length < 6 then .error .structError
  else
    match ← unpack (network [.H, .H, .H, .s (raw.length - 6)]) raw with
    | [.int a, .int b, .int n, .str rest] => return (a.toNat, b.toNat, n.toNat, rest)
    | _ => .error .structError

/-- `disassemble_file`. -/
def disassembleFile (raw : Bytes) : Stmt Unit := do
  let (transferId, chunkSize, fileNameLen, fileNamePayload) ← raise (unpackNamed raw)
  tryCatch (disassemble env transferId chunkSize (fileNamePayload.take fileNameLen))
    (sendException env)

/-- A chunk is sent, with the hash of its file. -/
def sendChunk (transferId : ℕ) (fileHash : Bytes) (seqLen i : ℕ) : Stmt Unit := do
  let fileName := stagingDir transferId ++ chunkName i seqLen
  let chunkFile ← openRead env fileName
  let chunkSize ← stat env fileName
  let packetPayload ← readAll env chunkFile
  let packet ← raise (pack (network [.H, .s 16, .H, .H, .H, .s chunkSize])
    [.int transferId, .str fileHash, .int i, .int seqLen, .int chunkSize, .str packetPayload])
  sendPacket tlmDlFile packet

/-- The body of `request_file`. -/
def request (transferId allFlag chunkStartIndex numChunks : ℕ) : Stmt Unit := do
  match ← sortedChunks env transferId with
  | [] => throw (.file flErrEmptyDir)
  | first :: _ =>
    if !matchesChunkName first then throw (.file flErrFileName)
    let seqLen := (← raise (totalOf first)).toNat
    let (chunkStartIndex, numChunks) :=
      if allFlag = 0xFF then (1, seqLen) else (chunkStartIndex, numChunks)
    if (chunkStartIndex : ℤ) + numChunks - 1 > seqLen then throw (.file flErrOutOfBounds)
    let fileHash ← readAll env (← openRead env (stagingDir transferId ++ hashName))
    (List.range' chunkStartIndex numChunks).forM (sendChunk env transferId fileHash seqLen)

/-- `request_file`. -/
def requestFile (raw : Bytes) : Stmt Unit := do
  match ← raise (unpack (network [.H, .B, .H, .H]) raw) with
  | [.int transferId, .int allFlag, .int chunkStartIndex, .int numChunks] =>
    tryCatch
      (request env transferId.toNat allFlag.toNat chunkStartIndex.toNat numChunks.toNat)
      (sendException env)
  | _ => throw (.raised .structError)

/-- `auto_downlink_file`. -/
def autoDownlinkFile (raw : Bytes) : Stmt Unit := do
  let (transferId, _, _, _) ← raise (unpackNamed raw)
  disassembleFile env raw
  requestFile env (← raise (pack (network [.H, .B, .H, .H])
    [.int transferId, .int 0xFF, .int 0, .int 0]))

/-! ## Uplink -/

/-- What is unpacked of a chunk. -/
def unpackChunk (raw : Bytes) : Except Exn (ℕ × ℕ × ℕ × ℕ × Bytes) := do
  if raw.length < 8 then .error .structError
  else
    match ← unpack (network [.H, .H, .H, .H, .s (raw.length - 8)]) raw with
    | [.int transferId, .int seqNum, .int seqLen, .int chunkLen, .str rest] =>
      return (transferId.toNat, seqNum.toNat, seqLen.toNat, chunkLen.toNat, rest)
    | _ => .error .structError

/-- `uplink_file`. -/
def uplinkFile (raw : Bytes) : Stmt Unit := do
  let (transferId, seqNum, seqLen, chunkLen, chunkPayload) ← raise (unpackChunk raw)
  tryCatch (do
    if seqNum > seqLen then throw (.file flErrSeqLen)
    writeChunk env transferId seqNum seqLen (chunkPayload.take chunkLen)) (sendException env)

/-! ## Assembly -/

/-- A statement of the assembly. What it raises comes with the chunks that are missing so far. -/
def within {α : Type} (missing : List ℕ) (x : Stmt α) : EStateM (Err × List ℕ) Host α := fun h =>
  match x h with
  | .ok a h' => .ok a h'
  | .error e h' => .error (e, missing) h'

/-- A turn of the loop over the chunks: the chunk at a position is added to the file, if it has the
number of the position. -/
def assembleChunk (transferId : ℕ) (outFile : Path) (chunkFiles : List Name) (seqLenAll : ℤ)
    (missing : List ℕ) (i : ℕ) : Stmt (List ℕ) := do
  let name ← raise (index chunkFiles i)
  if !matchesChunkName name then throw (.file flErrFileName)
  let (seqNum, seqLen) ← raise (numbersOf name)
  if seqLen ≠ seqLenAll then throw (.file flErrSeqLen)
  let _ ← stat env (stagingDir transferId ++ name)
  if seqNum ≠ i + 1 then return missing ++ [i]
  else
    let chunk ← openRead env (stagingDir transferId ++ name)
    write env outFile (← readAll env chunk)
    return missing

/-- The body of `assemble_file`. -/
def assemble (transferId : ℕ) (fileName : Bytes) : EStateM (Err × List ℕ) Host Unit := do
  match ← within [] (sortedChunks env transferId) with
  | [] => throw (.file flErrEmptyDir, [])
  | first :: rest =>
    let seqLenAll ← within [] (raise (totalOf first))
    let _ ← within [] (stat env (stagingDir transferId ++ first))
    let outFile ← within [] (safeOpenW env fileName)
    let missing ← (List.range seqLenAll.toNat).foldlM (fun missing i =>
      within missing (assembleChunk env transferId outFile (first :: rest) seqLenAll missing i)) []
    if missing ≠ [] then throw (.file flErrMissingChunk, missing)

/-- `format_err_response`. -/
def formatErrResponse (transferId flag : ℕ) (missingChunks : List ℕ) : Except Exn Bytes := do
  let pkt ← pack (network [.H]) [.int transferId]
  let pkt := pkt ++ (← pack (native [.B]) [.int flag])
  let pkt := pkt ++ (← pack (network [.H]) [.int missingChunks.length])
  missingChunks.foldlM (fun pkt (chunkId : ℕ) => do
    return pkt ++ (← pack (network [.H]) [.int chunkId])) pkt

/-- `format_success_response`. -/
def formatSuccessResponse (transferId : ℕ) : Except Exn Bytes := do
  let pkt ← pack (network [.H]) [.int transferId]
  let pkt := pkt ++ (← pack (native [.B]) [.int flSuccess])
  return pkt ++ (← pack (network [.H]) [.int 0])

/-- The answer to an assembly, for each way that its body ends. -/
def answer (transferId : ℕ) (body : EStateM (Err × List ℕ) Host Unit) : Stmt Bytes := fun h =>
  match body h with
  | .ok _ h' => raise (formatSuccessResponse transferId) h'
  | .error (.file flag, missing) h' => raise (formatErrResponse transferId flag missing) h'
  | .error (e, _) h' => sendException env e h'

/-- `assemble_file`. It sends its packet also where it raises. -/
def assembleFile (raw : Bytes) : Stmt Unit := do
  if raw.length < 4 then throw (.raised .structError)
  match ← raise (unpack (network [.H, .H, .s (raw.length - 4)]) raw) with
  | [.int transferId, .int fileNameLen, .str fileNamePayload] =>
    let fileName := fileNamePayload.take fileNameLen.toNat
    let pktData ← tryCatch (answer env transferId.toNat (assemble env transferId.toNat fileName))
      fun e => do
        sendPacket tlmAssembleFile []
        throw e
    sendPacket tlmAssembleFile pktData
  | _ => throw (.raised .structError)

end Commands

end ClickA.Files
