import ClickA.Fpga.Map
import ClickA.Python.Effect

/-!
# The FPGA bus

The server reaches the registers of the FPGA over SPI: a transfer sends two bytes for each register,
and gets the echo of its address and its value two bytes later.

What the FPGA answers is arbitrary: it may depend on everything sent before, so the answer to a
transfer is a function of its place in the history and of its bytes.

## Main definitions

* `Env`: what the FPGA, the clock and the timeouts do
* `World`: what was sent to the FPGA and to the clients
* `transfer`, `readReg`, `writeReg`: `SPIBus`

## Main results

* `transfer_eq`: what a transfer of integers sends and returns
* `readReg_eq`, `writeReg_eq`: so for one register
* `runs_readReg`, `runs_writeReg`: neither raises, nor sends anything to a client
-/

namespace ClickA.Fpga

open Python

/-- What the server finds outside. `reply i out` answers the `i`-th transfer, of the bytes `out`,
and is as long; `clock i` is the time after `i` transfers; and `patience i` is the number of polls
of the transmitter that fit into the timeout of a `write_string` that begins after `i` transfers. -/
structure Env where
  reply : ℕ → Bytes → Bytes
  length_reply : ∀ i out, (reply i out).length = out.length
  clock : ℕ → Float
  patience : ℕ → ℕ

/-- An FPGA that answers with ones only. -/
def ones : Env where
  reply := fun _ out => List.replicate out.length 0xFF
  length_reply := fun _ _ => List.length_replicate
  clock := fun _ => 0
  patience := fun _ => 0

/-- What the server has sent: the bytes of its transfers, and the answers to its clients. -/
structure World where
  xfers : List Bytes
  answers : List Bytes
deriving DecidableEq, Repr

/-- A statement of the server. -/
abbrev Server := EStateM Exn World

/-- The elements at even places, `l[0::2]`. -/
def everyOther {α : Type} : List α → List α
  | [] => []
  | [a] => [a]
  | a :: _ :: l => a :: everyOther l

/-- The first byte of a word: seven bits of the address, and the direction. -/
def addrByte (addr w : ℕ) : UInt8 := UInt8.ofNat (addr &&& 0x7F ||| (w &&& 1) <<< 7)

/-- The second byte of a word, `val & 0xFF`. -/
def valByte (n : ℤ) : UInt8 := UInt8.ofNat (n % 256).toNat

/-- `enc`: the two bytes of a register. -/
def enc (addr w : ℕ) : Value → Except Exn Bytes
  | .int n => .ok [addrByte addr w, valByte n]
  | _ => .error .typeError

/-- The words of a transfer, one register after the other: `zip` stops with the shortest list. -/
def encAll : List ℕ → List ℕ → List Value → Except Exn Bytes
  | addr :: addrs, w :: ws, val :: vals => do
    let word ← enc addr w val
    let words ← encAll addrs ws vals
    return word ++ words
  | _, _, _ => .ok []

/-- The flags of the echoes that differ from the address, and the values. -/
def results (dataIn dataOut : Bytes) : List Bool × List UInt8 :=
  (List.zipWith (fun ain aout => ain != aout) (everyOther dataIn) (everyOther (dataOut.drop 2)),
    everyOther (dataOut.drop 3))

section Server

variable (env : Env)

/-- `self.spi.xfer`. -/
def spiXfer (dataIn : Bytes) : Server Bytes := do
  let world ← get
  modify fun world => { world with xfers := world.xfers ++ [dataIn] }
  return env.reply world.xfers.length dataIn

/-- `SPIBus.transfer`. -/
def transfer (addrIn isWrite : List ℕ) (values : List Value) : Server (List Bool × List UInt8) := do
  let dataIn ← lift (encAll addrIn isWrite values)
  let dataOut ← spiXfer env (dataIn ++ [0, 0])
  return results dataIn dataOut

/-- `read_reg`. -/
def readReg (addr : ℕ) : Server ℕ := do
  let result ← transfer env [addr] [0] [.int 0]
  let value ← lift (index result.2 0)
  return value.toNat

/-- `write_reg`. -/
def writeReg (addr : ℕ) (value : ℕ) : Server Bool := do
  let result ← transfer env [addr] [1] [.int value]
  lift (index result.1 0)

end Server

/-! ## Transfers of integers -/

section Words

theorem length_everyOther {α : Type} (l : List α) :
    (everyOther l).length = (l.length + 1) / 2 := by
  induction l using everyOther.induct with
  | case1 => simp [everyOther]
  | case2 a => simp [everyOther]
  | case3 a b l ih =>
    rw [everyOther, List.length_cons, ih, List.length_cons, List.length_cons]
    omega

/-- The words of a transfer of one direction, from an address on. -/
def words (w : ℕ) : ℕ → List ℤ → Bytes
  | _, [] => []
  | addr, n :: ns => addrByte addr w :: valByte n :: words w (addr + 1) ns

@[simp] theorem length_words (w addr : ℕ) (ns : List ℤ) :
    (words w addr ns).length = 2 * ns.length := by
  induction ns generalizing addr with
  | nil => rfl
  | cons n ns ih =>
    rw [words, List.length_cons, List.length_cons, ih, List.length_cons]
    omega

/-- A transfer has a word for each register. -/
theorem length_encAll {addrs ws : List ℕ} {vals : List Value} {dataIn : Bytes}
    (h : encAll addrs ws vals = .ok dataIn) (hws : ws.length = addrs.length)
    (hvals : vals.length = addrs.length) : dataIn.length = 2 * addrs.length := by
  induction addrs generalizing ws vals dataIn with
  | nil =>
    obtain rfl := Except.ok.inj h
    rfl
  | cons addr addrs ih =>
    cases ws with
    | nil => simp at hws
    | cons w ws =>
      cases vals with
      | nil => simp at hvals
      | cons val vals =>
        rw [encAll] at h
        obtain ⟨word, hword, h⟩ := bind_eq_ok.mp h
        obtain ⟨rest, hrest, h⟩ := bind_eq_ok.mp h
        obtain rfl := Except.ok.inj h
        have hlen := ih hrest (Nat.succ.inj hws) (Nat.succ.inj hvals)
        cases val with
        | int n =>
          obtain rfl := Except.ok.inj hword
          rw [List.length_append, hlen, List.length_cons]
          show 2 + 2 * addrs.length = 2 * (addrs.length + 1)
          omega
        | float x => simp [enc] at hword
        | str b => simp [enc] at hword

theorem encAll_int (w addr : ℕ) (ns : List ℤ) :
    encAll (List.range' addr ns.length) (List.replicate ns.length w) (ns.map .int) =
      .ok (words w addr ns) := by
  induction ns generalizing addr with
  | nil => rfl
  | cons n ns ih =>
    rw [List.length_cons, List.range'_succ, List.replicate_succ, List.map_cons, encAll, enc, ih]
    rfl

end Words

section Transfer

variable {env : Env} {w : World}

/-- The state after a transfer. -/
def World.sent (w : World) (dataIn : Bytes) : World :=
  { w with xfers := w.xfers ++ [dataIn ++ [0, 0]] }

/-- What the FPGA answers to the words of the next transfer. -/
def Env.replyTo (env : Env) (w : World) (dataIn : Bytes) : Bytes :=
  env.reply w.xfers.length (dataIn ++ [0, 0])

theorem length_replyTo (env : Env) (w : World) (dataIn : Bytes) :
    (env.replyTo w dataIn).length = dataIn.length + 2 := by
  rw [Env.replyTo, env.length_reply, List.length_append]
  rfl

theorem transfer_of_encAll {addrs ws : List ℕ} {vals : List Value} {dataIn : Bytes}
    (h : encAll addrs ws vals = .ok dataIn) : transfer env addrs ws vals w =
      .ok (results dataIn (env.replyTo w dataIn)) (w.sent dataIn) := by
  unfold transfer
  rw [h]
  rfl

/-- Registers from an address on are read or written. -/
theorem transfer_eq (dir addr : ℕ) (ns : List ℤ) :
    transfer env (List.range' addr ns.length) (List.replicate ns.length dir) (ns.map .int) w =
      .ok (results (words dir addr ns) (env.replyTo w (words dir addr ns)))
        (w.sent (words dir addr ns)) :=
  transfer_of_encAll (encAll_int dir addr ns)

/-- A transfer returns a value for each word. -/
theorem length_results (env : Env) (w : World) {dataIn : Bytes} {n : ℕ}
    (hlen : dataIn.length = 2 * n) : (results dataIn (env.replyTo w dataIn)).2.length = n := by
  unfold results
  rw [length_everyOther, List.length_drop, length_replyTo, hlen]
  omega

theorem length_results_snd (dir addr : ℕ) (ns : List ℤ) :
    (results (words dir addr ns) (env.replyTo w (words dir addr ns))).2.length = ns.length :=
  length_results env w (length_words dir addr ns)

/-- A value the FPGA returned, by its place in the answer. -/
def valueAt (dataOut : Bytes) (i : ℕ) : ℕ := (dataOut[i]?.getD 0).toNat

/-- The answer to one word. -/
theorem exists_replyTo_eq (env : Env) (w : World) (dir addr : ℕ) (n : ℤ) :
    ∃ a b c d, env.replyTo w (words dir addr [n]) = [a, b, c, d] := by
  have hlen := length_replyTo env w (words dir addr [n])
  generalize env.replyTo w (words dir addr [n]) = dataOut at hlen
  rcases dataOut with _ | ⟨a, _ | ⟨b, _ | ⟨c, _ | ⟨d, _ | ⟨e, l⟩⟩⟩⟩⟩
  all_goals simp at hlen
  exact ⟨a, b, c, d, rfl⟩

/-- The value of a register that is read. -/
theorem readReg_eq (addr : ℕ) : readReg env addr w =
    .ok (valueAt (env.replyTo w (words 0 addr [0])) 3) (w.sent (words 0 addr [0])) := by
  obtain ⟨a, b, c, d, hreply⟩ := exists_replyTo_eq env w 0 addr 0
  have htransfer : transfer env [addr] [0] [.int 0] w = _ := transfer_eq 0 addr [0]
  unfold readReg
  show EStateM.bind (transfer env [addr] [0] [.int 0]) _ w = _
  unfold EStateM.bind
  rw [htransfer, hreply]
  rfl

/-- A register that is written. -/
theorem writeReg_eq (addr value : ℕ) : ∃ failed, writeReg env addr value w =
    .ok failed (w.sent (words 1 addr [(value : ℤ)])) := by
  obtain ⟨a, b, c, d, hreply⟩ := exists_replyTo_eq env w 1 addr value
  have htransfer : transfer env [addr] [1] [.int value] w = _ := transfer_eq 1 addr [(value : ℤ)]
  unfold writeReg
  show ∃ failed, EStateM.bind (transfer env [addr] [1] [.int value]) _ w = _
  unfold EStateM.bind
  rw [htransfer, hreply]
  exact ⟨_, rfl⟩

end Transfer

/-! ## The clients hear nothing -/

/-- Nothing is sent to a client. -/
def Quiet (w w' : World) : Prop := w'.answers = w.answers

instance : Std.Refl Quiet := ⟨fun _ => rfl⟩

instance : IsTrans World Quiet := ⟨fun _ _ _ h h' => h'.trans h⟩

section Quiet

variable (env : Env)

theorem runs_transfer (dir addr : ℕ) (ns : List ℤ) :
    Runs Quiet (transfer env (List.range' addr ns.length) (List.replicate ns.length dir)
      (ns.map .int)) := fun w => by
  rw [Ensures, wp_of_ok (transfer_eq dir addr ns)]
  rfl

theorem runs_readReg (addr : ℕ) : Runs Quiet (readReg env addr) := fun w => by
  rw [Ensures, wp_of_ok (readReg_eq addr)]
  rfl

theorem runs_writeReg (addr value : ℕ) : Runs Quiet (writeReg env addr value) := fun w => by
  obtain ⟨failed, h⟩ := writeReg_eq addr value
  rw [Ensures, wp_of_ok h]
  rfl

end Quiet

end ClickA.Fpga
