import ClickA.Bus.Uplink
import ClickA.Commands.Silent
import ClickA.Files.Reassembly

/-!
# A file from the bus to the disk

The chunks of a file arrive in packets of the bus, between other commands. The depacketizer passes
them on, the load balancer spreads them over the command handlers, which work on one disk, and a
last command puts the file together. A handler that an exception ends is started again.

## Main definitions

* `workload`: what the main loop of a command handler does with a command
* `Job`, `works`: a command at one of the handlers, and commands one after the other
* `Gathered`: the folder of a transfer has pieces of a file
* `CarriesPiece`, `Bystander`: the commands that bring the file, and the others

## Main results

* `gathered_uplinkFile`, `assembled_of_gathered`: the commands on the folder
* `gathered_works`: behind any commands
* `installed_of_arrived`: the whole way
-/

namespace ClickA.Files

open Python Python.Disk

/-! ## The folder of a transfer -/

/-- The folder of a transfer has pieces of a file at their places, those that were received among
them, and no other chunks. -/
def Gathered (pieces : List Bytes) (transferId : ℕ) (received : ℕ → Prop) (disk : Disk) : Prop :=
  ∃ chunks, Stages disk transferId chunks ∧
    (∀ key data, chunks key = some data →
      ∃ i, key = (i + 1, pieces.length) ∧ pieces[i]? = some data) ∧
    ∀ i, received i → (chunks (i + 1, pieces.length)).isSome = true

variable {env : Env} {h : Host} {disk : Disk} {transferId i : ℕ} {pieces : List Bytes}
  {received : ℕ → Prop} {payload raw text data : Bytes} {path : Path}

theorem gathered_empty (pieces : List Bytes) (hcreatable : disk.Creatable (stagingPath transferId))
    (hempty : ∀ name, isChunk name = true → name :: stagingPath transferId ∉ disk) :
    Gathered pieces transferId (fun _ => False) disk := by
  refine ⟨_, stages_empty hcreatable hempty, ?_, fun _ hreceived => hreceived.elim⟩
  intro key data hnone
  cases hnone

theorem Gathered.mono {received' : ℕ → Prop} (h₀ : Gathered pieces transferId received disk)
    (h : ∀ i, received' i → received i) : Gathered pieces transferId received' disk := by
  obtain ⟨chunks, hstages, hplaced, hall⟩ := h₀
  exact ⟨chunks, hstages, hplaced, fun i hi => hall i (h i hi)⟩

/-- An uplink adds its piece. -/
theorem gathered_uplinkFile (hreliable : env.Reliable)
    (h₀ : Gathered pieces transferId received h.disk) (hpiece : pieces[i]? = some data)
    (hcarries : Carries payload transferId (i + 1, pieces.length) data) :
    Ensures (uplinkFile env payload) (fun _ h' =>
      Gathered pieces transferId (fun j => received j ∨ j = i) h'.disk) h := by
  obtain ⟨chunks, hstages, hplaced, hall⟩ := h₀
  have hle : i + 1 ≤ pieces.length := (List.getElem?_eq_some_iff.mp hpiece).1
  refine (ensures_uplinkFile hreliable hstages hcarries hle ⟨rfl, rfl⟩).imp ?_
  rintro _ h' ⟨disk', hat, hstages'⟩
  rw [hat.disk]
  refine ⟨_, hstages', ?_, ?_⟩
  · intro key data' hkey
    by_cases heq : key = (i + 1, pieces.length)
    · rw [heq, Function.update_self] at hkey
      exact ⟨i, heq, hpiece.trans hkey⟩
    · rw [Function.update_of_ne heq] at hkey
      exact hplaced key data' hkey
  · intro j hj
    by_cases heq : (j + 1, pieces.length) = (i + 1, pieces.length)
    · rw [heq, Function.update_self]
      rfl
    · rw [Function.update_of_ne heq]
      refine hall j (hj.resolve_right ?_)
      rintro rfl
      exact heq rfl

/-- A folder with all pieces has the chunks of the file. -/
theorem Gathered.complete (h₀ : Gathered pieces transferId received disk)
    (hreceived : ∀ i < pieces.length, received i) : ∃ chunks, Stages disk transferId chunks ∧
      Complete chunks pieces.length ∧ ∀ i, chunks (i + 1, pieces.length) = pieces[i]? := by
  obtain ⟨chunks, hstages, hplaced, hall⟩ := h₀
  refine ⟨chunks, hstages, ?_, ?_⟩
  · intro key
    constructor
    · intro hsome
      obtain ⟨data, hdata⟩ := Option.isSome_iff_exists.mp hsome
      obtain ⟨i, rfl, hi⟩ := hplaced key data hdata
      exact ⟨Nat.succ_pos i, (List.getElem?_eq_some_iff.mp hi).1, rfl⟩
    · rintro ⟨hpos, hle, hlen⟩
      have hkey : key = (key.1 - 1 + 1, pieces.length) :=
        Prod.ext (Nat.sub_add_cancel hpos).symm hlen
      rw [hkey]
      exact hall _ (hreceived _ (by omega))
  · intro i
    cases hkey : chunks (i + 1, pieces.length) with
    | some data =>
      obtain ⟨j, heq, hj⟩ := hplaced _ data hkey
      rw [← hj, Nat.succ.inj (Prod.ext_iff.mp heq).1]
    | none =>
      symm
      rw [List.getElem?_eq_none_iff]
      by_contra hlt
      have hsome := hall i (hreceived i (Nat.not_le.mp hlt))
      rw [hkey] at hsome
      exact Bool.noConfusion hsome

/-- **A folder with all pieces is put together.** -/
theorem assembled_of_gathered (hreliable : env.Reliable) (hpieces : pieces ≠ [])
    (h₀ : Gathered pieces transferId received h.disk)
    (hreceived : ∀ i < pieces.length, received i) (hlen : pieces.length < 2 ^ 16)
    (ht : transferId < 2 ^ 16) (hnames : Names raw transferId text)
    (hwritable : Writable env h.disk text path)
    (hapart : ∀ i, path ≠ chunkPath transferId (i, pieces.length)) :
    Ensures (assembleFile env raw) (fun _ h' => h'.disk.content path = some pieces.flatten ∧
      ∃ packet, h'.sent = h.sent ++ [packet] ∧ Answers packet transferId flSuccess []) h := by
  obtain ⟨chunks, hstages, hcomplete, hchunks⟩ := h₀.complete hreceived
  refine (ensures_assembleFile hreliable hstages hcomplete (List.length_pos_iff.mpr hpieces) hlen ht
    hnames hwritable ⟨rfl, rfl⟩).imp ?_
  rintro _ h' ⟨disk', packet, hat, hanswers, hassembled⟩
  refine ⟨?_, packet, hat.sent, hanswers⟩
  rw [hat.disk, ← added_completeKeys hchunks]
  refine (hassembled.apart fun key hkey => ?_).1
  rw [show key = (key.1, pieces.length) from Prod.ext rfl ((hcomplete key).mp hkey).2.2]
  exact hapart key.1

end ClickA.Files

namespace ClickA.Commands

open Python Options
open Bus (Telecommand frames ArrivesWhole)
open Bus.Depacketizer (rxCommand)
open Files (Gathered Stages stagingPath chunkPath isChunk Names Writable Answers flSuccess)

attribute [local irreducible] pack HKControlPacket.encode TxPacket.encode

/-! ## The command handlers -/

/-- The commands that the main loop tests for. -/
def Command.all : List Command :=
  [.reboot, .shutdown, .enableTime, .execFile, .listFile, .autoDownlinkFile, .disassembleFile,
    .requestFile, .uplinkFile, .assembleFile, .validateFile, .moveFile, .deleteFile,
    .autoAssembleFile, .setPatMode, .singleCapture, .calibLaserTest, .fsmTest, .runCalibration,
    .testAdcsFeedback, .updateAcquisitionParams, .txAlign, .updateTxOffsets, .updateFsmAngles,
    .enterPatMain, .exitPatMain, .endPatProcess, .setFpga, .getFpga, .setHk, .echo, .noop,
    .updateSeedParams]

/-- The command with an id. -/
def Command.ofId (cmdId : ℕ) : Option Command := Command.all.find? fun c => c.id = cmdId

theorem Command.ofId_id (c : Command) : Command.ofId c.id = some c := by
  cases c <;> rfl

section Handlers

variable (other : Env → ℕ → Bytes → Stmt Unit)

/-- What the main loop does with a workload. The commands that are left out are a parameter. -/
def workload (env : Env) (patStatusFlag : ℤ) (raw : Bytes) : Stmt Unit := do
  let (cmdId, _, _, payload) ← raise (RxCommandPacket.decode raw)
  match Command.ofId cmdId with
  | some c => c.handle env patStatusFlag payload
  | none => other env cmdId payload

/-- A workload at one of the command handlers, as that handler is when it receives it. -/
structure Job where
  env : Env
  world : World
  patStatusFlag : ℤ
  raw : Bytes

/-- What a handler finds on the disk. -/
def Job.before (job : Job) (h : Files.Host) : World := { job.world with host := h }

/-- What it leaves, however it ends. -/
def Job.after (job : Job) (h : Files.Host) : World :=
  Commands.after (workload other job.env job.patStatusFlag job.raw) (job.before h)

/-- The handlers work one after the other. -/
def works (jobs : List Job) (h : Files.Host) : Files.Host :=
  jobs.foldl (fun h job => (job.after other h).host) h

/-- Whatever chunks the folder of a transfer has, the workload leaves them there. -/
def Bystander (transferId : ℕ) (raw : Bytes) : Prop :=
  ∀ job : Job, job.raw = raw → job.env.files.Reliable → ∀ h chunks,
    Stages h.disk transferId chunks → Stages (job.after other h).host.disk transferId chunks

end Handlers

/-- The workload is the uplink of a piece of a file. -/
def Brings (pieces : List Bytes) (transferId : ℕ) (raw : Bytes) (i : ℕ) : Prop :=
  ∃ s ms payload data, RxCommandPacket.decode raw = .ok (cmdPlUplinkFile, s, ms, payload) ∧
    pieces[i]? = some data ∧ Files.Carries payload transferId (i + 1, pieces.length) data

/-- The packet of the bus carries a piece of a file. -/
def CarriesPiece (pieces : List Bytes) (transferId : ℕ) (c : Telecommand) (i : ℕ) : Prop :=
  c.apid.toNat % 1024 = cmdPlUplinkFile ∧ ∃ data, pieces[i]? = some data ∧
    Files.Carries c.data transferId (i + 1, pieces.length) data

/-- A file was put together, which was reported and acknowledged. -/
structure Installed (path : Path) (content : Bytes) (transferId : ℕ) (w w' : World) : Prop where
  content : w'.host.disk.content path = some content
  reported : ∃ packet, w'.host.sent = w.host.sent ++ [packet] ∧
    Answers packet transferId flSuccess []
  acked : AckedWith cmdPlAssembleFile cmdAck w w'

variable {other : Env → ℕ → Bytes → Stmt Unit} {env : Env} {w : World} {patStatusFlag : ℤ}
  {raw payload text : Bytes} {cmdId s ms transferId i : ℕ} {pieces : List Bytes}
  {received : ℕ → Prop} {h : Files.Host} {job : Job} {jobs : List Job} {path : Path}

/-- What holds behind a statement, however it ends. -/
theorem after_of_wp {α : Type} {x : Stmt α} {P : World → Prop}
    (hx : Wp x (fun _ w' => P w') (fun _ w' => P w') w) : P (after x w) := by
  unfold Wp at hx
  unfold after
  cases hrun : x w with
  | ok a w' => rwa [hrun] at hx
  | error e w' => rwa [hrun] at hx

theorem after_of_ensures {α : Type} {x : Stmt α} {P : World → Prop}
    (hx : Ensures x (fun _ w' => P w') w) : P (after x w) :=
  after_of_wp (hx.mono (fun _ _ => id) fun _ _ hfalse => hfalse.elim)

/-- An acknowledgement leaves the disk as it is. -/
theorem ensures_ackToHk_host {status : ℕ} (hcmdId : cmdId < 2 ^ 16) (hstatus : status < 2 ^ 16) :
    Ensures (ackToHk env cmdId status)
      (fun _ w' => w'.host = w.host ∧ AckedWith cmdId status w w') w := by
  have hpack := pack_HH hcmdId hstatus
  unfold ackToHk
  rw [hpack, Ensures, wp_bind, wp_raise_ok]
  refine wp_sendToHk (by decide) (by simp) fun raw hdecode => ?_
  have hunpack := unpack_pack (.cons (exact_int 2 _) (.cons (exact_int 2 _) .nil)) hpack
  exact ⟨rfl, raw, env.pid, _, rfl, hdecode, hunpack⟩

/-- A command on files that ends normally is acknowledged. -/
theorem ensures_fileCommand {x : Files.Stmt Unit} {P : Files.Host → Prop}
    (hcmdId : cmdId < 2 ^ 16) (hx : Ensures x (fun _ h => P h) w.host) :
    Ensures (fileCommand env cmdId x)
      (fun _ w' => P w'.host ∧ AckedWith cmdId cmdAck w w') w := by
  rw [fileCommand, Ensures, wp_bind, wp_onHost]
  refine hx.mono ?_ fun _ _ hfalse => hfalse.elim
  intro _ h hP
  refine (ensures_ackToHk_host hcmdId (by decide)).imp ?_
  rintro _ w' ⟨hhost, hacked⟩
  rw [hhost]
  exact ⟨hP, hacked⟩

/-- The branch of a command. -/
theorem workload_eq {c : Command}
    (hdecode : RxCommandPacket.decode raw = .ok (c.id, s, ms, payload)) :
    workload other env patStatusFlag raw = c.handle env patStatusFlag payload := by
  unfold workload
  rw [hdecode]
  show (match Command.ofId c.id with
    | some c => c.handle env patStatusFlag payload
    | none => other env c.id payload) = _
  rw [Command.ofId_id]

/-! ## The folder, behind the handlers -/

/-- A workload brings one piece. -/
theorem Brings.inj {j : ℕ} (h : Brings pieces transferId raw i)
    (h' : Brings pieces transferId raw j) : i = j := by
  obtain ⟨s, ms, payload, data, hdecode, -, hcarries⟩ := h
  obtain ⟨s', ms', payload', data', hdecode', -, hcarries'⟩ := h'
  rw [hdecode, Except.ok.injEq, Prod.mk.injEq, Prod.mk.injEq, Prod.mk.injEq] at hdecode'
  obtain ⟨-, -, -, rfl⟩ := hdecode'
  exact Nat.succ.inj (Prod.ext_iff.mp (hcarries.inj hcarries').1).1

/-- A workload that brings a piece adds it to the folder. -/
theorem gathered_brings (other : Env → ℕ → Bytes → Stmt Unit)
    (hreliable : job.env.files.Reliable)
    (hbrings : Brings pieces transferId job.raw i)
    (h₀ : Gathered pieces transferId received h.disk) :
    Gathered pieces transferId (fun j => received j ∨ j = i) (job.after other h).host.disk := by
  obtain ⟨s, ms, payload, data, hdecode, hpiece, hcarries⟩ := hbrings
  have huplink := Files.gathered_uplinkFile hreliable h₀ hpiece hcarries
  refine after_of_ensures (P := fun w => Gathered pieces transferId _ w.host.disk) ?_
  rw [workload_eq (c := .uplinkFile) hdecode]
  exact (ensures_fileCommand (by decide) huplink).imp fun _ _ h => h.1

/-- Another workload leaves the pieces in the folder. -/
theorem gathered_bystander (hreliable : job.env.files.Reliable)
    (hbystander : Bystander other transferId job.raw)
    (h₀ : Gathered pieces transferId received h.disk) :
    Gathered pieces transferId received (job.after other h).host.disk := by
  obtain ⟨chunks, hstages, hplaced, hall⟩ := h₀
  exact ⟨chunks, hbystander job rfl hreliable h chunks hstages, hplaced, hall⟩

/-- **Behind any workloads, the folder has the pieces that they brought**, in any order and with any
repetitions. -/
theorem gathered_works (other : Env → ℕ → Bytes → Stmt Unit)
    (hreliable : ∀ job ∈ jobs, job.env.files.Reliable)
    (hjobs : ∀ job ∈ jobs,
      (∃ i, Brings pieces transferId job.raw i) ∨ Bystander other transferId job.raw)
    (h₀ : Gathered pieces transferId received h.disk) :
    Gathered pieces transferId
      (fun i => received i ∨ ∃ job ∈ jobs, Brings pieces transferId job.raw i)
      (works other jobs h).disk := by
  induction jobs generalizing h received with
  | nil => exact h₀.mono fun i hi => hi.resolve_right fun ⟨_, hmem, _⟩ => List.not_mem_nil hmem
  | cons job jobs ih =>
    have hhead := hreliable job List.mem_cons_self
    have htail := fun j hj => hreliable j (List.mem_cons_of_mem job hj)
    have hjobs' := fun j hj => hjobs j (List.mem_cons_of_mem job hj)
    by_cases hbrings : ∃ i, Brings pieces transferId job.raw i
    · obtain ⟨i, hi⟩ := hbrings
      refine (ih htail hjobs' (gathered_brings other hhead hi h₀)).mono ?_
      rintro j (hj | ⟨job', hmem, hj⟩)
      · exact .inl (.inl hj)
      · rcases List.mem_cons.mp hmem with rfl | hmem
        · exact .inl (.inr (hj.inj hi))
        · exact .inr ⟨job', hmem, hj⟩
    · have hbystander := (hjobs job List.mem_cons_self).resolve_left hbrings
      refine (ih htail hjobs' (gathered_bystander hhead hbystander h₀)).mono ?_
      rintro j (hj | ⟨job', hmem, hj⟩)
      · exact .inl hj
      · rcases List.mem_cons.mp hmem with rfl | hmem
        · exact absurd ⟨j, hj⟩ hbrings
        · exact .inr ⟨job', hmem, hj⟩

/-- The last command puts the file together, and acknowledges it. -/
theorem installed_assemble (hreliable : job.env.files.Reliable)
    (hdecode : RxCommandPacket.decode job.raw = .ok (cmdPlAssembleFile, s, ms, payload))
    (hpieces : pieces ≠ []) (h₀ : Gathered pieces transferId received h.disk)
    (hreceived : ∀ i < pieces.length, received i) (hlen : pieces.length < 2 ^ 16)
    (ht : transferId < 2 ^ 16) (hnames : Names payload transferId text)
    (hwritable : Writable job.env.files h.disk text path)
    (hapart : ∀ i, path ≠ chunkPath transferId (i, pieces.length)) :
    Installed path pieces.flatten transferId (job.before h) (job.after other h) := by
  have hassembled := Files.assembled_of_gathered hreliable hpieces h₀ hreceived hlen ht hnames
    hwritable hapart
  refine after_of_ensures (P := Installed path pieces.flatten transferId (job.before h)) ?_
  rw [workload_eq (c := .assembleFile) hdecode]
  refine (ensures_fileCommand (by decide) hassembled).imp ?_
  rintro _ w' ⟨⟨hcontent, hreported⟩, hacked⟩
  exact ⟨hcontent, hreported, hacked⟩

/-! ## The whole way -/

/-- A packet of the bus that carries a piece brings it to its handler. -/
theorem CarriesPiece.brings {c : Telecommand} (hwhole : ArrivesWhole c)
    (h : CarriesPiece pieces transferId c i) :
    Brings pieces transferId (rxCommand c.packet) i := by
  obtain ⟨hapid, data, hpiece, hcarries⟩ := h
  have hframed := c.framed_packet_iff.mpr (Bus.arrivesWhole_iff.mp hwhole)
  have hdecode := Bus.decode_rxCommand_packet hframed
  rw [hapid] at hdecode
  exact ⟨_, _, _, data, hdecode, hpiece, hcarries⟩

theorem CarriesPiece.lt {c : Telecommand} (h : CarriesPiece pieces transferId c i) :
    transferId < 2 ^ 16 ∧ pieces.length < 2 ^ 16 := by
  obtain ⟨-, data, -, hcarries⟩ := h
  exact ⟨hcarries.lt.1, hcarries.lt.2.2⟩

/-- **A file arrives**: when its pieces come in packets of the bus, between bystanders, the
depacketizer passes all of them on in their order, and wherever and in whichever order the command
handlers work on them, an assembly behind them puts the file together. -/
theorem installed_of_arrived {cs : List Telecommand}
    (hstandalone : ∀ c ∈ cs, c.grouping = .standalone) (hwhole : ∀ c ∈ cs, ArrivesWhole c)
    (hpieces : pieces ≠ [])
    (hcs : ∀ c ∈ cs, (∃ i, CarriesPiece pieces transferId c i) ∨
      Bystander other transferId (rxCommand c.packet))
    (hall : ∀ i < pieces.length, ∃ c ∈ cs, CarriesPiece pieces transferId c i)
    (hcreatable : h.disk.Creatable (stagingPath transferId))
    (hempty : ∀ name, isChunk name = true → name :: stagingPath transferId ∉ h.disk) :
    ∃ d, Bus.Depacketizer.run cs.length (Bus.Depacketizer.init (frames cs)) = .ok d ∧ d.spi = [] ∧
      d.rxCmdSocket = cs.map (fun c => rxCommand c.packet) ∧
      ∀ jobs, (jobs.map Job.raw).Perm d.rxCmdSocket →
        (∀ job ∈ jobs, job.env.files.Reliable) →
        ∀ (job : Job) s ms payload text path, job.env.files.Reliable →
          RxCommandPacket.decode job.raw = .ok (cmdPlAssembleFile, s, ms, payload) →
          Names payload transferId text →
          Writable job.env.files (works other jobs h).disk text path →
          (∀ i, path ≠ chunkPath transferId (i, pieces.length)) →
          Installed path pieces.flatten transferId (job.before (works other jobs h))
            (job.after other (works other jobs h)) := by
  have hspi : (Bus.Depacketizer.init (frames cs)).spi = frames cs ++ [] := (List.append_nil _).symm
  have hrun := Bus.run_standalone (Bus.Depacketizer.idle_init (frames cs)) hspi hstandalone hwhole
  refine ⟨_, hrun, rfl, rfl, ?_⟩
  intro jobs hperm hreliable job s ms payload text path hjob hdecode hnames hwritable hapart
  have hmem {raw : Bytes} : raw ∈ jobs.map Job.raw ↔ ∃ c ∈ cs, rxCommand c.packet = raw := by
    rw [hperm.mem_iff]
    exact List.mem_map
  have hjobs : ∀ job ∈ jobs,
      (∃ i, Brings pieces transferId job.raw i) ∨ Bystander other transferId job.raw := by
    intro job hjob
    obtain ⟨c, hc, hraw⟩ := hmem.mp (List.mem_map_of_mem hjob)
    rw [← hraw]
    exact (hcs c hc).imp_left fun ⟨i, hi⟩ => ⟨i, hi.brings (hwhole c hc)⟩
  obtain ⟨c₀, -, hcarries₀⟩ := hall 0 (List.length_pos_iff.mpr hpieces)
  have hgathered := gathered_works other hreliable hjobs
    (Files.gathered_empty pieces hcreatable hempty)
  refine installed_assemble hjob hdecode hpieces hgathered ?_ hcarries₀.lt.2 hcarries₀.lt.1 hnames
    hwritable hapart
  intro i hi
  obtain ⟨c, hc, hcarries⟩ := hall i hi
  obtain ⟨job', hmem', hraw⟩ := List.mem_map.mp (hmem.mpr ⟨c, hc, rfl⟩)
  refine .inr ⟨job', hmem', ?_⟩
  rw [hraw]
  exact hcarries.brings (hwhole c hc)

/-- A no-op leaves every folder as it is. -/
theorem bystander_noop (hdecode : RxCommandPacket.decode raw = .ok (cmdPlNoop, s, ms, payload)) :
    Bystander other transferId raw := by
  rintro job rfl - h chunks hstages
  refine after_of_ensures (P := fun w => Stages w.host.disk transferId chunks) ?_
  rw [workload_eq (c := .noop) hdecode]
  refine (ensures_ackToHk_host (by decide) (by decide)).imp ?_
  rintro _ w' ⟨hhost, -⟩
  rw [hhost]
  exact hstages

/-- The second of two pieces, a no-op, the first piece, and the second one again. -/
def arrivals : List Telecommand :=
  [Bus.standalone 0xCD (Files.chunkPayload 2 2 [7]) (by decide), Bus.standalone 0x5B [] (by decide),
    Bus.standalone 0xCD (Files.chunkPayload 1 2 [8, 9]) (by decide),
    Bus.standalone 0xCD (Files.chunkPayload 2 2 [7]) (by decide)]

theorem installed_of_arrived_arrivals :
    ∃ d, Bus.Depacketizer.run 4 (Bus.Depacketizer.init (frames arrivals)) = .ok d ∧ d.spi = [] ∧
      d.rxCmdSocket = arrivals.map (fun c => rxCommand c.packet) ∧
      ∀ jobs, (jobs.map Job.raw).Perm d.rxCmdSocket →
        (∀ job ∈ jobs, job.env.files.Reliable) →
        ∀ (job : Job) s ms payload text path, job.env.files.Reliable →
          RxCommandPacket.decode job.raw = .ok (cmdPlAssembleFile, s, ms, payload) →
          Names payload 5 text →
          Writable job.env.files (works (fun _ _ _ => pure ()) jobs {}).disk text path →
          (∀ i, path ≠ chunkPath 5 (i, 2)) →
          Installed path [8, 9, 7] 5 (job.before (works (fun _ _ _ => pure ()) jobs {}))
            (job.after (fun _ _ _ => pure ()) (works (fun _ _ _ => pure ()) jobs {})) := by
  have hfirst : CarriesPiece [[8, 9], [7]] 5
      (Bus.standalone 0xCD (Files.chunkPayload 1 2 [8, 9]) (by decide)) 0 :=
    ⟨rfl, [8, 9], rfl, 2, [8, 9], rfl, rfl⟩
  have hsecond : CarriesPiece [[8, 9], [7]] 5
      (Bus.standalone 0xCD (Files.chunkPayload 2 2 [7]) (by decide)) 1 :=
    ⟨rfl, [7], rfl, 1, [7], rfl, rfl⟩
  have hwhole : ∀ c ∈ arrivals, ArrivesWhole c := by
    simp only [Bus.arrivesWhole_iff]
    decide
  have hnoop : Bystander (fun _ _ _ => pure ()) 5
      (rxCommand (Bus.standalone 0x5B [] (by decide)).packet) :=
    bystander_noop (Bus.decode_rxCommand_packet ((Telecommand.framed_packet_iff _).mpr (by decide)))
  have hpieces : ([[8, 9], [7]] : List Bytes) ≠ [] := List.cons_ne_nil _ _
  have hcs : ∀ c ∈ arrivals, (∃ i, CarriesPiece [[8, 9], [7]] 5 c i) ∨
      Bystander (fun _ _ _ => pure ()) 5 (rxCommand c.packet) := by
    intro c hc
    simp only [arrivals, List.mem_cons, List.not_mem_nil, or_false] at hc
    rcases hc with rfl | rfl | rfl | rfl
    · exact .inl ⟨1, hsecond⟩
    · exact .inr hnoop
    · exact .inl ⟨0, hfirst⟩
    · exact .inl ⟨1, hsecond⟩
  have hall : ∀ i < [[8, 9], [7]].length, ∃ c ∈ arrivals, CarriesPiece [[8, 9], [7]] 5 c i := by
    intro i hi
    rcases i with - | - | i
    · exact ⟨_, by simp [arrivals], hfirst⟩
    · exact ⟨_, by simp [arrivals], hsecond⟩
    · exact absurd (show i + 2 < 2 from hi) (by omega)
  have hcreatable : (∅ : Disk).Creatable (stagingPath 5) := by
    intro _ _ _ hnode
    cases hnode
  have hstandalone : ∀ c ∈ arrivals, c.grouping = .standalone := by decide
  obtain ⟨d, hrun, hspi, hpassed, hinstalled⟩ := installed_of_arrived (h := {}) hstandalone hwhole
    hpieces hcs hall hcreatable fun _ _ => AList.notMem_empty _
  exact ⟨d, hrun, hspi, hpassed, hinstalled⟩

end ClickA.Commands
