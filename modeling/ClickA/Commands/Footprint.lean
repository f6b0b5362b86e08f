import ClickA.Commands.Acknowledged
import ClickA.Commands.Modes
import ClickA.Files.Earlier
import ClickA.Files.Intact

/-!
# What a command may touch

The state of the command handler in regions, and for each command those that it may touch, however
it ends. A command of a shell may do anything to the disk, and send packets.

## Main definitions

* `Region`, `Same`: a part of the state, and that it is as it was
* `Frame`: the regions beside some are as they were
* `Command.footprint`, `footprintOf`: what the commands may touch

## Main results

* `frame_onHost`, `frame_onClient`, `frame_sendPat`, `frame_system`: the frames of the statements
* `frame_handle`, `frame_body`: the frame of a command, and of a turn
* `same_serve`: behind a run, what no command of it may touch
* `bystander_of_footprint`: a command without the disk leaves all folders of transfers
-/

namespace ClickA.Files

open Python

variable {env : Env} {text : Bytes}

theorem quiet_statPath : Keeps Quiet (statPath env text) := by
  refine keeps_guard (keeps_bind confines_operation.keeps fun _ => ?_)
  exact keeps_bind (fun _ => rfl) fun h => keeps_ite (keeps_pure _) (keeps_throw _)

theorem quiet_pathExists : Keeps Quiet (pathExists env text) := by
  apply keeps_tryCatch (keeps_bind quiet_statPath fun _ => keeps_pure _)
  intro e
  cases e with
  | os n => exact keeps_pure _
  | file flag => exact keeps_throw _
  | zeroDivisionError => exact keeps_throw _
  | attributeError => exact keeps_throw _
  | raised e => exact keeps_throw _

theorem reads_validateFile {raw : Bytes} : Keeps Reads (validateFile env raw) := by
  apply keeps_bind (reads_raise _)
  rintro ⟨fileHash, fileNameLen, fileNamePayload⟩
  apply keeps_tryCatch _ reads_sendException
  apply keeps_bind reads_openRead
  intro file
  apply keeps_bind
  · exact fun h => (wp_hashFile_length file h).mono (fun _ _ hends => hends.1) fun _ _ => id
  · exact fun _ => keeps_ite (keeps_throw _) (keeps_pure _)

/-- A folder of a transfer stays when neither it nor its files nor the way to it is touched. -/
theorem Stages.touches {h h' : Host} {transferId : ℕ} {chunks : Chunks} {touched : Path → Prop}
    (hstages : Stages h.disk transferId chunks) (htouches : Touches touched h h')
    (hway : ∀ path, path <:+ stagingPath transferId → ¬ touched path)
    (hfile : ∀ name, ¬ touched (name :: stagingPath transferId)) :
    Stages h'.disk transferId chunks where
  creatable := by
    intro dir hdir node hnode
    rw [htouches dir (hway dir hdir)] at hnode
    exact hstages.creatable dir hdir node hnode
  isDir := by
    intro key hkey
    rw [htouches.isDir_eq (hway _ List.suffix_rfl)]
    exact hstages.isDir key hkey
  content := by
    intro key
    rw [chunkPath, htouches.content_eq (hfile _)]
    exact hstages.content key
  named := by
    intro name hname hmem
    rw [← AList.lookup_isSome, htouches _ (hfile name), AList.lookup_isSome] at hmem
    exact hstages.named name hname hmem

end ClickA.Files

namespace ClickA.Commands

open Python Options
open Files (Reads Touches Quiet)

attribute [local irreducible] pack HKControlPacket.encode TxPacket.encode Handler.sendPatCommand

/-! ## Regions -/

/-- A part of the state: the file of the PAT mode, the rest of the disk, the packets to the
packetizer, the FPGA client, the messages to PAT, the commands to the shell, and
`TIME_SET_ENABLE`. -/
inductive Region
  | modeFile
  | disk
  | packets
  | fpga
  | pat
  | shell
  | clock
deriving DecidableEq, Repr

/-- The path of `PAT_MODE_FILENAME`. -/
def modePath : Path := resolve [] patModeFilename

/-- The region is as it was. -/
def Same : Region → World → World → Prop
  | .modeFile, w, w' => w'.host.disk.lookup modePath = w.host.disk.lookup modePath
  | .disk, w, w' => Touches (· = modePath) w.host w'.host
  | .packets, w, w' => w'.host.sent = w.host.sent
  | .fpga, w, w' => w'.fpga = w.fpga
  | .pat, w, w' => w'.patSent = w.patSent
  | .shell, w, w' => w'.executed = w.executed
  | .clock, w, w' => w'.timeSetEnable = w.timeSetEnable

/-- The regions beside some are as they were. -/
def Frame (touched : List Region) (w w' : World) : Prop := ∀ r, r ∉ touched → Same r w w'

/-- What a command of a shell may touch. -/
def shellFootprint : List Region := [.modeFile, .disk, .packets, .shell]

/-- What a command on files may touch. -/
def filesFootprint : List Region := [.modeFile, .disk, .packets]

/-- What a command may touch. All of them send to housekeeping. -/
def Command.footprint : Command → List Region
  | reboot | shutdown | execFile => shellFootprint
  | endPatProcess => .pat :: shellFootprint
  | enableTime => [.clock]
  | autoDownlinkFile | disassembleFile | uplinkFile | assembleFile | moveFile | deleteFile
  | autoAssembleFile => filesFootprint
  | listFile | requestFile | validateFile | echo => [.packets]
  | setPatMode => [.modeFile]
  | enterPatMain => [.modeFile, .pat]
  | singleCapture | testAdcsFeedback | updateAcquisitionParams | txAlign | updateTxOffsets
  | updateFsmAngles | exitPatMain => [.pat]
  | calibLaserTest | fsmTest | runCalibration => [.fpga, .pat]
  | setFpga | updateSeedParams => [.fpga]
  | getFpga => [.packets, .fpga]
  | setHk | noop => []

/-- What the workloads with an id may touch, beside the downlink mode. -/
def footprintOf (cmdId : ℕ) : List Region :=
  match Command.ofId cmdId with
  | some c => c.footprint
  | none =>
    if cmdId = apidTimeAtTone then .clock :: shellFootprint
    else if cmdId = cmdPlSelfTest then .fpga :: .pat :: shellFootprint
    else []

variable {env : Env} {α β : Type} {x : Stmt α} {touched : List Region} {w w' w'' : World}
  {r : Region} {patStatusFlag : ℤ} {payload raw : Bytes} {cmdId status transferId : ℕ}

theorem Same.refl (r : Region) (w : World) : Same r w w := by
  cases r with
  | disk => exact refl_of (Touches (· = modePath)) w.host
  | modeFile => rfl
  | packets => rfl
  | fpga => rfl
  | pat => rfl
  | shell => rfl
  | clock => rfl

theorem Same.trans (h : Same r w w') (h' : Same r w' w'') : Same r w w'' := by
  cases r with
  | disk => exact Touches.trans h h'
  | modeFile => exact Eq.trans h' h
  | packets => exact Eq.trans h' h
  | fpga => exact Eq.trans h' h
  | pat => exact Eq.trans h' h
  | shell => exact Eq.trans h' h
  | clock => exact Eq.trans h' h

instance : Std.Refl (Frame touched) := ⟨fun w r _ => .refl r w⟩

instance : IsTrans World (Frame touched) := ⟨fun _ _ _ h h' r hr => (h r hr).trans (h' r hr)⟩

/-- A step that touches one region. -/
theorem frame_of_same (hr : r ∈ touched) (h : ∀ r', r' ≠ r → Same r' w w') : Frame touched w w' :=
  fun r' hr' => h r' fun heq => hr' (heq ▸ hr)

/-! ## Statements -/

theorem frame_raise (y : Except Exn α) : Keeps (Frame touched) (raise y) := by
  cases y with
  | ok a => exact keeps_pure a
  | error e => exact keeps_throw _

theorem frame_sendToHk {command : ℕ} : Keeps (Frame touched) (sendToHk env command payload) := by
  refine keeps_bind (frame_raise _) fun raw w r _ => ?_
  cases r with
  | disk => exact fun _ _ => rfl
  | modeFile => rfl
  | packets => rfl
  | fpga => rfl
  | pat => rfl
  | shell => rfl
  | clock => rfl

theorem frame_ackToHk : Keeps (Frame touched) (ackToHk env cmdId status) :=
  keeps_bind (frame_raise _) fun _ => frame_sendToHk

theorem frame_setHkChPeriod {newPeriod : ℕ} :
    Keeps (Frame touched) (setHkChPeriod env newPeriod) :=
  keeps_bind (frame_raise _) fun _ => frame_sendToHk

/-- A statement on the disk, of which something is known. -/
theorem frame_onHost {y : Files.Stmt α} {R : Files.Host → Files.Host → Prop} (hy : Keeps R y)
    (hmodeFile : .modeFile ∈ touched ∨
      ∀ h h', R h h' → h'.disk.lookup modePath = h.disk.lookup modePath)
    (hdisk : .disk ∈ touched ∨ ∀ h h', R h h' → Touches (· = modePath) h h')
    (hpackets : .packets ∈ touched ∨ ∀ h h', R h h' → h'.sent = h.sent) :
    Keeps (Frame touched) (onHost y) := by
  intro w
  have hframe (h' : Files.Host) (hR : R w.host h') : Frame touched w { w with host := h' } := by
    intro r hr
    cases r with
    | modeFile => exact hmodeFile.resolve_left hr _ _ hR
    | disk => exact hdisk.resolve_left hr _ _ hR
    | packets => exact hpackets.resolve_left hr _ _ hR
    | fpga => rfl
    | pat => rfl
    | shell => rfl
    | clock => rfl
  rw [wp_onHost]
  exact (hy w.host).mono (fun _ h' => hframe h') fun _ h' => hframe h'

theorem frame_onHost_any (hmodeFile : .modeFile ∈ touched) (hdisk : .disk ∈ touched)
    (hpackets : .packets ∈ touched) (y : Files.Stmt α) : Keeps (Frame touched) (onHost y) :=
  frame_onHost (R := fun _ _ => True) (fun _ => wp_true) (.inl hmodeFile) (.inl hdisk)
    (.inl hpackets)

/-- A statement that reads the disk only may send packets. -/
theorem frame_onHost_reads {y : Files.Stmt α} (hpackets : .packets ∈ touched)
    (hy : Keeps Reads y) : Keeps (Frame touched) (onHost y) := by
  refine frame_onHost hy (.inr fun h h' hreads => ?_) (.inr fun h h' hreads => ?_) (.inl hpackets)
  · exact congrArg (fun disk => disk.lookup modePath) hreads
  · exact hreads.touches

theorem frame_sendTx {apid : ℕ} (hpackets : .packets ∈ touched) :
    Keeps (Frame touched) (sendTx apid payload) :=
  frame_onHost_reads hpackets (Files.reads_sendPacket apid payload)

theorem frame_system {command : Bytes} (h : ∀ r ∈ shellFootprint, r ∈ touched) :
    Keeps (Frame touched) (system env command) := by
  refine keeps_guard fun w r hr => ?_
  cases r with
  | modeFile => exact absurd (h _ (by decide)) hr
  | disk => exact absurd (h _ (by decide)) hr
  | packets => exact absurd (h _ (by decide)) hr
  | shell => exact absurd (h _ (by decide)) hr
  | fpga => rfl
  | pat => rfl
  | clock => rfl

theorem frame_onClient {raised : Client.Fault → Err} (hfpga : .fpga ∈ touched)
    (y : Client.ClientM α) : Keeps (Frame touched) (onClient raised y) := by
  have hframe (w : World) (s : Client.State) : Frame touched w { w with fpga := s } := by
    refine frame_of_same hfpga fun r hr => ?_
    cases r with
    | disk => exact fun _ _ => rfl
    | fpga => exact absurd rfl hr
    | modeFile => rfl
    | packets => rfl
    | pat => rfl
    | shell => rfl
    | clock => rfl
  intro w
  rw [wp_onClient]
  exact wp_true.mono (fun _ s _ => hframe w s) fun _ s _ => hframe w s

theorem frame_readReg {addr size : ℕ} (hfpga : .fpga ∈ touched) :
    Keeps (Frame touched) (readReg env addr size) :=
  keeps_bind (frame_onClient hfpga _) fun _ => frame_onClient hfpga _

theorem frame_writeReg {addr : ℕ} {value : Client.WriteValue} (hfpga : .fpga ∈ touched) :
    Keeps (Frame touched) (writeReg env addr value) :=
  keeps_bind (frame_onClient hfpga _) fun _ => frame_onClient hfpga _

theorem frame_setReg {addr : ℕ} {n : ℤ} (hfpga : .fpga ∈ touched) :
    Keeps (Frame touched) (setReg env addr n) :=
  keeps_bind (frame_writeReg hfpga) fun _ => keeps_pure _

theorem frame_initializeCalLaser (hfpga : .fpga ∈ touched) :
    Keeps (Frame touched) (initializeCalLaser env) := by
  have hswitchOn (addr : ℕ) : Keeps (Frame touched) (switchOn env addr) :=
    keeps_bind (frame_readReg hfpga) fun _ => keeps_ite (frame_setReg hfpga) (keeps_pure _)
  apply keeps_bind (hswitchOn _)
  intro _
  apply keeps_bind (hswitchOn _)
  intro _
  apply keeps_bind (frame_setReg hfpga)
  intro _
  apply keeps_bind (frame_setReg hfpga)
  intro _
  exact frame_setReg hfpga

theorem frame_sendPat {command : ℕ} (hpat : .pat ∈ touched) :
    Keeps (Frame touched) (sendPat command payload) := by
  refine keeps_bind (frame_raise _) fun raw w => frame_of_same hpat fun r hr => ?_
  cases r with
  | disk => exact fun _ _ => rfl
  | pat => exact absurd rfl hr
  | modeFile => rfl
  | packets => rfl
  | fpga => rfl
  | shell => rfl
  | clock => rfl

theorem frame_setFlag (hclock : .clock ∈ touched) (flag : World → ℕ) :
    Keeps (Frame touched) (modify fun w => { w with timeSetEnable := flag w } : Stmt Unit) := by
  refine fun w => frame_of_same hclock fun r hr => ?_
  cases r with
  | disk => exact fun _ _ => rfl
  | clock => exact absurd rfl hr
  | modeFile => rfl
  | packets => rfl
  | fpga => rfl
  | pat => rfl
  | shell => rfl

/-! ## The file of the PAT mode -/

/-- The file of the mode may be written, and nothing is sent. -/
def WritesMode (h h' : Files.Host) : Prop := Touches (· = modePath) h h' ∧ Quiet h h'

instance : Std.Refl WritesMode := ⟨fun h => ⟨refl_of (Touches _) h, refl_of Quiet h⟩⟩

instance : IsTrans Files.Host WritesMode :=
  ⟨fun _ _ _ h h' => ⟨h.1.trans h'.1, trans_of Quiet h.2 h'.2⟩⟩

theorem keeps_setPatMode (modeId : ℕ) : Keeps WritesMode (Commands.setPatMode env modeId) := by
  have hopen (h : Files.Host) : Wp (Files.openWrite env.files patModeFilename)
      (fun path h' => path = modePath ∧ Touches (· = modePath) h h')
      (fun _ h' => Touches (· = modePath) h h') h := by
    refine Files.wp_openWrite.mono ?_ fun _ _ hreads => hreads.touches
    rintro path h' ⟨htarget, hput⟩
    have hpath : path = modePath := by
      rw [← resolve_of_target htarget]
      exact resolve_of_absolute rfl _ _
    exact ⟨hpath, Files.touches_put hput hpath⟩
  have htouches : Keeps (Touches (· = modePath)) (Commands.setPatMode env modeId) := by
    refine keeps_ite (fun h => ?_) (keeps_pure _)
    rw [wp_bind]
    refine (hopen h).mono ?_ fun _ _ htouches => htouches
    rintro path h' ⟨rfl, htouches⟩
    have hwrite : Keeps (Touches (· = modePath)) (Files.write env.files modePath (str modeId)) :=
      Files.touches_write rfl
    exact hwrite.trans htouches
  have hquiet : Keeps Quiet (Commands.setPatMode env modeId) :=
    keeps_ite (keeps_bind Files.confines_openWrite.keeps fun _ => Files.confines_write.keeps)
      (keeps_pure _)
  exact htouches.and hquiet

theorem keeps_getPatMode : Keeps WritesMode (getPatMode env) := by
  have hreset : Keeps WritesMode (resetPatMode env) :=
    keeps_bind (keeps_setPatMode _) fun _ => keeps_pure _
  have hreads {α : Type} {y : Files.Stmt α} (hy : Keeps Reads y) (hquiet : Keeps Quiet y) :
      Keeps WritesMode y :=
    (Files.touches_of_reads hy).and hquiet
  apply keeps_bind (hreads Files.reads_pathExists Files.quiet_pathExists)
  intro found
  refine keeps_ite ?_ hreset
  apply keeps_bind (hreads Files.reads_openRead Files.confines_openRead.keeps)
  intro patModeFile
  apply keeps_bind (hreads Files.reads_readAll Files.confines_readAll.keeps)
  intro content
  -- what is no mode is replaced by the default
  cases intOf content with
  | ok modeId => exact keeps_ite (keeps_pure _) hreset
  | error e => exact hreset

theorem frame_onHost_mode {y : Files.Stmt α} (hmodeFile : .modeFile ∈ touched)
    (hy : Keeps WritesMode y) : Keeps (Frame touched) (onHost y) :=
  frame_onHost hy (.inl hmodeFile) (.inr fun _ _ hwrites => hwrites.1)
    (.inr fun _ _ hwrites => hwrites.2)

/-! ## The commands -/

theorem frame_accept {accepted : Bool} {body : Stmt Unit} (hbody : Keeps (Frame touched) body) :
    Keeps (Frame touched) (accept env accepted cmdId body) :=
  keeps_ite (keeps_bind hbody fun _ => frame_ackToHk) frame_ackToHk

theorem frame_fileCommand {y : Files.Stmt Unit} (hy : Keeps (Frame touched) (onHost y)) :
    Keeps (Frame touched) (fileCommand env cmdId y) :=
  keeps_bind hy fun _ => frame_ackToHk

/-- What is unpacked is matched with the values of a format. -/
theorem frame_unpack {fmt : Format} {f : List Value → Stmt α}
    (hf : ∀ values, Keeps (Frame touched) (f values)) :
    Keeps (Frame touched) (raise (unpack fmt payload) >>= f) :=
  keeps_bind (frame_raise _) hf

theorem frame_execFile : Keeps (Frame shellFootprint) (execFile env payload) := by
  refine frame_unpack fun values => ?_
  split
  · exact keeps_tryCatch (keeps_bind (frame_system fun _ => id) fun _ => frame_ackToHk)
      fun _ => frame_ackToHk
  · exact keeps_throw _

theorem frame_listFile : Keeps (Frame [.packets]) (listFile env payload) := by
  refine frame_unpack fun values => ?_
  split
  · apply keeps_bind _ fun _ => frame_sendTx (by decide)
    apply keeps_tryCatch
    · refine keeps_bind (keeps_guard ?_) fun _ => keeps_bind frame_ackToHk fun _ => keeps_pure _
      exact frame_onHost_reads (by decide) Files.reads_listdir
    · exact fun _ => keeps_bind frame_ackToHk fun _ => keeps_pure _
  · exact keeps_throw _

theorem frame_setMode : Keeps (Frame [.modeFile]) (setMode env payload) := by
  refine frame_unpack fun values => ?_
  split
  · apply keeps_bind
    · refine keeps_ite (keeps_bind ?_ fun _ => frame_ackToHk) frame_ackToHk
      exact frame_onHost_mode (by decide) (keeps_setPatMode _)
    · intro _
      exact keeps_bind (frame_onHost_mode (by decide) keeps_getPatMode) fun _ => keeps_pure _
  · exact keeps_throw _

theorem frame_capture : Keeps (Frame [.pat]) (capture env patStatusFlag payload) := by
  apply keeps_bind (frame_raise _)
  intro c
  exact frame_accept (keeps_forM (fun _ => frame_sendPat (by decide)) _)

theorem frame_calibLaserTest :
    Keeps (Frame [.fpga, .pat]) (calibLaserTest env patStatusFlag payload) := by
  refine frame_unpack fun values => ?_
  split
  · apply keeps_ite _ frame_ackToHk
    apply keeps_bind (frame_initializeCalLaser (by decide))
    intro _
    exact keeps_bind (frame_sendPat (by decide)) fun _ => frame_ackToHk
  · exact keeps_throw _

theorem frame_fsmTest : Keeps (Frame [.fpga, .pat]) (fsmTest env patStatusFlag payload) := by
  refine frame_unpack fun values => ?_
  split
  · apply frame_accept
    exact keeps_bind (frame_initializeCalLaser (by decide)) fun _ => frame_sendPat (by decide)
  · exact keeps_throw _

theorem frame_updateAcquisitionParams :
    Keeps (Frame [.pat]) (updateAcquisitionParams env patStatusFlag payload) := by
  apply keeps_bind (frame_raise _)
  intro a
  refine keeps_ite (keeps_ite ?_ (keeps_pure _)) frame_ackToHk
  apply keeps_bind (frame_sendPat (by decide))
  intro _
  apply keeps_bind (frame_sendPat (by decide))
  intro _
  apply keeps_bind (frame_sendPat (by decide))
  intro _
  exact keeps_bind (frame_sendPat (by decide)) fun _ => frame_ackToHk

theorem frame_sendPatIf {sends : Bool} {command : ℕ} (hpat : .pat ∈ touched) :
    Keeps (Frame touched) (sendPatIf sends command payload) :=
  keeps_ite (frame_sendPat hpat) (keeps_pure _)

theorem frame_updateTxOffsets :
    Keeps (Frame [.pat]) (updateTxOffsets env patStatusFlag payload) := by
  refine frame_unpack fun values => ?_
  split
  · apply frame_accept
    apply keeps_bind (frame_sendPatIf (by decide))
    intro _
    apply keeps_bind (frame_sendPatIf (by decide))
    intro _
    apply keeps_ite _ (keeps_pure _)
    apply keeps_bind (frame_sendPat (by decide))
    intro _
    apply keeps_ite _ (keeps_pure _)
    exact keeps_bind (frame_sendPat (by decide)) fun _ => frame_sendPat (by decide)
  · exact keeps_throw _

theorem frame_updateFsmAngles :
    Keeps (Frame [.pat]) (updateFsmAngles env patStatusFlag payload) := by
  refine frame_unpack fun values => ?_
  split
  · apply frame_accept
    exact keeps_bind (frame_sendPatIf (by decide)) fun _ => frame_sendPatIf (by decide)
  · exact keeps_throw _

theorem frame_enterPatMain : Keeps (Frame [.modeFile, .pat]) (enterPatMain env patStatusFlag) := by
  have henter (flag : ℕ) : Keeps (Frame [.modeFile, .pat]) (enterMain env flag) :=
    keeps_bind (frame_onHost_mode (by decide) keeps_getPatMode) fun _ => frame_sendPat (by decide)
  refine keeps_ite ?_ (keeps_ite ?_ frame_ackToHk)
  · exact keeps_bind (henter _) fun _ => frame_ackToHk
  · exact keeps_bind (henter _) fun _ => frame_ackToHk

theorem frame_compareRegs {numRegisters : ℕ} {checkWriteData : List Value} {writeData : List ℤ} :
    Keeps (Frame touched) (compareRegs env numRegisters checkWriteData writeData) :=
  keeps_bind (frame_raise _) fun _ => frame_ackToHk

theorem frame_setFpga : Keeps (Frame [.fpga]) (setFpga env payload) := by
  refine frame_unpack fun values => ?_
  split
  · apply keeps_ite _ (keeps_pure _)
    apply keeps_bind (frame_writeReg (by decide))
    intro _
    apply keeps_bind (frame_readReg (by decide))
    intro value
    split
    · exact frame_compareRegs
    · exact frame_ackToHk
  · exact keeps_throw _

theorem frame_getFpga : Keeps (Frame [.packets, .fpga]) (getFpga env payload) := by
  refine frame_unpack fun values => ?_
  split
  · apply keeps_bind (frame_readReg (by decide))
    intro value
    split
    · refine keeps_ite frame_ackToHk (keeps_bind (frame_raise _) fun _ => ?_)
      exact keeps_bind (frame_sendTx (by decide)) fun _ => frame_ackToHk
    · exact frame_ackToHk
  · exact keeps_throw _

theorem frame_updateSeedParams : Keeps (Frame [.fpga]) (updateSeedParams env payload) := by
  refine frame_unpack fun values => ?_
  split
  · apply keeps_ite _ (keeps_pure _)
    apply keeps_bind (frame_writeReg (by decide))
    intro _
    apply keeps_bind (frame_readReg (by decide))
    intro value
    exact keeps_bind (frame_raise _) fun _ => frame_compareRegs
  · exact keeps_throw _

theorem frame_enableTime : Keeps (Frame [.clock]) (enableTime env) :=
  keeps_bind (frame_setFlag (by decide) _) fun _ => frame_ackToHk

/-- **However a command ends, what its footprint does not have is as it was.** -/
theorem frame_handle (c : Command) :
    Keeps (Frame c.footprint) (c.handle env patStatusFlag payload) := by
  have hfiles (y : Files.Stmt Unit) : Keeps (Frame filesFootprint) (onHost y) :=
    frame_onHost_any (by decide) (by decide) (by decide) y
  have hreads {y : Files.Stmt Unit} (hy : Keeps Reads y) : Keeps (Frame [.packets]) (onHost y) :=
    frame_onHost_reads (by decide) hy
  cases c with
  | reboot => exact keeps_bind frame_ackToHk fun _ => frame_system fun _ => id
  | shutdown => exact keeps_bind frame_ackToHk fun _ => frame_system fun _ => id
  | enableTime => exact frame_enableTime
  | execFile => exact frame_execFile
  | listFile => exact frame_listFile
  | autoDownlinkFile => exact frame_fileCommand (hfiles _)
  | disassembleFile => exact frame_fileCommand (hfiles _)
  | requestFile => exact frame_fileCommand (hreads (Files.reads_requestFile _))
  | uplinkFile => exact frame_fileCommand (hfiles _)
  | assembleFile => exact frame_fileCommand (hfiles _)
  | validateFile => exact frame_fileCommand (hreads Files.reads_validateFile)
  | moveFile => exact frame_fileCommand (hfiles _)
  | deleteFile => exact frame_fileCommand (hfiles _)
  | autoAssembleFile => exact frame_fileCommand (hfiles _)
  | setPatMode => exact frame_setMode
  | singleCapture => exact frame_capture
  | calibLaserTest => exact frame_calibLaserTest
  | fsmTest => exact frame_fsmTest
  | runCalibration =>
    exact frame_accept (keeps_bind (frame_initializeCalLaser (by decide)) fun _ =>
      frame_sendPat (by decide))
  | testAdcsFeedback => exact frame_accept (frame_sendPat (by decide))
  | updateAcquisitionParams => exact frame_updateAcquisitionParams
  | txAlign => exact frame_accept (frame_sendPat (by decide))
  | updateTxOffsets => exact frame_updateTxOffsets
  | updateFsmAngles => exact frame_updateFsmAngles
  | enterPatMain => exact frame_enterPatMain
  | exitPatMain => exact frame_accept (frame_sendPat (by decide))
  | endPatProcess =>
    refine keeps_bind (keeps_bind (frame_sendPat (by decide)) fun _ => ?_) fun _ => frame_ackToHk
    exact frame_system fun _ => List.mem_cons_of_mem _
  | setFpga => exact frame_setFpga
  | getFpga => exact frame_getFpga
  | setHk =>
    refine frame_unpack fun values => ?_
    split
    · exact keeps_bind frame_sendToHk fun _ => frame_ackToHk
    · exact keeps_throw _
  | echo =>
    refine frame_unpack fun values => ?_
    split
    · exact keeps_bind (frame_sendTx (by decide)) fun _ => frame_ackToHk
    · exact keeps_throw _
  | noop => exact frame_ackToHk
  | updateSeedParams => exact frame_updateSeedParams

/-! ## The other branches -/

theorem frame_timeAtTone : Keeps (Frame (.clock :: shellFootprint)) (timeAtTone env payload) := by
  apply keeps_bind keeps_get
  intro w
  refine keeps_ite (frame_unpack fun values => ?_) (keeps_pure _)
  split
  · apply keeps_bind (frame_raise _)
    intro setTime
    apply keeps_bind (frame_system fun _ => List.mem_cons_of_mem _)
    intro _
    exact frame_setFlag (by decide) _
  · exact keeps_throw _

theorem frame_selfTest : Keeps (Frame (.fpga :: .pat :: shellFootprint))
    (selfTest env patStatusFlag payload) := by
  have hscript (script : Bytes) :
      Keeps (Frame (.fpga :: .pat :: shellFootprint)) (runTestScript env script) := by
    apply keeps_bind frame_setHkChPeriod
    intro _
    apply keeps_bind _ fun _ => frame_setHkChPeriod
    apply keeps_tryCatch _ fun _ => keeps_pure _
    exact frame_system fun _ hr => List.mem_cons_of_mem _ (List.mem_cons_of_mem _ hr)
  refine frame_unpack fun values => ?_
  split
  · refine keeps_ite (hscript _) (keeps_ite (hscript _) (keeps_ite ?_ (keeps_pure _)))
    apply keeps_ite
    · exact keeps_bind (frame_initializeCalLaser (by decide)) fun _ => frame_sendPat (by decide)
    · exact keeps_ite (frame_sendPat (by decide)) (keeps_pure _)
  · exact keeps_throw _

theorem frame_otherCommand {dwnlinkMode : Stmt Unit} (hother : Command.ofId cmdId = none)
    (hdwnlink : cmdId ≠ cmdPlDwnlinkMode) : Keeps (Frame (footprintOf cmdId))
    (otherCommand env dwnlinkMode patStatusFlag cmdId payload) := by
  unfold footprintOf otherCommand
  rw [hother]
  dsimp only
  rw [if_neg hdwnlink]
  split
  · exact frame_timeAtTone
  · split
    · exact frame_selfTest
    · exact keeps_ite (keeps_throw _) (keeps_pure _)

/-! ## Turns -/

section Turns

variable {dwnlinkMode : Env → Stmt Unit} {t : Turn} {turns : List Turn}

/-- What a turn may touch. -/
def Turn.footprint (t : Turn) : List Region :=
  match RxCommandPacket.decode t.raw with
  | .ok (cmdId, _) => footprintOf cmdId
  | .error _ => []

/-- The region is not in the process, which an exception ends. -/
def Region.outside : Region → Bool
  | fpga | clock => false
  | _ => true

theorem Turn.HasId.inj {cmdId' : ℕ} (h : t.HasId cmdId) (h' : t.HasId cmdId') : cmdId = cmdId' := by
  obtain ⟨s, ms, payload, hdecode⟩ := h
  obtain ⟨s', ms', payload', hdecode'⟩ := h'
  exact (Prod.ext_iff.mp (Except.ok.inj (hdecode.symm.trans hdecode'))).1

theorem Turn.footprint_eq (h : t.HasId cmdId) : t.footprint = footprintOf cmdId := by
  obtain ⟨s, ms, payload, hdecode⟩ := h
  unfold Turn.footprint
  rw [hdecode]

theorem frame_body (hdwnlink : ¬ t.HasId cmdPlDwnlinkMode) :
    Keeps (Frame t.footprint) (t.body dwnlinkMode) := by
  unfold Turn.body workload
  cases hdecode : RxCommandPacket.decode t.raw with
  | error e => exact fun w => refl_of (Frame _) w
  | ok decoded =>
    obtain ⟨cmdId, s, ms, payload⟩ := decoded
    rw [Turn.footprint_eq ⟨s, ms, payload, hdecode⟩]
    show Keeps _ (match Command.ofId cmdId with
      | some c => c.handle t.env t.patStatusFlag payload
      | none => otherCommand t.env (dwnlinkMode t.env) t.patStatusFlag cmdId payload)
    cases hofId : Command.ofId cmdId with
    | some c =>
      rw [footprintOf, hofId]
      exact frame_handle c
    | none =>
      apply frame_otherCommand hofId
      rintro rfl
      exact hdwnlink ⟨s, ms, payload, hdecode⟩

theorem same_restarted (hr : r.outside = true) : Same r w (restarted w) := by
  cases r with
  | disk => exact fun _ _ => rfl
  | fpga => cases hr
  | clock => cases hr
  | modeFile => rfl
  | packets => rfl
  | pat => rfl
  | shell => rfl

/-- A turn may end the process. -/
theorem same_turn (hdwnlink : ¬ t.HasId cmdPlDwnlinkMode) (hr : r.outside = true)
    (hfootprint : r ∉ t.footprint) : Same r w (turn dwnlinkMode w t) := by
  have hframe : Wp (t.body dwnlinkMode) _ _ w := frame_body hdwnlink w
  unfold Wp at hframe
  unfold turn
  cases hbody : t.body dwnlinkMode w with
  | ok a w' =>
    rw [hbody] at hframe
    exact hframe r hfootprint
  | error e w' =>
    rw [hbody] at hframe
    exact (hframe r hfootprint).trans (same_restarted hr)

/-- **Behind a run, what no command of it may touch is as it was**, also when the process was
started again. -/
theorem same_serve (hr : r.outside = true)
    (hturns : ∀ t ∈ turns, ¬ t.HasId cmdPlDwnlinkMode ∧ r ∉ t.footprint) :
    Same r w (serve dwnlinkMode turns w) := by
  induction turns generalizing w with
  | nil => exact .refl r w
  | cons t turns ih =>
    obtain ⟨hdwnlink, hfootprint⟩ := hturns t List.mem_cons_self
    exact (same_turn hdwnlink hr hfootprint).trans
      (ih fun t' ht' => hturns t' (List.mem_cons_of_mem t ht'))

/-- The acquisition gets its parameters, then a workload that is too short ends the process, and the
parameters come again while PAT is in its main mode. -/
def restartingTurns : List Turn :=
  [⟨quietEnv, patStatusStandby, acquisitionPacket⟩, ⟨quietEnv, patStatusStandby, []⟩,
    ⟨quietEnv, patStatusMain, acquisitionPacket⟩]

theorem same_serve_restartingTurns :
    (serve (fun _ => pure ()) restartingTurns {}).patSent.length = 4 ∧
      Same .disk {} (serve (fun _ => pure ()) restartingTurns {}) := by
  refine ⟨by decide +kernel, same_serve rfl ?_⟩
  have hacquisition (flag : ℤ) : ¬ (⟨quietEnv, flag, acquisitionPacket⟩ : Turn).HasId
        cmdPlDwnlinkMode ∧ .disk ∉ (⟨quietEnv, flag, acquisitionPacket⟩ : Turn).footprint := by
    have hid : (⟨quietEnv, flag, acquisitionPacket⟩ : Turn).HasId cmdPlUpdateAcquisitionParams :=
      ⟨0, 0, _, decode_acquisitionPacket⟩
    rw [Turn.footprint_eq hid]
    exact ⟨fun hdwnlink => absurd (hid.inj hdwnlink) (by decide), by decide⟩
  have hshort : ¬ (⟨quietEnv, patStatusStandby, []⟩ : Turn).HasId cmdPlDwnlinkMode ∧
      .disk ∉ (⟨quietEnv, patStatusStandby, []⟩ : Turn).footprint := by
    refine ⟨?_, List.not_mem_nil⟩
    rintro ⟨s, ms, payload, hdecode⟩
    cases hdecode
  simp only [restartingTurns, List.forall_mem_cons]
  exact ⟨hacquisition _, hshort, hacquisition _, List.forall_mem_nil _⟩

end Turns

/-! ## Folders of transfers -/

/-- **A command without the disk leaves every folder of a transfer as it is.** -/
theorem bystander_of_footprint {other : Env → ℕ → Bytes → Stmt Unit} {c : Command} {s ms : ℕ}
    (hdecode : RxCommandPacket.decode raw = .ok (c.id, s, ms, payload))
    (hdisk : .disk ∉ c.footprint) (transferId : ℕ) : Bystander other transferId raw := by
  rintro job rfl - h chunks hstages
  refine after_of_wp (P := fun w => Files.Stages w.host.disk transferId chunks) ?_
  rw [workload_eq hdecode]
  have hkept (w : World) (hframe : Frame c.footprint (job.before h) w) :
      Files.Stages w.host.disk transferId chunks := by
    have htouches : Touches (· = modePath) h w.host := hframe .disk hdisk
    refine hstages.touches htouches ?_ fun name heq => ?_
    -- the file of the mode is in another directory
    · rintro path hsuffix rfl
      have htail : modePath.tail = [ascii "file_staging", ascii "root"] :=
        congrArg List.tail (hsuffix.eq_of_length rfl)
      exact absurd htail (by decide)
    · have hlength := congrArg List.length heq
      cases hlength
  exact (frame_handle c _).mono (fun _ => hkept) fun _ => hkept

end ClickA.Commands
