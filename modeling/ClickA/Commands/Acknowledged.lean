import ClickA.Commands.Registers
import ClickA.Files.Reassembly

/-!
# Acknowledged commands

Housekeeping counts the commands by their acknowledgements: a command is to be acknowledged exactly
once, and as itself.

## Main results

* `settles_handle`: what each branch of the main loop acknowledges
* `acknowledged_iff`: a command is acknowledged once and as itself if and only if it meets its
  condition
-/

namespace ClickA.Commands

open Python Options Fpga Handler

attribute [local irreducible] pack unpack HKControlPacket.encode TxPacket.encode sendPatCommand
  FPGAMapRequestPacket.encode

variable {env : Env} {w : World} {patStatusFlag : ℤ} {payload workload : Bytes} {cmdId s ms : ℕ}
  {good : Prop}

/-- Each branch acknowledges its command once if and only if the command meets its condition. -/
theorem settles_handle (c : Command)
    (hformat : ∀ fmt, c.format payload.length = some fmt → payload.length = calcsize fmt)
    (hpayload : payload.length < 2 ^ 16) :
    Settles (c.Meets env w payload patStatusFlag) c.id (c.handle env patStatusFlag payload) w := by
  cases c with
  | reboot => exact settles_reboot
  | shutdown => exact settles_shutdown
  | enableTime => exact settles_enableTime
  | execFile => exact settles_execFile (hformat _ rfl)
  | listFile => exact settles_listFile (hformat _ rfl)
  | autoDownlinkFile => exact settles_fileCommand (by decide) _
  | disassembleFile => exact settles_fileCommand (by decide) _
  | requestFile => exact settles_fileCommand (by decide) _
  | uplinkFile => exact settles_fileCommand (by decide) _
  | assembleFile => exact settles_fileCommand (by decide) _
  | validateFile => exact settles_fileCommand (by decide) _
  | moveFile => exact settles_fileCommand (by decide) _
  | deleteFile => exact settles_fileCommand (by decide) _
  | autoAssembleFile => exact settles_fileCommand (by decide) _
  | setPatMode => exact settles_setMode (hformat _ rfl)
  | singleCapture => exact settles_capture (hformat _ rfl)
  | calibLaserTest => exact settles_calibLaserTest (hformat _ rfl)
  | fsmTest => exact settles_fsmTest (hformat _ rfl)
  | runCalibration => exact settles_runCalibration
  | testAdcsFeedback => exact settles_testAdcsFeedback
  | updateAcquisitionParams => exact settles_updateAcquisitionParams (hformat _ rfl)
  | txAlign => exact settles_txAlign
  | updateTxOffsets => exact settles_updateTxOffsets (hformat _ rfl)
  | updateFsmAngles => exact settles_updateFsmAngles (hformat _ rfl)
  | enterPatMain => exact settles_enterPatMain
  | exitPatMain => exact settles_exitPatMain
  | endPatProcess => exact settles_endPatProcess
  | setFpga => exact settles_setFpga (hformat _ rfl)
  | getFpga => exact settles_getFpga (hformat _ rfl)
  | setHk => exact settles_setHk (hformat _ rfl)
  | echo => exact settles_echo (hformat _ rfl) hpayload
  | noop => exact settles_own (by decide) (by decide) trivial
  | updateSeedParams => exact absurd (hformat _ rfl) (calcsize_seedFormat_ne _)

/-- What settles a command decides it, where no answer of the FPGA raises. -/
theorem Settles.acknowledgedOnce_iff {x : Stmt Unit} (h : Settles good cmdId x w)
    (hanswer : ∀ f w', x w ≠ .error (.fpga f) w') :
    AcknowledgedOnce cmdId w (after x w) ↔ good := by
  unfold Settles Wp at h
  unfold after
  cases hx : x w with
  | ok a w' =>
    rw [hx] at h
    exact h.acknowledgedOnce_iff
  | error e w' =>
    rw [hx] at h
    obtain ⟨f, rfl⟩ | houtcome := h
    · exact absurd hx (hanswer f w')
    · exact houtcome.acknowledgedOnce_iff

/-- **A command is acknowledged exactly once and as itself if and only if it meets its condition**,
where its payload has the length of its format and no answer of the FPGA raises. -/
theorem acknowledged_iff {c : Command}
    (hdecode : RxCommandPacket.decode workload = .ok (c.id, s, ms, payload))
    (hformat : ∀ fmt, c.format payload.length = some fmt → payload.length = calcsize fmt)
    (hanswer : ∀ f w', c.handle env patStatusFlag payload w ≠ .error (.fpga f) w') :
    AcknowledgedOnce c.id w (after (c.handle env patStatusFlag payload) w) ↔
      c.Meets env w payload patStatusFlag :=
  (settles_handle c hformat (RxCommandPacket.length_lt_of_decode hdecode)).acknowledgedOnce_iff
      hanswer

/-- A payload computer whose FPGA answers and whose disk does not fail. -/
def quietEnv : Env where
  pid := 1
  pid_lt := by decide
  maxint := 2 ^ 31 - 1
  files := Files.plainEnv
  fpga := Client.constantServer (fun _ => 0) (fun _ => 0) fun _ => true
  shell := fun _ host => host
  report := fun _ => []

/-- A beacon at (100, -50), a window of 600 pixels, and an exposure of at most 5000 us. -/
def acquisitionParams : Bytes := [0, 100, 0xFF, 0xCE, 2, 88, 0, 0, 19, 136]

/-- `CMD_PL_UPDATE_ACQUISITION_PARAMS`. -/
def acquisitionPacket : Bytes :=
  RxCommandPacket.header cmdPlUpdateAcquisitionParams 10 0 0 ++ acquisitionParams

/-- `CMD_PL_CALIB_LASER_TEST`, with an exposure of 10 us. -/
def calibLaserTestPacket : Bytes :=
  RxCommandPacket.header cmdPlCalibLaserTest 4 0 0 ++ [0, 0, 0, 10]

theorem decode_acquisitionPacket : RxCommandPacket.decode acquisitionPacket =
    .ok (cmdPlUpdateAcquisitionParams, 0, 0, acquisitionParams) :=
  RxCommandPacket.decode_encode (by decide) (by decide) (by decide) (by decide)
    (RxCommandPacket.encode_eq (by decide) (by decide) (by decide) (by decide))

theorem decode_calibLaserTestPacket :
    RxCommandPacket.decode calibLaserTestPacket = .ok (cmdPlCalibLaserTest, 0, 0, [0, 0, 0, 10]) :=
  RxCommandPacket.decode_encode (by decide) (by decide) (by decide) (by decide)
    (RxCommandPacket.encode_eq (by decide) (by decide) (by decide) (by decide))

/-- An acknowledgement raises nothing. -/
theorem ackToHk_ne_error {status : ℕ} {f : Client.Fault} {w' : World} (hcmdId : cmdId < 2 ^ 16)
    (hstatus : status < 2 ^ 16) : ackToHk env cmdId status w ≠ .error (.fpga f) w' := by
  have hensures : Ensures (ackToHk env cmdId status) _ w := ensures_ackToHk hcmdId hstatus
  obtain ⟨_, _, heq, -⟩ := ensures_iff.mp hensures
  rw [heq]
  intro hne
  cases hne

/-- PAT gets the four parameters, and the command is acknowledged once. -/
theorem acknowledgedOnce_acquisition :
    endsIn (Command.updateAcquisitionParams.handle quietEnv patStatusStandby acquisitionParams)
        (fun w => w.patSent.length = 4) {} = true ∧
      AcknowledgedOnce cmdPlUpdateAcquisitionParams {}
        (after (Command.updateAcquisitionParams.handle quietEnv patStatusStandby acquisitionParams)
          {}) := by
  have hends : endsIn (Command.updateAcquisitionParams.handle quietEnv patStatusStandby
      acquisitionParams) (fun w => w.patSent.length = 4) {} = true := by
    decide +kernel
  obtain ⟨_, _, hrun, -⟩ := ensures_iff.mp (endsIn_iff.mp hends)
  have hformat : ∀ fmt, Command.updateAcquisitionParams.format acquisitionParams.length =
      some fmt → acquisitionParams.length = calcsize fmt := by
    intro fmt hfmt
    obtain rfl := Option.some.inj hfmt
    rfl
  refine ⟨hends, (acknowledged_iff decode_acquisitionPacket hformat fun f w' hraised => ?_).mpr
    ⟨by decide, ⟨100, -50, 600, 5000⟩, by decide +kernel, by decide⟩⟩
  rw [hrun] at hraised
  cases hraised

/-- While PAT is in its main mode the laser test is not acknowledged as itself. -/
theorem not_acknowledgedOnce_calibLaserTest :
    RxCommandPacket.decode calibLaserTestPacket = .ok (cmdPlCalibLaserTest, 0, 0, [0, 0, 0, 10]) ∧
    Command.calibLaserTest.format 4 = some (network [.I]) ∧ calcsize (network [.I]) = 4 ∧
    (∀ f w', Command.calibLaserTest.handle quietEnv patStatusMain [0, 0, 0, 10] {} ≠
      .error (.fpga f) w') ∧
    ¬ AcknowledgedOnce cmdPlCalibLaserTest {}
      (after (Command.calibLaserTest.handle quietEnv patStatusMain [0, 0, 0, 10]) {}) := by
  -- the refusal names the single capture
  have hacks : Command.calibLaserTest.handle quietEnv patStatusMain [0, 0, 0, 10] {} =
      ackToHk quietEnv cmdPlSingleCapture cmdErr {} := by
    show calibLaserTest quietEnv patStatusMain [0, 0, 0, 10] {} = _
    unfold calibLaserTest
    rw [unpack_of_length rfl]
    rfl
  have hanswer : ∀ f w', Command.calibLaserTest.handle quietEnv patStatusMain [0, 0, 0, 10] {} ≠
      .error (.fpga f) w' := by
    intro f w'
    rw [hacks]
    exact ackToHk_ne_error (by decide) (by decide)
  refine ⟨decode_calibLaserTestPacket, rfl, rfl, hanswer, ?_⟩
  have hstandby : ¬ standby patStatusMain = true := by decide
  intro hacknowledged
  exact hstandby (((settles_calibLaserTest rfl).acknowledgedOnce_iff hanswer).mp hacknowledged)

end ClickA.Commands
