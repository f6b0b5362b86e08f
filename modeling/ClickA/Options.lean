import Mathlib.Data.Nat.Notation

/-!
# Options

The constants of `options.py` that the models read.
-/

namespace ClickA.Options

/-- `CHECK_ASSERTS`: the optional assertions of the source are on. -/
def checkAsserts : Bool := true

/-- `BUS_DATA_LEN`: the largest data field of a bus packet, in bytes. -/
def busDataLen : ℕ := 4082

/-- `ERR_DPKT_CRC_INVALID`: the APID of the depacketizer's error reports. -/
def errDpktCrcInvalid : ℕ := 0x382

/-- `COMMAND_HANDLERS_COUNT`: how many command handlers run. -/
def commandHandlersCount : ℕ := 3

/-- `SYMLINK_MAX`: the largest number of a log link. -/
def symlinkMax : ℕ := 10

/-- `TRANSMIT_TIME`: how long a downlink transmits, in seconds. -/
def transmitTime : ℕ := 900

/-- `HK_FPGA_CHECK_PD`, `HK_SYS_CHECK_PD`, `HK_CH_CHECK_PD`, `HK_LB_CHECK_PD`, `HK_PAT_CHECK_PD`:
the periods of housekeeping when it starts, in seconds. -/
def hkFpgaCheckPd : ℕ := 5
def hkSysCheckPd : ℕ := 1
def hkChCheckPd : ℕ := 10
def hkLbCheckPd : ℕ := 10
def hkPatCheckPd : ℕ := 10

/-- `HK_FPGA_CHECK_PD_MIN` and so on: the smallest periods. -/
def hkFpgaCheckPdMin : ℕ := 1
def hkSysCheckPdMin : ℕ := 1
def hkChCheckPdMin : ℕ := 2
def hkLbCheckPdMin : ℕ := 2
def hkPatCheckPdMin : ℕ := 2

/-- `CMD_PL_REBOOT` and so on: the commands from the ground. -/
def cmdPlReboot : ℕ := 0x01
def cmdPlShutdown : ℕ := 0x02
def cmdPlEnableTime : ℕ := 0xC2
def cmdPlExecFile : ℕ := 0x67
def cmdPlListFile : ℕ := 0xFE
def cmdPlAutoDownlinkFile : ℕ := 0xAB
def cmdPlDisassembleFile : ℕ := 0x15
def cmdPlRequestFile : ℕ := 0x16
def cmdPlUplinkFile : ℕ := 0xCD
def cmdPlAssembleFile : ℕ := 0x39
def cmdPlValidateFile : ℕ := 0x40
def cmdPlMoveFile : ℕ := 0x41
def cmdPlDeleteFile : ℕ := 0x42
def cmdPlAutoAssembleFile : ℕ := 0xCC
def cmdPlSetPatMode : ℕ := 0xB3
def cmdPlSingleCapture : ℕ := 0xF1
def cmdPlCalibLaserTest : ℕ := 0x4C
def cmdPlFsmTest : ℕ := 0x28
def cmdPlRunCalibration : ℕ := 0x32
def cmdPlTestAdcsFeedback : ℕ := 0x35
def cmdPlUpdateAcquisitionParams : ℕ := 0x86
def cmdPlTxAlign : ℕ := 0x87
def cmdPlUpdateTxOffsets : ℕ := 0x88
def cmdPlUpdateFsmAngles : ℕ := 0x89
def cmdPlEnterPatMain : ℕ := 0x90
def cmdPlExitPatMain : ℕ := 0x91
def cmdPlEndPatProcess : ℕ := 0x92
def cmdPlSetFpga : ℕ := 0x54
def cmdPlGetFpga : ℕ := 0x0E
def cmdPlEcho : ℕ := 0x3D
def cmdPlNoop : ℕ := 0x5B
def cmdPlUpdateSeedParams : ℕ := 0x18

/-- `CMD_PL_SET_HK`: the command that sets the flags and the periods of housekeeping. -/
def cmdPlSetHk : ℕ := 0x97

/-- `HK_CONTROL_ACK`, `HK_CONTROL_LOG`, `HK_CONTROL_CH`: what a command handler sends to
housekeeping. -/
def hkControlAck : ℕ := 0x01
def hkControlLog : ℕ := 0x02
def hkControlCh : ℕ := 0x03

/-- `CMD_ACK`, `CMD_ERR`: the status of a command. -/
def cmdAck : ℕ := 0x0F
def cmdErr : ℕ := 0xF0

/-- `TLM_HK_SYS`, `TLM_HK_PAT`, `TLM_HK_FPGA_MAP`, `TLM_HK_CH`: the APIDs of housekeeping. -/
def tlmHkSys : ℕ := 0x312
def tlmHkPat : ℕ := 0x313
def tlmHkFpgaMap : ℕ := 0x314
def tlmHkCh : ℕ := 0x315

/-- `ERR_HK_RESTART`: the APID of the report of a restart. -/
def errHkRestart : ℕ := 0x380

/-- `PAT_STATUS_CAMERA_INIT`, `PAT_STATUS_STANDBY` and so on: the status that PAT publishes. -/
def patStatusCameraInit : ℕ := 0x00
def patStatusStandby : ℕ := 0x01
def patStatusStandbyCalibrated : ℕ := 0x02
def patStatusStandbySelfTestPassed : ℕ := 0x03
def patStatusStandbySelfTestFailed : ℕ := 0x04
def patStatusMain : ℕ := 0x05

/-- `PAT_CMD_PAYLOAD_SIZE`: the size of the data of a command to PAT. -/
def patCmdPayloadSize : ℕ := 256

/-- `PAT_CMD_START_PAT` and so on: the commands to PAT. -/
def patCmdStartPat : ℕ := 0x00
def patCmdStartPatOpenLoop : ℕ := 0x01
def patCmdStartPatStaticPoint : ℕ := 0x02
def patCmdStartPatBusFeedback : ℕ := 0x03
def patCmdStartPatOpenLoopBusFeedback : ℕ := 0x04
def patCmdUpdateTxOffsetX : ℕ := 0x05
def patCmdUpdateTxOffsetY : ℕ := 0x06
def patCmdEndPat : ℕ := 0x07
def patCmdCalibTest : ℕ := 0x09
def patCmdCalibLaserTest : ℕ := 0x0A
def patCmdFsmTest : ℕ := 0x0B
def patCmdBcnAlign : ℕ := 0x0C
def patCmdTxAlign : ℕ := 0x0D
def patCmdUpdateFsmX : ℕ := 0x0E
def patCmdUpdateFsmY : ℕ := 0x0F
def patCmdEndProcess : ℕ := 0x11
def patCmdSetBeaconX : ℕ := 0x12
def patCmdSetBeaconY : ℕ := 0x13
def patCmdSetBeaconWindowSize : ℕ := 0x14
def patCmdSetBeaconMaxExp : ℕ := 0x15
def patCmdUpdatePeriodCalculateTxOffset : ℕ := 0x1A
def patCmdEnableDitherTxOffset : ℕ := 0x1B
def patCmdUpdatePeriodDitherTxOffset : ℕ := 0x1C
def patCmdTestBusFeedback : ℕ := 0x1D

/-- `PAT_SKIP_CALIB_FLAG`, `PAT_DO_CALIB_FLAG`: how PAT enters its main mode. -/
def patSkipCalibFlag : ℕ := 0xFFFF
def patDoCalibFlag : ℕ := 0xAAAA

/-- `PAT_ENABLE_DITHER`. -/
def patEnableDither : ℕ := 0xFF

/-- `PAT_CMD_GET_IMAGE`, and the commands that set its window. -/
def patCmdGetImage : ℕ := 0x08
def patCmdSetGetImageCenterX : ℕ := 0x16
def patCmdSetGetImageCenterY : ℕ := 0x17
def patCmdSetGetImageWindowWidth : ℕ := 0x18
def patCmdSetGetImageWindowHeight : ℕ := 0x19

/-- `CAMERA_WIDTH`, `CAMERA_HEIGHT`, `CAMERA_MIN_EXP`, `CAMERA_MAX_EXP`. -/
def cameraWidth : ℕ := 2592
def cameraHeight : ℕ := 1944
def cameraMinExp : ℕ := 10
def cameraMaxExp : ℕ := 10000000

/-- `CAL_LASER_DAC_SETTING`. -/
def calLaserDacSetting : ℕ := 6700

/-- `TLM_LIST_FILE`, `TLM_GET_FPGA`, `TLM_ECHO`: the APIDs of the answers to commands. -/
def tlmListFile : ℕ := 0x3E0
def tlmGetFpga : ℕ := 0x3C0
def tlmEcho : ℕ := 0x3FF

/-- `FPGA_TELEM_REGS`: the registers of the FPGA's telemetry packet. -/
def fpgaTelemRegs : List ℕ :=
  List.range' 0 5 ++ List.range' 32 7 ++ List.range' 47 2 ++ List.range' 53 2 ++ [57] ++
    List.range' 60 4 ++ List.range' 96 2 ++ List.range' 200 6 ++ List.range' 300 4 ++
    List.range' 602 10 ++ List.range' 502 8

end ClickA.Options
