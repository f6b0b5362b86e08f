import ClickA.Bus.Downlink
import ClickA.Bus.Uplink
import ClickA.Bus.Echo
import ClickA.Driver.Bounds
import ClickA.Driver.Extraction
import ClickA.Driver.Crc
import ClickA.Driver.Scanners
import ClickA.Driver.Accounting
import ClickA.Driver.Progress
import ClickA.Driver.Uplink
import ClickA.Driver.Downlink
import ClickA.Driver.Backlog
import ClickA.Fpga.AnswersOnce
import ClickA.Fpga.ErrorFlag
import ClickA.Fpga.Isolation
import ClickA.Fpga.Reading
import ClickA.Fpga.Values
import ClickA.Fpga.EdfaReplies
import ClickA.Fpga.RegisterFile
import ClickA.Client.Alignment
import ClickA.Client.ErrorIsolation
import ClickA.Pat.Answers
import ClickA.Pat.Lasers
import ClickA.Pat.CameraAccess
import ClickA.Pat.SelfTest
import ClickA.Pat.Losses
import ClickA.Pat.Offsets
import ClickA.Pat.OffsetParams
import ClickA.Pat.ExperimentIds
import ClickA.Files.Transfer
import ClickA.Files.Reliable
import ClickA.Files.AutoDownlink
import ClickA.Python.Md5
import ClickA.Pat.Subscription
import ClickA.Ipc.RoundTrip
import ClickA.Housekeeping.Periods
import ClickA.Handler.Concurrent
import ClickA.Ipc.LoadBalancer
import ClickA.Ipc.ErrorReports
import ClickA.Handler.Status
import ClickA.Commands.Acknowledged
import ClickA.Commands.Expressible
import ClickA.Commands.DacWrites
import ClickA.Commands.WarmUp
import ClickA.Commands.Transmit
import ClickA.Client.Registers
import ClickA.Client.Power
import ClickA.Processing.Overfull
import ClickA.Files.Installed
import ClickA.Files.Intact
import ClickA.Files.Validation
import ClickA.Calibration.Run
import ClickA.Tracking.Control
import ClickA.Tracking.Window
import ClickA.Tracking.ExposureControl
import ClickA.Fsm.Angles
import ClickA.Processing.Statistics
import ClickA.Processing.Bmp
import ClickA.Optical.Symbols
import ClickA.Optical.SeedAlign
import ClickA.Logs.Rotation
import ClickA.Logs.Index
import ClickA.Processing.Blur
import ClickA.Tracking.ClosedLoop
import ClickA.Housekeeping.Relay
import ClickA.Tracking.Acquisition
import ClickA.Commands.Arrival
import ClickA.Commands.Departure
import ClickA.Camera.Requests
import ClickA.Commands.Clock
