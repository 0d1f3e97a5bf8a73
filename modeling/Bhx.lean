import Bhx.Virtqueue.UsedRing
import Bhx.DataPlane.RingConfinement
import Bhx.DataPlane.BoundedDispatch
import Bhx.DataPlane.NoLostWork
import Bhx.Firmware.QueueDisable
import Bhx.Firmware.DeviceReset
import Bhx.Firmware.ShadowProvenance
import Bhx.Firmware.SelGeneration
import Bhx.DataPlane.ActiveMask
import Bhx.Firmware.BringUp
import Bhx.Uart.FeedExactness
import Bhx.Uart.GuestIsolation
import Bhx.Daemon.IdleClock
import Bhx.Daemon.HeldCore
import Bhx.Daemon.OneRequest
import Bhx.Daemon.AutoReboot
import Bhx.Daemon.VisibleDisks
import Bhx.Console.Pump
import Bhx.Console.Scrollback
import Bhx.Console.InputPath
import Bhx.Device.Checksum
import Bhx.Chip.Telemetry
import Bhx.Daemon.ChipRanges
import Bhx.Daemon.RequestHeaders
import Bhx.Profile.Instances
