import Dingoo.Proofs.Cim
import Dingoo.Proofs.CpufreqRefresh
import Dingoo.Proofs.CpufreqTable
import Dingoo.Proofs.DmaIrq
import Dingoo.Proofs.DmaMode
import Dingoo.Proofs.DriverInit
import Dingoo.Proofs.Fstype
import Dingoo.Proofs.GpioPower
import Dingoo.Proofs.I2cEeprom
import Dingoo.Proofs.ImemFit
import Dingoo.Proofs.Ipu
import Dingoo.Proofs.Irq
import Dingoo.Proofs.ItemList
import Dingoo.Proofs.Jz4740Slcd
import Dingoo.Proofs.JzI2sRecordQueues
import Dingoo.Proofs.JzI2sWakeup
import Dingoo.Proofs.JzKeypad
import Dingoo.Proofs.JzMmcArgs
import Dingoo.Proofs.JzMmcCsd
import Dingoo.Proofs.JzMmcErrors
import Dingoo.Proofs.JzMmcExec
import Dingoo.Proofs.JzMmcInit
import Dingoo.Proofs.JzMmcResponse
import Dingoo.Proofs.JzMmcTimeout
import Dingoo.Proofs.JzMmcUnmap
import Dingoo.Proofs.JzSadcAcquire
import Dingoo.Proofs.JzTs
import Dingoo.Proofs.LzwLinks
import Dingoo.Proofs.MininitLoops
import Dingoo.Proofs.MininitMount
import Dingoo.Proofs.MmcBread
import Dingoo.Proofs.NandBbt
import Dingoo.Proofs.NandEcc
import Dingoo.Proofs.NandLoad
import Dingoo.Proofs.NandMapping
import Dingoo.Proofs.NandRead
import Dingoo.Proofs.Nandfix
import Dingoo.Proofs.Pm
import Dingoo.Proofs.RtcCalendar
import Dingoo.Proofs.Sdram
import Dingoo.Proofs.Time
import Dingoo.Proofs.UdcActivity
import Dingoo.Proofs.UdcBulkIn
import Dingoo.Proofs.UdcOwn
import Dingoo.Proofs.UdcEp0In
import Dingoo.Proofs.UdcHotplug
import Dingoo.Linux.JzI2sFill
import Dingoo.Proofs.JzI2sFill
import Dingoo.Proofs.JzI2sPosition
