import Hnx.BcacheRuns
import Hnx.BlockCoherence
import Hnx.CacheLosses
import Hnx.Dcache
import Hnx.FileTransfers
import Hnx.HnxfsCreateFaults
import Hnx.HnxfsFormatter
import Hnx.HnxfsNames
import Hnx.KernelHeapRequests
import Hnx.LifecycleLeaks
import Hnx.LostWakeups
import Hnx.MmapPlacement
import Hnx.OpenFiles
import Hnx.PagecacheRefinement
import Hnx.PagingFrameLaw
import Hnx.PhysicalMemoryRuns
import Hnx.ProcessWaits
import Hnx.SchedulerRuns
import Hnx.TcpAccounting
import Hnx.VmRegionRuns
import Hnx.HnxfsPaths
import Hnx.DhcpClient
import Hnx.DnsResolver
import Hnx.TcpSegments
import Hnx.GptEntries
import Hnx.MountTable
import Hnx.ProcessStrings
import Hnx.WorkQueue
import Hnx.HidKeyboard
import Hnx.UsbDescriptors
import Hnx.Terminal
import Hnx.DriverLifecycle
import Hnx.StringBuffer
import Hnx.KlogRing
import Hnx.UserHeap
import Hnx.ShellBuffers
import Hnx.ListSort
