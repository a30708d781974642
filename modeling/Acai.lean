import Acai.Lib.ByteMemory
import Acai.Lib.Program
import Acai.Lib.Text
import Acai.Lib.Interleaving
import Acai.Lib.Runs
import Acai.Lib.Segments
import Acai.Lib.Blocks
import Acai.Lib.Tiling
import Acai.Lib.WordRange
import Acai.Lib.Ledger
import Acai.Lib.Trace
import Acai.Lib.TwoRuns
import Acai.Escape.Layout
import Acai.Kernel.Scatterlist
import Acai.Manager.AddrMap
import Acai.Manager.BootScan
import Acai.Manager.Settings
import Acai.Manager.RegionMap
import Acai.Manager.Main
import Acai.Manager.Comm
import Acai.Driver.Sgdma
import Acai.Manager.Translation
import Acai.Manager.Reply
import Acai.Manager.Listener
import Acai.Manager.Writes
import Acai.Manager.TransferEvents
import Acai.Manager.TransferRun
import Acai.Devmem.Delegate
import Acai.Devmem.Merging
import Acai.Devmem.Undelegate
import Acai.Guest.PinPages
import Acai.Guest.ChunkList
import Acai.Devmem.PciDma
import Acai.Guest.Faulthook
import Acai.Guest.ExactlyOnce
import Acai.Guest.Transfer
import Acai.Guest.FileOps
import Acai.Guest.PinBalance
import Acai.Guest.VerifyMapping
import Acai.Driver.RemoteDma
import Acai.Driver.RemoteTransfer
import Acai.Driver.RemoteList
import Acai.Driver.HandleDma
import Acai.Driver.RemoteMmap
import Acai.Guest.Errors
import Acai.Guest.Isolation
import Acai.Guest.LockDiscipline
import Acai.Escape.Accesses
import Acai.Escape.Bounds
import Acai.Guest.Stale
import Acai.Gpu.Comm
import Acai.Gpu.Handles
import Acai.Gpu.HandleRuns
import Acai.Hook.Allocator
import Acai.Hook.Ownership
import Acai.Hook.Bootstrap
import Acai.Guest.MmapPages
import Acai.Manager.PageTables
import Acai.Gpu.Copies
import Acai.Driver.Aperture
import Acai.Gpu.Fixup
import Acai.Gpu.ProtectedPages
import Acai.Lib.Chain
import Acai.Engine.QueueRuns
import Acai.Driver.GuestDma
import Acai.Engine.Aperture
import Acai.Engine.ApertureRuns
import Acai.Engine.ApertureBytes
