import Shyper.Lib.Run
import Shyper.Lib.Tiling
import Shyper.Lib.ListEdit
import Shyper.Lib.Exec
import Shyper.Lib.Occupancy
import Shyper.Lib.Turns
import Shyper.Util
import Shyper.Bitmap
import Shyper.Barrier
import Shyper.Kernel.Mem
import Shyper.Kernel.VmPool
import Shyper.Kernel.Vm
import Shyper.Lib.Stretch
import Shyper.Lib.Stride
import Shyper.Kernel.Translate
import Shyper.Kernel.AsyncTask
import Shyper.Kernel.AsyncExe
import Shyper.Kernel.AsyncRemove
import Shyper.Device.Virtio.Queue
import Shyper.Device.Virtio.State
import Shyper.Device.Virtio.Blk
import Shyper.Device.Virtio.Iov
import Shyper.Device.Virtio.Net
import Shyper.Device.Virtio.Isolation
import Shyper.Device.Virtio.Partition
import Shyper.Device.Virtio.Chains
import Shyper.Device.Virtio.Completion
import Shyper.Arch.PageTable
import Shyper.Arch.PageTableCells
import Shyper.Arch.PageTableInv
import Shyper.Arch.PageTableOps
import Shyper.Arch.PageTableRefine
import Shyper.Arch.PageTableFrames
import Shyper.Arch.PageTablePermission
import Shyper.Arch.Gic
import Shyper.Arch.Vgic
import Shyper.Arch.VgicLive
import Shyper.Arch.VgicForward
import Shyper.Arch.VgicReadOut
import Shyper.Arch.VgicPlaced
import Shyper.Arch.VgicRefill
import Shyper.Kernel.AsyncIo
import Shyper.Kernel.AsyncIpi
import Shyper.Kernel.LiveUpdate
import Shyper.Kernel.AsyncUpdate
import Shyper.Kernel.Migrate
import Shyper.Kernel.Sched
import Shyper.Vmm.Reboot
import Shyper.Arch.VgicMigrate
import Shyper.Kernel.HeapPool
import Shyper.Mm.PageFrame
import Shyper.Kernel.MigrateBuffer
import Shyper.Vmm.InitMemory
import Shyper.Kernel.MigrateLayout
import Shyper.Kernel.Ipi
import Shyper.Kernel.Interrupt
import Shyper.Kernel.SchedTurns
import Shyper.Config.VmConfigTable
import Shyper.Vmm.Remove
import Shyper.Kernel.VcpuArray
import Shyper.Kernel.VcpuAssign
import Shyper.Arch.Smmu
import Shyper.Kernel.Hvc
import Shyper.Unilib
import Shyper.Device.Virtio.MmioSafety
import Shyper.Device.Virtio.MmioIrq
import Shyper.Device.Virtio.MmioMigrate
import Shyper.Device.Virtio.Walks
import Shyper.Device.Virtio.Delivery
import Shyper.Kernel.InterruptOwner
import Shyper.Device.Virtio.HandlerSafety
import Shyper.Lib.Fields
import Shyper.Kernel.FairRun
import Shyper.Device.Virtio.Cursors
import Shyper.Device.Virtio.IovCopy
import Shyper.Device.Virtio.Receive
import Shyper.Device.Virtio.BlkStatus
import Shyper.Device.Virtio.Transfer
import Shyper.Arch.VgicFilter
import Shyper.Arch.VgicFields
import Shyper.Arch.VgicSgir
import Shyper.BitmapSets
import Shyper.Device.Emu
import Shyper.Kernel.IpiBroadcast
import Shyper.Device.Virtio.MmioFeatures
import Shyper.Device.Virtio.MmioQueues
import Shyper.Arch.GicDistributor
import Shyper.Kernel.VcpuGicIrqs
import Shyper.Kernel.GuestCopy
import Shyper.UnilibCopy
import Shyper.Config.KernelImage
import Shyper.Kernel.Words
import Shyper.Config.GuestLists
import Shyper.Device.Virtio.IovBuf
import Shyper.Arch.PageTableConfined
import Shyper.Vmm.HostMemory
import Shyper.Vmm.HostPool
import Shyper.Vmm.HostInv
import Shyper.Vmm.HostSteps
import Shyper.Vmm.HostIsolation
import Shyper.Vmm.HostTranslate
import Shyper.Vmm.PowerOn
import Shyper.Vmm.PowerTurns
import Shyper.Vmm.PowerRun
import Shyper.Lib.Writes
import Shyper.Arch.Mmu
import Shyper.Arch.MmuMaps
import Shyper.Arch.MmuCores
import Shyper.Lib.Accesses
import Shyper.Kernel.BlkDisk
import Shyper.Kernel.BlkReplay
import Shyper.Vmm.DataAbort
import Shyper.Vmm.TrappedVirtio
