import LeafOS.Arch.Interrupts
import LeafOS.Drivers.Strokes
import LeafOS.Fs.Initrd.Decoding
import LeafOS.Shell.Tracking
import LeafOS.Tasking.CpuRuns
import LeafOS.Tasking.ExitedEnds
import LeafOS.Tasking.RoundRobin
import LeafOS.Tasking.Streams
import LeafOS.Tasking.Waits
import LeafOS.UserProgram.Images
import LeafOS.Bootloader.PhysicalMemory
import LeafOS.Memory.MapValidation
import LeafOS.Memory.Rollback
import LeafOS.Memory.KernelHeap
import LeafOS.Tasking.FailedSpawn
import LeafOS.Tasking.FileWrites
import LeafOS.Tasking.Ownership
import LeafOS.Tasking.Remapping
import LeafOS.Shell.Splitting
import LeafOS.Arch.ListDir
import LeafOS.UserProgram.App
import LeafOS.Fs.Ext2.Atomicity
import LeafOS.Fs.Ext2.FileAllocations
import LeafOS.Shell.Resolution
