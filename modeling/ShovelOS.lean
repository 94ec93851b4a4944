import ShovelOS.Machine
import ShovelOS.Library.Transition
import ShovelOS.Library.WordBits
import ShovelOS.Library.BlockTree
import ShovelOS.Library.PageRange
import ShovelOS.Library.CyclicScan
import ShovelOS.Library.LinkedList
import ShovelOS.Library.Bitmap
import ShovelOS.Library.Refinement
import ShovelOS.Library.RingBuffer
import ShovelOS.Library.HeapContract
import ShovelOS.Library.TwoLevelTable
import ShovelOS.Library.Numeral
import ShovelOS.Buddy.Alloc
import ShovelOS.Buddy.Page
import ShovelOS.Buddy.Bitmap
import ShovelOS.Buddy.Layout
import ShovelOS.Buddy.Metadata
import ShovelOS.Buddy.Placement
import ShovelOS.Buddy.Invariant
import ShovelOS.Buddy.Recovery
import ShovelOS.Buddy.Search
import ShovelOS.Buddy.Heap
import ShovelOS.Buddy.Guarantees
import ShovelOS.Buddy.HeapEnd
import ShovelOS.Buddy.Completeness
import ShovelOS.PageBuddy.Allocator
import ShovelOS.PageBuddy.Bits
import ShovelOS.PageBuddy.Search
import ShovelOS.PageBuddy.Invariant
import ShovelOS.PageBuddy.SetUp
import ShovelOS.PageBuddy.Heap
import ShovelOS.PageBuddy.Words
import ShovelOS.MemCache.Slabs
import ShovelOS.MemCache.Cache
import ShovelOS.MemCache.Geometry
import ShovelOS.MemCache.Invariant
import ShovelOS.MemCache.Moves
import ShovelOS.MemCache.Growth
import ShovelOS.MemCache.Footprint
import ShovelOS.MemCache.Search
import ShovelOS.MemCache.Allocation
import ShovelOS.MemCache.Release
import ShovelOS.MemCache.Guarantees
import ShovelOS.MemCache.Acceptance
import ShovelOS.MemCache.MoreSlabs
import ShovelOS.Kmalloc.Pools
import ShovelOS.Kmalloc.Calls
import ShovelOS.Kmalloc.Guarantees
import ShovelOS.Kmalloc.Tiny
import ShovelOS.Sched.RunQueue
import ShovelOS.Sched.Kernel
import ShovelOS.Sched.RoundRobin
import ShovelOS.Sched.Slots
import ShovelOS.Sched.Exit
import ShovelOS.Sched.Context
import ShovelOS.Sched.Waiting
import ShovelOS.Sched.NextTask
import ShovelOS.Sched.Sleep
import ShovelOS.Sched.StackFill
import ShovelOS.Sched.StackRemaining
import ShovelOS.Sched.Create
import ShovelOS.Fifo.Buffer
import ShovelOS.Fifo.Queue
import ShovelOS.Fifo.Capacity
import ShovelOS.Fifo.PacketBuffer
import ShovelOS.Fifo.PacketQueue
import ShovelOS.Uart.Driver
import ShovelOS.Uart.Transmit
import ShovelOS.Timer.Timespec
import ShovelOS.Timer.SystemTime
import ShovelOS.Timer.Tracking
import ShovelOS.Timer.Guarantees
import ShovelOS.Timer.Calibrate
import ShovelOS.BootPages.Allocator
import ShovelOS.BootPages.Bounds
import ShovelOS.VMSAv7.Descriptors
import ShovelOS.VMSAv7.InitPageTables
import ShovelOS.VMSAv7.LinearMap
import ShovelOS.VMSAv7.VmMap
import ShovelOS.VMSAv7.MapRange
import ShovelOS.VMSAv7.PartialMapping
import ShovelOS.VMSAv7.CacheMaintenance
import ShovelOS.Stdlib.Atoi
import ShovelOS.Stdlib.Emit
import ShovelOS.Stdlib.Vfprintf
import ShovelOS.Stdlib.Directives
import ShovelOS.Stdlib.Turn
import ShovelOS.Stdlib.Arguments
import ShovelOS.Stdlib.NumberFormat
import ShovelOS.Stdlib.Conversions
import ShovelOS.Stdlib.Count
import ShovelOS.Stdlib.Digits
import ShovelOS.Library.Observation
import ShovelOS.Library.Lock
import ShovelOS.Concurrency.Core
import ShovelOS.Concurrency.Ownership
import ShovelOS.Concurrency.Outline
import ShovelOS.Concurrency.Progress
import ShovelOS.Concurrency.ExclusiveMutex
import ShovelOS.Concurrency.ExclusiveGuarantees
import ShovelOS.Concurrency.MaskedMutex
import ShovelOS.Concurrency.MaskedGuarantees
import ShovelOS.Library.WordStack
import ShovelOS.Library.WordFields
import ShovelOS.Concurrency.Spinlock
import ShovelOS.Concurrency.CriticalSections
import ShovelOS.Library.Processors
import ShovelOS.Context.Cpu
import ShovelOS.Context.RoundTrip
import ShovelOS.Context.System
import ShovelOS.Context.Stacked
import ShovelOS.Context.StackedSystem
import ShovelOS.Fifo.Drain
import ShovelOS.Hwrng.Driver
import ShovelOS.Hwrng.Guarantees
import ShovelOS.OmapUart.Driver
import ShovelOS.OmapUart.Guarantees
import ShovelOS.OmapUart.Progress
