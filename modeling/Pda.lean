import Pda.Foundation.Acquisition
import Pda.Foundation.AddressSpace
import Pda.Foundation.ByteMemory
import Pda.Foundation.Coalescing
import Pda.Foundation.EventCounter
import Pda.Foundation.Execution
import Pda.Foundation.FileLock
import Pda.Foundation.Holding
import Pda.Foundation.LinkedList
import Pda.Foundation.MappedMemory
import Pda.Foundation.Numerals
import Pda.Foundation.PowerBlocks
import Pda.Foundation.Release
import Pda.Foundation.Sorting
import Pda.Driver.Private
import Pda.Driver.Allocation
import Pda.Driver.Chunks
import Pda.Driver.ChunkCount
import Pda.Driver.Buffer
import Pda.Driver.Registry
import Pda.Driver.Conservation
import Pda.Driver.RequestCleanup
import Pda.Driver.Mapping
import Pda.Driver.Window
import Pda.Driver.PageCount
import Pda.Driver.Names
import Pda.Driver.Directory
import Pda.Driver.Isolation
import Pda.Driver.Teardown
import Pda.Driver.AllocFreeLock
import Pda.Driver.Probe
import Pda.Driver.BarUnwinding
import Pda.Driver.ProbeExits
import Pda.Driver.Unbinding
import Pda.Driver.Ownership
import Pda.Driver.Separation
import Pda.Driver.CircularMapping
import Pda.Driver.IrqHandler
import Pda.Library.SgList
import Pda.Library.LoadSgList
import Pda.Library.CoalesceSgList
import Pda.Library.WrapMap
import Pda.Library.Wrapping
import Pda.Library.WrapFrame
import Pda.Library.Version
import Pda.Library.BufferList
import Pda.Library.FailedDeletion
import Pda.Library.ListContents
import Pda.Library.ListOperations
import Pda.Library.FreeAll
import Pda.Library.Locking
import Pda.Library.Process
import Pda.Library.NewBuffer
import Pda.Library.FreeBuffer
import Pda.Library.Creation
import Pda.Library.Session
import Pda.Library.Registration
import Pda.Library.Lookup
import Pda.Library.Reconnect
import Pda.Library.FreeIndex
import Pda.Library.Length
import Pda.Library.Interrupt
import Pda.Library.Deletion
import Pda.Library.DeviceFiles
import Pda.Library.Bars
import Pda.Library.BarDecoding
import Pda.Library.BarRange
import Pda.Library.BarMemcpy
import Pda.Library.BarAccess
import Pda.Library.Discovery
import Pda.Library.BusAddress
import Pda.Library.DevicePaths
import Pda.Library.BufferIds
import Pda.Library.FreeUnattached
import Pda.Library.Operator
import Pda.Coherence
import Pda.RegisterAccess
import Pda.SharedBuffers
import Pda.SgFile
import Pda.InterruptDelivery
import Pda.InterruptPace
