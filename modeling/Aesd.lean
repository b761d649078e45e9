import Aesd.Transition.Run
import Aesd.Word.Segments
import Aesd.Word.LineStore
import Aesd.Queue.Ring
import Aesd.Memory.Ownership
import Aesd.Driver.Device
import Aesd.Driver.BufferRing
import Aesd.Driver.Represents
import Aesd.Driver.WriteSpec
import Aesd.Driver.WriteRun
import Aesd.Driver.FailedWrites
import Aesd.Driver.ReadSpec
import Aesd.Driver.Operation
import Aesd.Driver.SeekSize
import Aesd.Driver.SeekCommand
import Aesd.Server.Handler
import Aesd.Server.Mutex
import Aesd.Server.DescriptorUse
import Aesd.Server.DescriptorOwnership
import Aesd.Server.Service
import Aesd.Server.Connection
import Aesd.Server.Chunking
import Aesd.Server.Packets
import Aesd.Server.Response
import Aesd.Driver.AddedEntries
import Aesd.Driver.Reassembly
import Aesd.Driver.Cleanup
import Aesd.Driver.Leaks
import Aesd.Server.ReceiveLoop
import Aesd.Server.ShortCounts
import Aesd.Server.SeekParsing
import Aesd.Server.Threads
import Aesd.Server.DescriptorLedger
import Aesd.Server.Program
import Aesd.Threading.MutexThreads
import Aesd.Systemcalls.ExecuteCommand
import Aesd.FinderApp.Host
import Aesd.FinderApp.Finder
import Aesd.Driver.Isolation
import Aesd.Server.DriverRuns
import Aesd.Server.Progress
import Aesd.Server.Termination
import Aesd.Driver.SlotOrder
import Aesd.Server.LineService
import Aesd.Driver.Module
import Aesd.FinderApp.FinderTest
import Aesd.Server.Signals
import Aesd.Driver.Concurrency
import Aesd.Memory.Renaming
import Aesd.Driver.Linearization
import Aesd.Driver.CallProgress
import Aesd.Server.LifeCycle
