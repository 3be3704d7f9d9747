import EmbeddedRuntime.Lib.Machine
import EmbeddedRuntime.Lib.Buffer
import EmbeddedRuntime.Lib.Window
import EmbeddedRuntime.Lib.BoundedQueue
import EmbeddedRuntime.Lib.ByteOrder
import EmbeddedRuntime.Lib.LinkedList
import EmbeddedRuntime.Lib.Tiling
import EmbeddedRuntime.Lib.Word64
import EmbeddedRuntime.Lib.SerialNumber
import EmbeddedRuntime.Lib.ReadLog
import EmbeddedRuntime.Lib.AddressSpace
import EmbeddedRuntime.Lib.Crc
import EmbeddedRuntime.Lib.CrcDistance
import EmbeddedRuntime.Lib.CrcPolynomial
import EmbeddedRuntime.Lib.Deliveries
import EmbeddedRuntime.Lib.BoundedLog
import EmbeddedRuntime.Lib.Notifications
import EmbeddedRuntime.Lib.Prefix
import EmbeddedRuntime.Lib.Grouping
import EmbeddedRuntime.Lib.Fallible
import EmbeddedRuntime.Lib.FlatJson
import EmbeddedRuntime.Lib.Paging
import EmbeddedRuntime.Common
import EmbeddedRuntime.Realtime.RingBuffer
import EmbeddedRuntime.Realtime.RingRefinement
import EmbeddedRuntime.Allocator.Model
import EmbeddedRuntime.Allocator.BlockList
import EmbeddedRuntime.Allocator.Walks
import EmbeddedRuntime.Allocator.Arenas
import EmbeddedRuntime.Allocator.HeapRun
import EmbeddedRuntime.Nic.Model
import EmbeddedRuntime.Nic.Rings
import EmbeddedRuntime.Nic.Ownership
import EmbeddedRuntime.Nic.Threads
import EmbeddedRuntime.Nic.Accounting
import EmbeddedRuntime.Nic.Delivery
import EmbeddedRuntime.Nic.Interrupts
import EmbeddedRuntime.Protocol.Crc32
import EmbeddedRuntime.Protocol.Packet
import EmbeddedRuntime.Protocol.PacketCodec
import EmbeddedRuntime.Protocol.ErrorDetection
import EmbeddedRuntime.Protocol.Stream
import EmbeddedRuntime.Target.Context
import EmbeddedRuntime.Target.Handler
import EmbeddedRuntime.Target.Model
import EmbeddedRuntime.Target.Steps
import EmbeddedRuntime.Target.StateGraph
import EmbeddedRuntime.Target.Watchdog
import EmbeddedRuntime.Target.Recovery
import EmbeddedRuntime.Target.Samples
import EmbeddedRuntime.Target.Server
import EmbeddedRuntime.Target.Session
import EmbeddedRuntime.Nver.Process
import EmbeddedRuntime.Nver.Accounting
import EmbeddedRuntime.Nver.Replay
import EmbeddedRuntime.Nver.Isolation
import EmbeddedRuntime.Nver.PythonPacket
import EmbeddedRuntime.Nver.StatsReply
import EmbeddedRuntime.Nver.TrafficLab
import EmbeddedRuntime.Nver.TrafficRun
import EmbeddedRuntime.Nver.Corruption
import EmbeddedRuntime.Firmware.Image
import EmbeddedRuntime.Firmware.PackVerify
import EmbeddedRuntime.Firmware.Updates
import EmbeddedRuntime.Firmware.BitFlips
import EmbeddedRuntime.Firmware.Format
import EmbeddedRuntime.Firmware.Interruption
import EmbeddedRuntime.Shell.Tokens
import EmbeddedRuntime.Shell.Parser
import EmbeddedRuntime.Shell.Grammar
import EmbeddedRuntime.Shell.Render
import EmbeddedRuntime.Elf.Image
import EmbeddedRuntime.Elf.Readers
import EmbeddedRuntime.Loader.Model
import EmbeddedRuntime.Elf.Bounds
import EmbeddedRuntime.Loader.Layout
import EmbeddedRuntime.Loader.Steps
import EmbeddedRuntime.Loader.Rollback
import EmbeddedRuntime.Loader.Contents
import EmbeddedRuntime.Loader.Progress
import EmbeddedRuntime.Loader.ImageMemory
import EmbeddedRuntime.Loader.Wraparound
import EmbeddedRuntime.Loader.Agreement
import EmbeddedRuntime.Elf.Translation
import EmbeddedRuntime.Transport.Frames
import EmbeddedRuntime.Transport.Echo
import EmbeddedRuntime.Transport.Bench
import EmbeddedRuntime.Transport.Backpressure
import EmbeddedRuntime.Protocol.CrcAgreement
import EmbeddedRuntime.Network.Frames
import EmbeddedRuntime.Network.Session
import EmbeddedRuntime.Network.Lockstep
import EmbeddedRuntime.Network.Capture
import EmbeddedRuntime.Shell.Jobs
import EmbeddedRuntime.Shell.JobTable
import EmbeddedRuntime.Shell.History
import EmbeddedRuntime.Shell.HistoryNumbers
import EmbeddedRuntime.Shell.Plumbing
import EmbeddedRuntime.Network.AcceptLoop
import EmbeddedRuntime.Bmc.Python
import EmbeddedRuntime.Bmc.Host
import EmbeddedRuntime.Bmc.Model
import EmbeddedRuntime.Bmc.Handler
import EmbeddedRuntime.Bmc.Audit
import EmbeddedRuntime.Bmc.Network
import EmbeddedRuntime.Bmc.Refusals
import EmbeddedRuntime.FabYield.Transform
import EmbeddedRuntime.FabYield.Verdicts
import EmbeddedRuntime.FabYield.Tables
import EmbeddedRuntime.FabYield.Progress
import EmbeddedRuntime.FabYield.Aggregates
import EmbeddedRuntime.FabYield.Quality
import EmbeddedRuntime.FabYield.Lots
import EmbeddedRuntime.FabYield.Reads
import EmbeddedRuntime.FabYield.Service
import EmbeddedRuntime.Target.Injection
import EmbeddedRuntime.Target.Operator
import EmbeddedRuntime.Allocator.Calls
import EmbeddedRuntime.Allocator.Sizes
import EmbeddedRuntime.Allocator.FreeOrder
import EmbeddedRuntime.Allocator.ByteRuns
import EmbeddedRuntime.Allocator.Coalescing
