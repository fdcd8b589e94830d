import TitusIsolate.Model.Workload
import TitusIsolate.Lib.Run
import TitusIsolate.Lib.Projection
import TitusIsolate.Lib.Fairness
import TitusIsolate.Lib.FirstMax
import TitusIsolate.Lib.Touch
import TitusIsolate.Model.Processor
import TitusIsolate.Model.Visualize
import TitusIsolate.Allocate.Allocator
import TitusIsolate.Allocate.Builtin
import TitusIsolate.Cgroup.Manager
import TitusIsolate.Isolate.Reconciler
import TitusIsolate.Isolate.WorkloadManager
import TitusIsolate.Cgroup.Cpuset
import TitusIsolate.Cgroup.File
import TitusIsolate.Event.Batch
import TitusIsolate.Proof.Claims
import TitusIsolate.Proof.Greedy
import TitusIsolate.Isolate.Host
import TitusIsolate.Lib.LastWhere
import TitusIsolate.Model.Config
import TitusIsolate.Proof.Accounting
import TitusIsolate.Proof.Atomicity
import TitusIsolate.Proof.Batching
import TitusIsolate.Proof.Fallback
import TitusIsolate.Proof.Agreement
import TitusIsolate.Proof.LastWrite
import TitusIsolate.Proof.LostWrites
import TitusIsolate.Proof.Marks
import TitusIsolate.Proof.Orphans
import TitusIsolate.Proof.Skipping
import TitusIsolate.Api.Status
import TitusIsolate.Config.RestartWatcher
import TitusIsolate.Event.Manager
import TitusIsolate.Pod.PodManager
import TitusIsolate.Proof.ExactlyOnce
import TitusIsolate.Proof.IsolateLock
import TitusIsolate.Proof.PodCache
import TitusIsolate.Proof.Pulling
import TitusIsolate.Proof.StaleProperties
import TitusIsolate.Allocate.Remote
import TitusIsolate.Isolate.EventLog
import TitusIsolate.Lib.LargestFirst
import TitusIsolate.Proof.AtRest
import TitusIsolate.Proof.RemoteCodec
import TitusIsolate.Proof.RemoteRequest
import TitusIsolate.Proof.Spread
import TitusIsolate.Cgroup.Path
import TitusIsolate.Crd.UsagePrediction
import TitusIsolate.Lib.BoundedDeque
import TitusIsolate.Lib.Decimal
import TitusIsolate.Monitor.ResourceUsage
import TitusIsolate.Pod.Requests
import TitusIsolate.Proof.Condense
import TitusIsolate.Proof.CpuRequest
import TitusIsolate.Proof.Padding
import TitusIsolate.Proof.RemoteDecode
import TitusIsolate.Lib.Slots
import TitusIsolate.Lib.Raising
import TitusIsolate.Monitor.Prometheus
import TitusIsolate.Proof.Alignment
import TitusIsolate.Isolate.Configured
import TitusIsolate.Proof.NoopMarks
import TitusIsolate.Allocate.ResponseDict
import TitusIsolate.Proof.ResponseCodec
import TitusIsolate.Lib.PrefixCode
import TitusIsolate.Lib.TextTable
import TitusIsolate.Proof.Symbols
import TitusIsolate.Proof.Drawing
import TitusIsolate.Proof.Picture
import TitusIsolate.Lib.RowMajor
import TitusIsolate.Proof.Numbering
import TitusIsolate.Isolate.Metrics
import TitusIsolate.Proof.Views
import TitusIsolate.Lib.Filling
import TitusIsolate.Isolate.Detect
import TitusIsolate.Proof.Violations
import TitusIsolate.Proof.Fragmentation
import TitusIsolate.Lib.AsciiJson
import TitusIsolate.Allocate.RemoteProcess
import TitusIsolate.Proof.RemoteMessage
import TitusIsolate.Proof.Truthful
import TitusIsolate.Proof.Reconciled
import TitusIsolate.Proof.Settled
import TitusIsolate.Lib.SharedCount
import TitusIsolate.Isolate.Keystone
import TitusIsolate.Proof.Delivery
import TitusIsolate.Event.Handlers
import TitusIsolate.Proof.Follows
import TitusIsolate.Proof.Draining
import TitusIsolate.Event.Startup
import TitusIsolate.Proof.Startup
import TitusIsolate.Event.Machine
import TitusIsolate.Proof.MachineViews
import TitusIsolate.Proof.Machine
import TitusIsolate.Proof.MachineFair
import TitusIsolate.Proof.MachineServes
import TitusIsolate.Crd.Publish
import TitusIsolate.Proof.Publishing
import TitusIsolate.Proof.PublishEndings
import TitusIsolate.Proof.PublishContents
