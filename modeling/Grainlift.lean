import Grainlift.Lib.Base64
import Grainlift.Lib.Caller
import Grainlift.Lib.Extents
import Grainlift.Lib.Loop
import Grainlift.Lib.Machine
import Grainlift.Lib.Runs
import Grainlift.Lib.Table
import Grainlift.Protocol.Errors
import Grainlift.Protocol.Framing
import Grainlift.Protocol.Ipc
import Grainlift.Protocol.Memory
import Grainlift.Protocol.Records
import Grainlift.Protocol.NullDiscipline
import Grainlift.Protocol.BindFrames
import Grainlift.Protocol.FlatRequests
import Grainlift.Protocol.Values
import Grainlift.Server.Cursor
import Grainlift.Server.Trails
import Grainlift.Server.ResultRuns
import Grainlift.Server.Worker
import Grainlift.Server.Access
import Grainlift.Server.Principals
import Grainlift.Server.Registry
import Grainlift.Server.Admission
import Grainlift.Lib.Program
import Grainlift.Lib.Mutex
import Grainlift.Lib.LockOrder
import Grainlift.Protocol.Wire
import Grainlift.Server.Upload
import Grainlift.Server.UploadActor
import Grainlift.Server.Session
import Grainlift.Server.Service
import Grainlift.Server.Solo
import Grainlift.Server.BindSchema
import Grainlift.Server.Effects
import Grainlift.Server.Handlers
import Grainlift.Server.LiveResults
import Grainlift.Server.Concurrent
import Grainlift.Server.History
import Grainlift.Server.BindTurns
import Grainlift.Server.BindDelivery
import Grainlift.Server.Orphans
import Grainlift.Server.ClosedStatements
import Grainlift.Server.Shutdown
import Grainlift.Server.Lease
import Grainlift.Server.OpenQuota
import Grainlift.Server.Locks
import Grainlift.Server.Deadlock
import Grainlift.Server.DriverWaits
import Grainlift.Server.Partitions
import Grainlift.Server.PartitionedExecution
import Grainlift.Server.Invalidation
import Grainlift.Server.Backend
import Grainlift.Server.Tenants
import Grainlift.Server.Confidential
import Grainlift.Server.OptionPolicy
import Grainlift.Server.Validation
import Grainlift.Client.RemoteErrors
import Grainlift.Client.Reader
import Grainlift.Client.Cursors
import Grainlift.Client.Desk
import Grainlift.Client.Info
import Grainlift.Client.Cancel
import Grainlift.Client.Options
import Grainlift.Client.Pool
import Grainlift.Client.OpenClient
import Grainlift.Client.CallRuns
import Grainlift.Client.Calls
import Grainlift.Client.Bind
import Grainlift.Client.BindRuns
import Grainlift.Client.ResultStream
import Grainlift.Client.PartitionReads
import Grainlift.Client.Lifetimes
