import CcApi.Lib.Runs
import CcApi.Lib.Ring
import CcApi.Lib.Pieces
import CcApi.Platform
import CcApi.Firmware.Model
import CcApi.Firmware.Pool
import CcApi.Firmware.Buffers
import CcApi.Firmware.Queue
import CcApi.Firmware.Streaming
import CcApi.Firmware.Ownership
import CcApi.Lib.Handoff
import CcApi.Lib.Handshake
import CcApi.Receive.Model
import CcApi.Cli.Model
import CcApi.Cli.Handoff
import CcApi.Sessions
import CcApi.Receive.Handoff
import CcApi.Receive.Exact
import CcApi.Rci.Types
import CcApi.Rci.Handler
import CcApi.Rci.Thread
import CcApi.Rci.Attribution
import CcApi.Rci.Nesting
import CcApi.Rci.Bounds
import CcApi.Rci.Dispatch
import CcApi.Rci.Path
import CcApi.Rci.Protocol
import CcApi.Rci.Matches
import CcApi.Rci.Enums
import CcApi.Lib.Chain
import CcApi.Lib.Ledger
import CcApi.Datapoints.Model
import CcApi.Datapoints.Collection
import CcApi.Datapoints.Format
import CcApi.Datapoints.Points
import CcApi.Datapoints.Changes
import CcApi.Datapoints.Count
import CcApi.Datapoints.Sent
import CcApi.Datapoints.Clear
import CcApi.Datapoints.Removal
import CcApi.Datapoints.Sending
import CcApi.Datapoints.Older
import CcApi.Lib.Outbox
import CcApi.Datapoints.Delivery
import CcApi.Datapoints.Streams
import CcApi.Datapoints.Release
import CcApi.Firmware.SizeBound
import CcApi.Firmware.Verdict
import CcApi.Firmware.Offsets
import CcApi.Firmware.Images
import CcApi.Lib.Prog
import CcApi.Lib.Splice
import CcApi.Tables.Model
import CcApi.Tables.Exclusion
import CcApi.Tables.Listing
import CcApi.FileSystem.Model
import CcApi.FileSystem.Handler
import CcApi.FileSystem.Lock
import CcApi.FileSystem.Effects
import CcApi.FileSystem.Operations
import CcApi.FileSystem.Context
import CcApi.FileSystem.Access
import CcApi.FileSystem.Errors
import CcApi.FileSystem.Busy
import CcApi.FileSystem.Paths
import CcApi.FileSystem.Opening
import CcApi.FileSystem.Notify
import CcApi.Instance.Start
import CcApi.Instance.Failure
import CcApi.Instance.Pointer
import CcApi.Instance.Success
import CcApi.Instance.Lifecycle
import CcApi.Lib.Drain
import CcApi.Send.Lifetime
import CcApi.Send.Hint
import CcApi.Send.Streaming
import CcApi.Send.Verdict
import CcApi.Datapoints.Binary
import CcApi.Send.FileStreaming
import CcApi.Send.Cleanup
import CcApi.Transport.Lifetime
import CcApi.Transport.Verdict
import CcApi.Transport.Ownership
import CcApi.Transport.Sms
import CcApi.Cursor
import CcApi.Receive.Replies
import CcApi.Receive.ErrorReply
import CcApi.Receive.Rpc
import CcApi.Receive.Ownership
import CcApi.Cli.Replies
import CcApi.Cli.Ownership
import CcApi.Lib.Announce
import CcApi.Replies
import CcApi.Ownership
import CcApi.Lib.Critical
import CcApi.Logging
import CcApi.Wakeup
import CcApi.Lib.Custody
import CcApi.Lib.Catalog
import CcApi.Tables.Maps
import CcApi.Receive.Registered
import CcApi.Lib.Slot
import CcApi.Teardown.Model
import CcApi.Teardown.Calls
import CcApi.Teardown.Tasks
import CcApi.Teardown.Once
