import ConduitClient.Effect.Prog
import ConduitClient.Effect.World
import ConduitClient.Effect.Contract
import ConduitClient.Effect.Alone
import ConduitClient.Effect.Interpret
import ConduitClient.Effect.Relate
import ConduitClient.Effect.Timed
import ConduitClient.Effect.Shared
import ConduitClient.Effect.History
import ConduitClient.Effect.Solo
import ConduitClient.Effect.Polling
import ConduitClient.Py.Text
import ConduitClient.Py.Path
import ConduitClient.Py.Names
import ConduitClient.Py.Blocks
import ConduitClient.Provision
import ConduitClient.Checksums
import ConduitClient.Disk
import ConduitClient.Cache
import ConduitClient.Installation
import ConduitClient.CacheSafety
import ConduitClient.SharedCache
import ConduitClient.Escape
import ConduitClient.Extraction
import ConduitClient.Downloads
import ConduitClient.Recovery
import ConduitClient.Leftovers
import ConduitClient.Footprint
import ConduitClient.ErrorsTotal
import ConduitClient.Details
import ConduitClient.Messages
import ConduitClient.Printed
import ConduitClient.Pipeline
import ConduitClient.Run
import ConduitClient.Plan
import ConduitClient.Session
import ConduitClient.Builder
import ConduitClient.Completion
import ConduitClient.Submission
import ConduitClient.Server
import ConduitClient.Stages
import ConduitClient.Progress
import ConduitClient.Isolation
import ConduitClient.Orphans
import ConduitClient.Usage
import ConduitClient.Stateless
import ConduitClient.Waiting
import ConduitClient.Tolerance
import ConduitClient.Timeline
import ConduitClient.Reads
import ConduitClient.Local
import ConduitClient.Budget
import ConduitClient.Probing
import ConduitClient.Overrun
import ConduitClient.Supervision
import ConduitClient.Phases
import ConduitClient.Construction
import ConduitClient.Readiness
import ConduitClient.Teardown
import ConduitClient.Interruption
import ConduitClient.Diagnosis
import ConduitClient.LogTail
import ConduitClient.Release
import ConduitClient.Closing
import ConduitClient.WithBlock
import ConduitClient.Desktop
import ConduitClient.Launching
