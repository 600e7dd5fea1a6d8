import Rollout.Activity
import Rollout.Apply
import Rollout.Backoff
import Rollout.Binary64
import Rollout.Container
import Rollout.Delivery
import Rollout.Duration
import Rollout.Entries
import Rollout.Environment
import Rollout.Failure
import Rollout.Handler
import Rollout.Http
import Rollout.Http.Target
import Rollout.Json.Basic
import Rollout.Json.Printer
import Rollout.Json.Reader
import Rollout.Kubeconfig
import Rollout.Main
import Rollout.Manifest
import Rollout.Metadata
import Rollout.Operation.Batch
import Rollout.Operation.Single
import Rollout.Pipeline
import Rollout.Power
import Rollout.Program
import Rollout.Proofs.Activity.Course
import Rollout.Proofs.Activity.Ensures
import Rollout.Proofs.Activity.Punctual
import Rollout.Proofs.Activity.Record
import Rollout.Proofs.Activity.Result
import Rollout.Proofs.Activity.Service
import Rollout.Proofs.Activity.Throughout
import Rollout.Proofs.Apply.Abort
import Rollout.Proofs.Apply.Convergence
import Rollout.Proofs.Apply.Deletion
import Rollout.Proofs.Apply.Dialogue
import Rollout.Proofs.Apply.LostUpdate
import Rollout.Proofs.Apply.Members
import Rollout.Proofs.Apply.Parts
import Rollout.Proofs.Apply.Settled
import Rollout.Proofs.Apply.SharedStore
import Rollout.Proofs.Backoff
import Rollout.Proofs.Container
import Rollout.Proofs.Entries
import Rollout.Proofs.Environment
import Rollout.Proofs.Flattening
import Rollout.Proofs.Handler.Delegation
import Rollout.Proofs.Handler.Edit
import Rollout.Proofs.Handler.Errand
import Rollout.Proofs.Handler.Leafwise
import Rollout.Proofs.Handler.Leaves
import Rollout.Proofs.Manifest
import Rollout.Proofs.Metadata
import Rollout.Proofs.Operation.BatchDelete
import Rollout.Proofs.Operation.ContainerApply
import Rollout.Proofs.Operation.ContainerDelete
import Rollout.Proofs.Operation.ContainerLimit
import Rollout.Proofs.Operation.ContainerWait
import Rollout.Proofs.Operation.Deadline
import Rollout.Proofs.Operation.EveryItem
import Rollout.Proofs.Operation.FailFast
import Rollout.Proofs.Operation.Namespace
import Rollout.Proofs.Operation.NestedApply
import Rollout.Proofs.Operation.NestedLack
import Rollout.Proofs.Operation.Nesting
import Rollout.Proofs.Operation.Readiness
import Rollout.Proofs.Operation.Reapplied
import Rollout.Proofs.Operation.Registered
import Rollout.Proofs.Pipeline
import Rollout.Proofs.Program.Confined
import Rollout.Proofs.Program.Run
import Rollout.Proofs.Program.Search
import Rollout.Proofs.Program.Sequence
import Rollout.Proofs.Readiness
import Rollout.Proofs.Registry
import Rollout.Proofs.Resource
import Rollout.Proofs.Settings
import Rollout.Proofs.Shape
import Rollout.Proofs.Timestamp
import Rollout.Proofs.Traversal
import Rollout.Proofs.Wait.Attainment
import Rollout.Proofs.Wait.Budget
import Rollout.Proofs.Wait.Cadence
import Rollout.Proofs.Wait.Capacity
import Rollout.Proofs.Wait.Condition
import Rollout.Proofs.Wait.Deadline
import Rollout.Proofs.Wait.Delays
import Rollout.Proofs.Wait.FirstMatch
import Rollout.Proofs.Wait.Inquiry
import Rollout.Proofs.Wait.Observation
import Rollout.Proofs.Wait.Passage
import Rollout.Proofs.Wait.Permits
import Rollout.Proofs.Wait.Polling
import Rollout.Proofs.Wait.Punctual
import Rollout.Proofs.Wait.Reconnection
import Rollout.Proofs.Wait.Register
import Rollout.Proofs.Wait.Resumption
import Rollout.Proofs.Wait.Schedule
import Rollout.Proofs.Wait.Slots
import Rollout.Proofs.Wait.Spin
import Rollout.Proofs.Wait.Terms
import Rollout.Proofs.Wait.Timely
import Rollout.Proofs.Wait.Unlimited
import Rollout.Proofs.Wait.Verdict
import Rollout.Readiness
import Rollout.Readiness.PodShape
import Rollout.Readiness.Shapes
import Rollout.Registry
import Rollout.Rehearsal.Delivery
import Rollout.Rehearsal.Stage
import Rollout.Rehearsal.Store
import Rollout.Resource
import Rollout.Server.Discovery
import Rollout.Server.Kind
import Rollout.Server.Reply
import Rollout.Server.Verbs
import Rollout.Settings
import Rollout.Shape
import Rollout.Text.Blank
import Rollout.Text.Printable
import Rollout.Text.Quoted
import Rollout.Timestamp
import Rollout.Wait
import Rollout.Wait.Batch
import Rollout.Wait.Follow
import Rollout.Wait.Poll
import Rollout.Wait.Report
import Rollout.Wait.Seat
import Rollout.Watch
import Rollout.Yaml.Cursor
import Rollout.Yaml.Gap
import Rollout.Yaml.Node
import Rollout.Yaml.Scalar
import Rollout.Yaml.Token
import Rollout.Yaml.Token.Block
import Rollout.Yaml.Token.Plain
import Rollout.Yaml.Token.Quoted
import Rollout.Yaml.Token.Tag
import Rollout.Yaml.Value
