import InformerHub.Backoff
import InformerHub.Barrier
import InformerHub.Binding.Report
import InformerHub.Cancellation
import InformerHub.Condition
import InformerHub.Condition.Fields
import InformerHub.Config.Fields
import InformerHub.Config.Layers
import InformerHub.Config.Location
import InformerHub.Config.Path
import InformerHub.Config.Settings
import InformerHub.Connection
import InformerHub.Document
import InformerHub.Drain
import InformerHub.Duration
import InformerHub.Error
import InformerHub.Event
import InformerHub.Event.Filter
import InformerHub.Factory
import InformerHub.FanOut
import InformerHub.Informer
import InformerHub.Informer.Run
import InformerHub.Log
import InformerHub.ObjectKey
import InformerHub.Outcome
import InformerHub.Reflector
import InformerHub.Retry
import InformerHub.Scenario.Act
import InformerHub.Scenario.Clock
import InformerHub.Scenario.ConditionCall
import InformerHub.Scenario.Delivery
import InformerHub.Scenario.Object
import InformerHub.Scenario.Perform
import InformerHub.Scenario.Play
import InformerHub.Scenario.Reply
import InformerHub.Scenario.Scene
import InformerHub.Scenario.SceneM
import InformerHub.Scenario.Source
import InformerHub.Scenario.Step
import InformerHub.Scenario.StoreCall
import InformerHub.Scenario.Task
import InformerHub.Scenario.Turn.Barrier
import InformerHub.Scenario.Turn.Connection
import InformerHub.Scenario.Turn.Hook
import InformerHub.Scenario.Turn.Informer
import InformerHub.SortedMap
import InformerHub.Store
import InformerHub.SyncWait
import InformerHub.Text.Hidden
import InformerHub.Text.Numeral
import InformerHub.Text.Quoted
import InformerHub.Text.Shape
import InformerHub.Text.Shortest
import InformerHub.Ticker
import InformerHub.Timestamp
import InformerHub.Toml.Date
import InformerHub.Toml.Reader
import InformerHub.Toml.Scalar
import InformerHub.Toml.Scan
import InformerHub.Toml.Table
import InformerHub.Proofs.ByteOrder
import InformerHub.Proofs.Index
import InformerHub.Proofs.StoreContent
import InformerHub.Proofs.StoreQueries
import InformerHub.Proofs.FreshIndex
import InformerHub.Proofs.History
import InformerHub.Proofs.Deliveries
import InformerHub.Proofs.Session
import InformerHub.Proofs.Registrations
import InformerHub.Proofs.StaticView
import InformerHub.Proofs.DynamicView
import InformerHub.Proofs.FilteredView
import InformerHub.Proofs.Replica
import InformerHub.Proofs.Supervision
import InformerHub.Proofs.Watch
import InformerHub.Proofs.Vigil
import InformerHub.Proofs.Report
import InformerHub.Proofs.Upkeep
import InformerHub.Proofs.Attempts
import InformerHub.Proofs.Launch
import InformerHub.Proofs.Cancellation
import InformerHub.Proofs.Roster
import InformerHub.Proofs.Attendance
import InformerHub.Proofs.Nesting
import InformerHub.Proofs.Broadcast
import InformerHub.Proofs.Rounds
import InformerHub.Proofs.Ledger
import InformerHub.Proofs.Tenure
import InformerHub.Proofs.Transcript
import InformerHub.Proofs.FirstList
import InformerHub.Proofs.SyncLatch
import InformerHub.Proofs.Steady
import InformerHub.Proofs.Fleet
import InformerHub.Proofs.Conditions
import InformerHub.Proofs.Foundry
import InformerHub.Proofs.Windup
import InformerHub.Proofs.Overlay
import InformerHub.Proofs.WholeDocument
import InformerHub.Proofs.Environment
import InformerHub.Proofs.Layering
import InformerHub.Proofs.Difference
import InformerHub.Proofs.Schedule
import InformerHub.Proofs.Reporting
import InformerHub.Proofs.Idempotence
import InformerHub.Proofs.FilteredHistory
import InformerHub.Proofs.Rhythm
import InformerHub.Proofs.Patrol
import InformerHub.Proofs.Doubling
import InformerHub.Proofs.Relisting
import InformerHub.Proofs.Custody
import InformerHub.Proofs.Naming
import InformerHub.Proofs.Intake
import InformerHub.Proofs.Streams
import InformerHub.Proofs.Redelivery
import InformerHub.Proofs.RollCall
import InformerHub.Proofs.Placement
import InformerHub.Proofs.KeyHistory
import InformerHub.Proofs.Clientele
import InformerHub.Proofs.Endurance
