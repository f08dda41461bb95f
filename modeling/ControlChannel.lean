import ControlChannel.Duration
import ControlChannel.Address
import ControlChannel.Address.Text
import ControlChannel.Address.Reader
import ControlChannel.Text.Blank
import ControlChannel.Text.Number
import ControlChannel.Text.Utf8
import ControlChannel.Cell
import ControlChannel.Error
import ControlChannel.ResultSet
import ControlChannel.Message
import ControlChannel.Host
import ControlChannel.Schema.View
import ControlChannel.Schema.Scope
import ControlChannel.Store
import ControlChannel.Topology
import ControlChannel.Slot
import ControlChannel.Balancing
import ControlChannel.Backoff
import ControlChannel.Fabric
import ControlChannel.Refresh.Schema
import ControlChannel.Refresh.Topology
import ControlChannel.Session
import ControlChannel.Timer
import ControlChannel.Control.System
import ControlChannel.Text.Pieces
import ControlChannel.Text.Quoted
import ControlChannel.Config.Basic
import ControlChannel.Config.Declared
import ControlChannel.Config.Environment
import ControlChannel.Config.Yaml
import ControlChannel.Config.Toml
import ControlChannel.Config.File
import ControlChannel.Rehearsal.Solo
import ControlChannel.Rehearsal.Sessions
import ControlChannel.Rehearsal.StoreStep
import ControlChannel.Rehearsal.Rotation
import ControlChannel.Rehearsal.Occupancy
import ControlChannel.Rehearsal.Interleaving
import ControlChannel.Rehearsal.Play
import ControlChannel.Proofs.Acts
import ControlChannel.Proofs.Control.Search
import ControlChannel.Proofs.Control.Attempt
import ControlChannel.Proofs.Control.Steps
import ControlChannel.Proofs.Control.Turns
import ControlChannel.Proofs.Custody.Keepers
import ControlChannel.Proofs.Control.Occupation
import ControlChannel.Proofs.Control.Shutdown
import ControlChannel.Proofs.Readiness.History
import ControlChannel.Proofs.Readiness.Hosts
import ControlChannel.Proofs.Readiness.Surveys
import ControlChannel.Proofs.Readiness.Trail
import ControlChannel.Proofs.Readiness.Sending
import ControlChannel.Proofs.Readiness.Entry
import ControlChannel.Proofs.Answers
import ControlChannel.Proofs.Control.Outcomes
import ControlChannel.Proofs.Control.Faults
import ControlChannel.Proofs.Control.Seeking
import ControlChannel.Proofs.Control.Phases
import ControlChannel.Proofs.Control.Origins
import ControlChannel.Proofs.Control.Connecting
import ControlChannel.Proofs.Control.LastEvent
import ControlChannel.Proofs.Control.Rounds
import ControlChannel.Proofs.Control.Failing
import ControlChannel.Proofs.Schema.Decoding
import ControlChannel.Proofs.Schema.Conversation
import ControlChannel.Proofs.Schema.Atomic
import ControlChannel.Proofs.Schema.Assembly
import ControlChannel.Proofs.Schema.Catalogue
import ControlChannel.Proofs.Schema.Agreement
import ControlChannel.Proofs.Schema.ColumnOrder
import ControlChannel.Proofs.Schema.Contents
import ControlChannel.Proofs.Schema.Statements
import ControlChannel.Proofs.Membership.Convergence
import ControlChannel.Proofs.Membership.Listeners
import ControlChannel.Proofs.Membership.Alone
import ControlChannel.Proofs.Sessions.Schedules
import ControlChannel.Proofs.Sessions.Slots
import ControlChannel.Proofs.Backoff.Draws
import ControlChannel.Proofs.Values.Utf8
import ControlChannel.Proofs.Balancing.Liveness
import ControlChannel.Proofs.Balancing.Plans
import ControlChannel.Proofs.Settings.Addresses
import ControlChannel.Proofs.Settings.Drafts
import ControlChannel.Proofs.Settings.Texts
import ControlChannel.Proofs.Values.Cells
