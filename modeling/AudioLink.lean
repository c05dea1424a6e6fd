import AudioLink.Text.Blank
import AudioLink.Text.Pieces
import AudioLink.Text.Numeral
import AudioLink.Address
import AudioLink.Address.Text
import AudioLink.Link
import AudioLink.Priority
import AudioLink.Duration
import AudioLink.Settings
import AudioLink.Settings.Variables
import AudioLink.Failure
import AudioLink.Registry
import AudioLink.Policy
import AudioLink.Timers
import AudioLink.Stack
import AudioLink.Notice
import AudioLink.Machine.Snapshot
import AudioLink.Machine.Basic
import AudioLink.Machine.Turn
import AudioLink.Machine.Request
import AudioLink.Machine.Event
import AudioLink.Machine.Handle
import AudioLink.Stack.Scripted
import AudioLink.Feed
import AudioLink.Publisher
import AudioLink.Controller
import AudioLink.Bench
import AudioLink.LogMode
import AudioLink.Wire.Value
import AudioLink.Wire.Codec
import AudioLink.Wire.States
import AudioLink.Wire.Reports
import AudioLink.Proofs.Change
import AudioLink.Proofs.Consistent
import AudioLink.Proofs.Outcome
import AudioLink.Proofs.Run
import AudioLink.Proofs.Slots
import AudioLink.Proofs.Coverage
import AudioLink.Proofs.Replica
import AudioLink.Proofs.Tandem
import AudioLink.Proofs.Agreement
import AudioLink.Proofs.Capacity
import AudioLink.Proofs.Queue
import AudioLink.Proofs.Expiry
import AudioLink.Proofs.Precedence
import AudioLink.Proofs.Calls
import AudioLink.Proofs.Handshake
import AudioLink.Proofs.Lifecycle
import AudioLink.Proofs.Burst
import AudioLink.Proofs.Generations
import AudioLink.Proofs.Ending
import AudioLink.Proofs.Admission
import AudioLink.Proofs.Publication
import AudioLink.Proofs.Separation
import AudioLink.Proofs.Seniority
import AudioLink.Proofs.Requests
import AudioLink.Proofs.Canonical
import AudioLink.Proofs.RoundTrip
import AudioLink.Proofs.Broadcast
import AudioLink.Proofs.Listing
import AudioLink.Proofs.Environment
import AudioLink.Proofs.Settling
