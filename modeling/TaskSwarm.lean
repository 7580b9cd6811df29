import TaskSwarm.CommandLine.Rehearsal
import TaskSwarm.Event.Bus
import TaskSwarm.Health.Watch
import TaskSwarm.Main
import TaskSwarm.Swarm.Copies
import TaskSwarm.Proofs.Node.Conduct
import TaskSwarm.Proofs.Node.Operation
import TaskSwarm.Proofs.Swarm.Run
import TaskSwarm.Proofs.Node.Duties
import TaskSwarm.Proofs.Swarm.History
import TaskSwarm.Proofs.Store.Record
import TaskSwarm.Proofs.Swarm.Record
import TaskSwarm.Proofs.Swarm.Executor
import TaskSwarm.Proofs.Swarm.Play
import TaskSwarm.Proofs.Decimal.Layout
import TaskSwarm.Proofs.Json.Scanner
import TaskSwarm.Proofs.Wire.Line
import TaskSwarm.Proofs.Document.Record
import TaskSwarm.Proofs.Message.Heard
import TaskSwarm.Proofs.Node.Messages
import TaskSwarm.Proofs.Swarm.Exchange
import TaskSwarm.Proofs.Swarm.Settled
import TaskSwarm.Proofs.Swarm.Winner
import TaskSwarm.Proofs.Swarm.Agreement
import TaskSwarm.Proofs.Store.History
import TaskSwarm.Proofs.Store.LockLaw
import TaskSwarm.Proofs.Store.Exclusion
import TaskSwarm.Proofs.Store.Trace
import TaskSwarm.Proofs.Node.Claim
import TaskSwarm.Proofs.Swarm.Standing
import TaskSwarm.Proofs.Swarm.LastMove
import TaskSwarm.Proofs.Swarm.Claim
import TaskSwarm.Proofs.Swarm.Stranded
import TaskSwarm.Proofs.Swarm.Admission
import TaskSwarm.Proofs.Swarm.Authority
import TaskSwarm.Proofs.Swarm.StatusUpdates
import TaskSwarm.Proofs.Store.Slots
import TaskSwarm.Proofs.Store.Listing
import TaskSwarm.Proofs.Node.Slots
import TaskSwarm.Proofs.Swarm.Slots
import TaskSwarm.Proofs.Health.Bookkeeping
import TaskSwarm.Proofs.Health.Presence
import TaskSwarm.Proofs.Health.Superseded
import TaskSwarm.Proofs.Health.Reconciliation
import TaskSwarm.Proofs.Node.Response
import TaskSwarm.Proofs.Json.Canonical
import TaskSwarm.Proofs.Document.Conveyed
import TaskSwarm.Proofs.Document.Faithful
import TaskSwarm.Proofs.Document.FaithfulRecord
import TaskSwarm.Proofs.Message.Reencoding
import TaskSwarm.Proofs.Json.Legible
import TaskSwarm.Proofs.Wire.Framing
import TaskSwarm.Proofs.Json.Cut
import TaskSwarm.Proofs.Wire.Intake
import TaskSwarm.Proofs.Wire.Preamble
import TaskSwarm.Proofs.Node.Restraint
import TaskSwarm.Proofs.Node.Telling
import TaskSwarm.Proofs.Swarm.Endings
import TaskSwarm.Proofs.Files.Path
import TaskSwarm.Proofs.Wire.FileFrame
import TaskSwarm.Proofs.Files.Tree
import TaskSwarm.Proofs.Node.Inputs
import TaskSwarm.Proofs.Swarm.Completion
import TaskSwarm.Proofs.Swarm.Inputs
import TaskSwarm.Proofs.Execution.Confinement
import TaskSwarm.Proofs.Node.Attempt
import TaskSwarm.Proofs.Swarm.Attempt
import TaskSwarm.Proofs.Node.Saying
import TaskSwarm.Proofs.Node.Cancelling
import TaskSwarm.Proofs.Swarm.Cancellation
import TaskSwarm.Proofs.Node.Delivery
import TaskSwarm.Proofs.Swarm.Delivery
import TaskSwarm.Proofs.Node.Creation
import TaskSwarm.Proofs.Swarm.Creation
import TaskSwarm.Proofs.Swarm.LockAge
import TaskSwarm.Proofs.Wire.Oversize
import TaskSwarm.Proofs.Event.Moment
import TaskSwarm.Proofs.Event.Lines
import TaskSwarm.Proofs.Event.Log
import TaskSwarm.Proofs.Swarm.Reachability
import TaskSwarm.Proofs.Execution.Arguments
import TaskSwarm.Proofs.Configuration.Search
import TaskSwarm.Proofs.Configuration.Overlay
