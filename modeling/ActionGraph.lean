import ActionGraph.Main
import ActionGraph.Draft
import ActionGraph.Manifest
import ActionGraph.Behavior.Probe
import ActionGraph.Behavior.Settings
import ActionGraph.Proofs.Pulse.Order
import ActionGraph.Proofs.Pulse.Handoff
import ActionGraph.Proofs.Session.Stop
import ActionGraph.Proofs.Demonstration.Tended
import ActionGraph.Proofs.Action.Course
import ActionGraph.Proofs.Cache.Writing
import ActionGraph.Proofs.Action.Memory
import ActionGraph.Proofs.Session.Chronicle
import ActionGraph.Proofs.Session.Recount
import ActionGraph.Proofs.Session.Record
import ActionGraph.Proofs.Pulse.Publication
import ActionGraph.Proofs.Session.Itinerary
import ActionGraph.Proofs.Session.Unbroken
import ActionGraph.Proofs.Session.Writes
import ActionGraph.Proofs.Session.Constants
import ActionGraph.Proofs.Pulse.Resolution
import ActionGraph.Proofs.Session.Events
import ActionGraph.Proofs.Session.Outputs
import ActionGraph.Proofs.Graph.Checked
import ActionGraph.Proofs.Pulse.Spawning
import ActionGraph.Proofs.Session.Checked
import ActionGraph.Proofs.Session.Roster
import ActionGraph.Proofs.Session.Delivery
import ActionGraph.Proofs.Session.Contents
import ActionGraph.Proofs.Session.Independence
import ActionGraph.Proofs.Graph.Edits
import ActionGraph.Proofs.Graph.RoundTrip
import ActionGraph.Proofs.Session.Ending
import ActionGraph.Proofs.Host.Handling
import ActionGraph.Proofs.Pulse.Lookup
import ActionGraph.Proofs.Session.Unwatched
import ActionGraph.Proofs.Session.Failures
import ActionGraph.Proofs.Session.Acceptance
import ActionGraph.Proofs.Behavior.Inputs
import ActionGraph.Proofs.Pulse.Consumption
import ActionGraph.Proofs.Action.Caution
import ActionGraph.Proofs.Pulse.Atomicity
import ActionGraph.Proofs.Pulse.Evaluation
import ActionGraph.Proofs.Session.Expressions
import ActionGraph.Proofs.Graph.Verdicts
import ActionGraph.Proofs.Host.Attendance
import ActionGraph.Proofs.Rehearsal.Run
import ActionGraph.Proofs.Rehearsal.Extension
import ActionGraph.Proofs.Cache.History
import ActionGraph.Proofs.Value.Number
import ActionGraph.Proofs.Graph.Wording
