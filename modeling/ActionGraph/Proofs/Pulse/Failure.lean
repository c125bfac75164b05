import ActionGraph.Proofs.Action.Turns
import ActionGraph.Proofs.Pulse.Visit
import ActionGraph.Proofs.Session.Watching

/-!
How a node fails. Reading its inputs and its effect can fail, and publishing its outputs cannot. A
failure is reported and nothing is published; what follows is as if the node had no outputs.
-/

namespace ActionGraph

namespace Action

variable {α : Type}

/-- The same, with a result in the place of a fault. -/
def otherwise (a : Action α) (x : α) : Action α :=
  a.attempt.andThen fun
    | .ok y => .done y
    | .error _ => .done x

end Action

namespace Scene

variable (s : Scene) (node : Node)

def publishAll (outputs : Ports) : Scene := outputs.foldl (fun s p => s.publish ⟨node.id, p.1⟩ p.2) s

/-- A failure of a node is noted and logged. -/
def report (f : Fault) : Scene :=
  (s.diagnose ("[ENGINE] Node " ++ node.id ++ " failed: " ++ f.line)).log ("Node " ++ node.id ++ " failed")
    (.record [("type", .text node.type), ("error", .text f.line)])

end Scene

/-- What a report is made of, as deeds of the task that makes it. -/
def Node.reported (node : Node) (f : Fault) : List Deed :=
  [.asked (.diagnose ("[ENGINE] Node " ++ node.id ++ " failed: " ++ f.line)) (some ()),
    .asked (.log ("Node " ++ node.id ++ " failed") (.record [("type", .text node.type), ("error", .text f.line)])) (some ())]

/-- What a report adds to the observations. -/
def Node.complaint (node : Node) (f : Fault) : List Entry :=
  [.diagnostic ("[ENGINE] Node " ++ node.id ++ " failed: " ++ f.line),
    .logged ("Node " ++ node.id ++ " failed") (.record [("type", .text node.type), ("error", .text f.line)])]

namespace Environment

variable (env : Environment) (node : Node) (b : Behavior)

/-- All that can fail when a node is run: its inputs are read and its effect is performed. -/
def work : Action Ports := (env.readInputs node b.inputs []).andThen (b.effect env.settings node)

theorem perform_eq : env.perform node b = (env.work node b).andThen (publishAll node) :=
  (Action.andThen_assoc _ _ _).symm

/-- The scene in which a node has been run whose work has come to this outcome. -/
def settled (s : Scene) : Except Fault Ports → Scene
  | .ok outputs => s.publishAll node outputs
  | .error f => s.report node f

/-- A run of a node up to the end of its work. -/
def begun : Action Ports :=
  (Action.diagnose ("[ENGINE] Executing node: " ++ node.id ++ " (" ++ node.type ++ ")")).andThen fun _ => env.work node b

/-- A run of a node whose work is this. -/
def stage (work : Action Ports) : Action (List String) := (work.andThen (publishAll node)).attempt.andThen (env.goOn node b)

theorem run_eq_stage : env.run node b = env.stage node b (env.begun node b) := by
  rw [run_eq, perform_eq]
  rfl

/-- Nodes of this behavior do the same work up to a failure, and then they have no outputs. -/
def forgiving : Behavior := { b with inputs := [], effect := fun _ node _ => (env.work node b).otherwise [] }

theorem run_forgiving : env.run node (env.forgiving b) = env.stage node b ((env.begun node b).otherwise []) := by
  rw [run_eq, perform_eq]
  rfl

theorem transparent_stage : Action.Transparent (env.stage node b) := fun _ _ => rfl

/-- What is left of a run of a node of which this work is left, if it is forgiven. -/
def forgiven (work : Action Ports) : Action (List String) := env.stage node b (work.otherwise [])

theorem transparent_forgiven : Action.Transparent (env.forgiven node b) := fun _ _ => rfl

theorem perform_stage_failed (f : Fault) (s : Scene) : (env.stage node b (.failed f)).perform false s =
    (env.forgiven node b (.failed f)).perform false (s.report node f) := rfl

theorem deeds_stage_failed (f : Fault) (s : Scene) : (env.stage node b (.failed f)).deeds false s =
    node.reported f ++ (env.forgiven node b (.failed f)).deeds false (s.report node f) := rfl

end Environment

theorem Scene.report_eq (s : Scene) (node : Node) (f : Fault) :
    s.report node f = watched s (s.outside.watch.notes (node.complaint f)) := by
  unfold report log
  rw [Outside.log_eq]
  rfl

end ActionGraph
