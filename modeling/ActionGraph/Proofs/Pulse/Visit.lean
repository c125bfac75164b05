import ActionGraph.Proofs.Action.Throughout
import ActionGraph.Proofs.Pulse.Unfolding

/-!
A visit of a node that pulses run: the trial to perform the node, and what follows on that. However
it goes, the visit ends with the ids that the graph alone determines.
-/

namespace ActionGraph

namespace Action

variable {α : Type}

theorem ends_any (a : Action α) : a.Ends fun _ => True := by
  induction a with
  | done x => exact trivial
  | failed f => exact trivial
  | ask r next ih => exact ⟨trivial, ih⟩

theorem ends_attempt (a : Action α) : a.attempt.Ends fun r => r.isOk :=
  Throughout.attempt (ends_any a) (fun _ _ h => h) fun _ _ => rfl

end Action

namespace Environment

section

variable (env : Environment) (node : Node) (b : Behavior)

/-- What follows on the trial to perform a node. -/
def goOn : Except Fault Unit → Action (List String)
  | .ok _ => env.leave ⟨node.id, b.execOut⟩
  | .error f => do
    Action.diagnose ("[ENGINE] Node " ++ node.id ++ " failed: " ++ f.line)
    Action.log ("Node " ++ node.id ++ " failed") (.record [("type", .text node.type), ("error", .text f.line)])
    env.leave ⟨node.id, b.execOut⟩

theorem run_eq : env.run node b =
    (Action.diagnose ("[ENGINE] Executing node: " ++ node.id ++ " (" ++ node.type ++ ")")).andThen
      fun _ => (env.perform node b).attempt.andThen (env.goOn node b) := by
  have contained : ((env.contain node b).andThen fun _ => env.leave ⟨node.id, b.execOut⟩) =
      (env.perform node b).attempt.andThen (env.goOn node b) := by
    refine (Action.andThen_assoc _ _ _).trans (congrArg _ (funext fun outcome => ?_))
    cases outcome <;> rfl
  exact congrArg (fun next => Action.andThen (Action.diagnose _) fun _ => next) contained

end

/-- How a visit ends: with these ids to go on with, or where a way is unclear. -/
def Onward (env : Environment) (ids : List String) : Except Fault (List String) → Prop
  | .ok next => next = ids
  | .error f => env.Unclear f

variable (env : Environment)

theorem ends_leave (origin : Endpoint) : (env.leave origin).Ends (env.Onward (env.targets origin)) := by
  unfold leave
  dsimp only
  split
  · exact ⟨trivial, fun _ => rfl⟩
  · exact rfl

theorem ends_contain (node : Node) (b : Behavior) : (env.contain node b).Ends fun r => r.isOk := by
  refine Action.Ends.andThen (Action.ends_attempt _) (fun r _ => ?_) fun e h => h
  cases r with
  | ok x => exact rfl
  | error f => exact ⟨trivial, fun _ => ⟨trivial, fun _ => rfl⟩⟩

theorem ends_run (node : Node) (b : Behavior) :
    (env.run node b).Ends (env.Onward (env.targets ⟨node.id, b.execOut⟩)) := by
  have rest : ((env.contain node b).andThen fun _ => env.leave ⟨node.id, b.execOut⟩).Ends
      (env.Onward (env.targets ⟨node.id, b.execOut⟩)) :=
    (env.ends_contain node b).andThen (fun _ _ => env.ends_leave _) fun _ h => absurd h Bool.false_ne_true
  exact ⟨trivial, fun _ => rest⟩

variable {env}

theorem ends_visit_skip {id : String} (none : env.exit? id = none) : (env.visit id).Ends (env.Onward []) := by
  unfold visit
  split
  · exact ⟨trivial, fun _ => rfl⟩
  · exact ⟨trivial, fun _ => ⟨trivial, fun _ => rfl⟩⟩
  · exact rfl
  · rename_i f arrived
    exact unclear_of_arrive arrived
  · rename_i node b arrived
    simp [exit?, arrived] at none

theorem ends_visit_emit {id port : String} (some : env.exit? id = some port) :
    (env.visit id).Ends (env.Onward (env.targets ⟨id, port⟩)) := by
  obtain ⟨node, b, arrived, rfl⟩ := runnable_of_exit? some
  have run := env.ends_run node b
  rw [id_of_arrive arrived] at run
  unfold visit
  rwa [arrived]

end Environment

end ActionGraph
