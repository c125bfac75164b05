import ActionGraph.Proofs.Pulse.Atomicity
import ActionGraph.Proofs.Pulse.Spawning

/-!
How a node with a script is run. A script only logs and reads the clock, so it comes to its outcome at
once, with a value or with a fault. Either is logged and published, each on an output of its own, and
then the pulse goes on.
-/

namespace ActionGraph

namespace Script

variable {α : Type}

/-- Runs a script to its outcome. -/
def Run.play (s : Scene) : Run α → Scene × Except Fault α
  | .ended o => (s, o)
  | .log message data next => next.play (s.log message data)
  | .now next => (next s.outside.readClock.1).play { s with outside := s.outside.readClock.2 }

theorem Run.memory_play (run : Run α) (s : Scene) : (run.play s).1.memory = s.memory := by
  induction run generalizing s with
  | ended o => rfl
  | log message data next ih => exact ih (s.log message data)
  | now next ih => exact ih s.outside.readClock.1 { s with outside := s.outside.readClock.2 }

/-- The output that an outcome is published on, with what is published there. -/
def outlet : Except Fault Value → String × Value
  | .ok v => ("data_out", v)
  | .error f => ("error_out", .record [("message", .text f.line)])

end Script

namespace Node

variable (node : Node)

/-- The script of a node, for an input and a last event. -/
def script (evaluate : Script.Evaluator) (input : Value) (last : Option Snapshot) : Script.Run Value :=
  evaluate (Value.textOr (node.setting? "code") "") input (last.elim .null Snapshot.toRecord)

/-- What is logged of an outcome. -/
def verdict : Except Fault Value → String × Value
  | .ok v => ("Evaluated expression", .record [("node", .text node.id), ("output", v)])
  | .error f => ("Expression failed", .record [("node", .text node.id), ("error", .text f.line)])

end Node

/-- The scene in which an outcome has been logged. -/
def Scene.pronounce (s : Scene) (node : Node) (o : Except Fault Value) : Scene :=
  s.log (node.verdict o).1 (node.verdict o).2

namespace Builtin

open ActionGraph.Action

variable (settings : Settings) (node : Node) (inputs : Ports) {evaluate : Script.Evaluator} {s s' : Scene}

theorem evaluateScript_effect : (evaluateScript evaluate).effect settings node inputs =
    Action.lastEvent.andThen fun last =>
      (node.script evaluate (inputs.value "data_in") last).toAction.andThen fun o =>
        (Action.log (node.verdict o).1 (node.verdict o).2).andThen fun _ => .done [Script.outlet o] := by
  refine congrArg (Action.andThen Action.lastEvent) (funext fun last => ?_)
  refine congrArg (Action.andThen (node.script evaluate (inputs.value "data_in") last).toAction) (funext fun o => ?_)
  cases o <;> rfl

end Builtin

namespace Environment

open Builtin

/-- Begun in the scene `s`, a node with a script is run to this outcome: its input is looked up, the
script runs with what was found and the last event, and the outcome is logged and then published. -/
inductive Evaluates (env : Environment) (evaluate : Script.Evaluator) (node : Node) (s : Scene) :
    Except Fault Value → Scene → Prop
  | intro {s₁ s₂ : Scene} {w : Value} {o : Except Fault Value} : env.LooksUp ⟨node.id, "data_in"⟩ s (s₁, w) →
      (node.script evaluate (if w.isAbsent then .null else w) s₁.memory.lastEvent).play s₁ = (s₂, o) →
      Evaluates env evaluate node s o ((s₂.pronounce node o).publish ⟨node.id, (Script.outlet o).1⟩ (Script.outlet o).2)

variable {env : Environment} {evaluate : Script.Evaluator} {node : Node} {s s' : Scene}

theorem Evaluates.outputs {n : String} (scripts : env.repertoire = Builtin.repertoire evaluate)
    (arrived : env.arrive n = .runnable node (evaluateScript evaluate)) {o : Except Fault Value}
    (evaluates : env.Evaluates evaluate node s o s') :
    Keyed.get? ⟨node.id, (Script.outlet o).1⟩ s'.memory.cache.entries = some (Script.outlet o).2 ∧
      (s.outside.staging.deferred = false → ∀ q, q ≠ (Script.outlet o).1 →
        Keyed.get? ⟨node.id, q⟩ s'.memory.cache.entries = Keyed.get? ⟨node.id, q⟩ s.memory.cache.entries) := by
  cases evaluates with
  | @intro s₁ s₂ w _ found plays =>
    have memory : (s₂.pronounce node o).memory = s₁.memory := by
      have played := Script.Run.memory_play (node.script evaluate (if w.isAbsent then .null else w) s₁.memory.lastEvent) s₁
      rwa [plays] at played
    refine ⟨(Keyed.get?_put ..).trans (if_pos rfl), fun prompt q other => ?_⟩
    -- The one write that follows on the lookup is to another port.
    have apart : (⟨node.id, (Script.outlet o).1⟩ : Endpoint) ≠ ⟨node.id, q⟩ := fun same =>
      other (congrArg Endpoint.port same).symm
    have kept : Keyed.get? ⟨node.id, q⟩ ((s₂.pronounce node o).publish ⟨node.id, (Script.outlet o).1⟩
        (Script.outlet o).2).memory.cache.entries = Keyed.get? ⟨node.id, q⟩ s₁.memory.cache.entries := by
      rw [← memory]
      exact (Keyed.get?_put ..).trans (if_neg apart)
    have builtin : env.IsBuiltin := ⟨evaluate, scripts⟩
    have listed : Input.wired "data_in" ∈ [Input.wired "data_in"] := List.mem_cons_self
    have looked := LooksUp.retrieved builtin listed prompt found
    rw [kept]
    exact entry_of_filled builtin arrived looked.memory q

end Environment

end ActionGraph
