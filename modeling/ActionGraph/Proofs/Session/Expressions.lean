import ActionGraph.Proofs.Pulse.Evaluation
import ActionGraph.Proofs.Session.Writes

/-!
What a run has on the outputs of a node with a script, however many pulses have run the node by then:
the last value that its script has come to, and the last fault that it has ended with.
-/

namespace ActionGraph

/-- The fault that a script has ended with, if it has. -/
def Script.fault? : Except Fault Value → Option Fault
  | .ok _ => none
  | .error f => some f

namespace Script

variable (os : List (Except Fault Value))

theorem results (v : Value) : ((os.filter fun o => (outlet o).1 = (outlet (.ok v)).1).map fun o => (outlet o).2) =
    os.filterMap Except.toOption := by
  induction os with
  | nil => rfl
  | cons o os ih =>
    cases o with
    | ok w => exact congrArg (w :: ·) ih
    | error f => exact ih

end Script

namespace Environment

/-- By these deeds a pulse that has come to a node with a script has run it to this outcome and has
logged that. -/
inductive Concludes (env : Environment) (evaluate : Script.Evaluator) (node : Node) (o : Except Fault Value) :
    List Deed → Prop
  | intro {first : Deed} {reading ran : List Deed} {inputs : Ports} {last : Option Snapshot} :
      (env.readInputs node [.wired "data_in"] []).Yields reading inputs →
      (node.script evaluate (inputs.value "data_in") last).toAction.Yields ran o →
      Concludes env evaluate node o (first :: (reading ++ .asked .lastEvent (some last) ::
        (ran ++ [.asked (.log (node.verdict o).1 (node.verdict o).2) (some ())])))

variable {env : Environment} {evaluate : Script.Evaluator} {node : Node} {n q : String} {v : Value} {ds : List Deed}

theorem Gives.concludes (gives : env.Gives n q v ds)
    (arrived : env.arrive n = .runnable node (Builtin.evaluateScript evaluate)) :
    ∃ o, Script.outlet o = (q, v) ∧ env.Concludes evaluate node o ds := by
  cases gives with
  | intro arrived' read effect =>
    cases arrived.symm.trans arrived'
    rw [Builtin.evaluateScript_effect] at effect
    obtain ⟨last, _, rest, rfl, asked, plays⟩ := effect.of_andThen
    obtain rfl := asked.of_request trivial
    obtain ⟨o, ran, _, rfl, ended, told⟩ := plays.of_andThen
    obtain ⟨_, _, given, rfl⟩ := told.of_ask trivial
    obtain ⟨rfl, same⟩ := Action.yields_done.mp given
    exact ⟨o, (List.cons.inj same).1.symm, .intro read ended⟩

end Environment

namespace Chronicle

/-- These are the outcomes, in order, with which pulses of a run have published for a node with a
script. Nobody else has published on its outputs. -/
inductive Verdicts (env : Environment) (evaluate : Script.Evaluator) (node : Node) (k : Nat) :
    Chronicle → List (Except Fault Value) → Prop
  | none : Verdicts env evaluate node k [] []
  | other {h : Chronicle} {os : List (Except Fault Value)} {j : Nat} {x : Happening} :
      Verdicts env evaluate node k h os →
      (j = k → ∀ o v, x.write? ≠ some (⟨node.id, (Script.outlet o).1⟩, v)) →
      Verdicts env evaluate node k (h ++ [(j, x)]) os
  | published {h : Chronicle} {os : List (Except Fault Value)} {i : Nat} {answer : Option Unit}
      {earlier since : List Deed} {o : Except Fault Value} {q : String} {v : Value} :
      Verdicts env evaluate node k h os → h.history.of i = earlier ++ .arrived node.id :: since →
      env.Concludes evaluate node o since → Script.outlet o = (q, v) →
      Verdicts env evaluate node k (h ++ [(k, .did i (.asked (.publish ⟨node.id, q⟩ v) answer))]) (os ++ [o])

variable {env : Environment} {evaluate : Script.Evaluator} {node : Node} {k : Nat} {h : Chronicle}
  {os : List (Except Fault Value)}

theorem Verdicts.written (verdicts : Verdicts env evaluate node k h os) (q : Except Fault Value) :
    h.written k ⟨node.id, (Script.outlet q).1⟩ =
      (os.filter fun o => (Script.outlet o).1 = (Script.outlet q).1).map fun o => (Script.outlet o).2 := by
  induction verdicts with
  | none => rfl
  | @other h os j x _ silent ih =>
    rw [written_append, ih]
    rcases written_single k ⟨node.id, (Script.outlet q).1⟩ (j, x) with none | ⟨y, v, same, write, _⟩
    · rw [none, List.append_nil]
    · cases same
      exact absurd write (silent rfl q v)
  | @published h os i answer _ _ o port v _ _ _ outlet ih =>
    have own : Chronicle.written [(k, .did i (.asked (.publish ⟨node.id, port⟩ v) answer))] k
        ⟨node.id, (Script.outlet q).1⟩ = if port = (Script.outlet q).1 then [v] else [] := by
      by_cases same : port = (Script.outlet q).1 <;>
        simp [Chronicle.written, writes, of, Cache.valuesOn, Happening.write?, Deed.write?, same]
    rw [written_append, ih, own, List.filter_append, List.map_append]
    by_cases same : port = (Script.outlet q).1 <;> simp [same, outlet]

end Chronicle

namespace Session

variable {s : Session} {h before after : Chronicle} {k : Nat} {env : Environment} {evaluate : Script.Evaluator}
  {node : Node} {n : String} {v : Value}

section

variable (told : s.Told h) (environment : s.environment? k = some env)
  (scripts : env.repertoire = Builtin.repertoire evaluate)
  (arrived : env.arrive n = .runnable node (Builtin.evaluateScript evaluate))

include told environment scripts arrived

/-- Only pulses that have run a node with a script publish on its outputs. -/
theorem Told.concluded {x : Happening} {q : String} (output : q ≠ "data_out_event")
    (split : h = before ++ (k, x) :: after) (write : x.write? = some (⟨node.id, q⟩, v)) :
    ∃ i answer earlier since o, x = .did i (.asked (.publish ⟨node.id, q⟩ v) answer) ∧
      before.history.of i = earlier ++ .arrived node.id :: since ∧ env.Concludes evaluate node o since ∧
      Script.outlet o = (q, v) := by
  obtain ⟨found, known, _⟩ := Environment.found_of_arrive arrived
  obtain rfl := Environment.id_of_arrive arrived
  cases told.wrote environment ⟨evaluate, scripts⟩ split write with
  | fired wanted same on _ =>
    obtain ⟨_, _, _, _, events⟩ := Environment.wanted_builtin ⟨evaluate, scripts⟩ wanted
    rw [← same, events] at on
    -- An event is published on a port that no script has.
    exact absurd (congrArg Endpoint.port on).symm output
  | supplied _ supplies => cases supplies.passive known found
  | given here gives =>
    obtain ⟨o, outlet, concludes⟩ := gives.concludes arrived
    exact ⟨_, _, _, _, o, rfl, here, concludes, outlet⟩

theorem Told.verdicts (split : h = before ++ after) : ∃ os, Chronicle.Verdicts env evaluate node k before os := by
  induction before using List.reverseRecOn generalizing after with
  | nil => exact ⟨[], .none⟩
  | append_singleton before last ih =>
    obtain ⟨j, x⟩ := last
    have happened : h = before ++ (j, x) :: after := by rw [split, List.append_assoc, List.singleton_append]
    obtain ⟨os, verdicts⟩ := ih happened
    by_cases writes : j = k ∧ ∃ q v, x.write? = some (⟨node.id, (Script.outlet q).1⟩, v)
    · obtain ⟨rfl, q, v, write⟩ := writes
      have output : (Script.outlet q).1 ≠ "data_out_event" := by cases q <;> simp [Script.outlet]
      obtain ⟨i, answer, earlier, since, o, rfl, here, concludes, outlet⟩ :=
        told.concluded environment scripts arrived output happened write
      exact ⟨os ++ [o], .published verdicts here concludes outlet⟩
    · exact ⟨os, .other verdicts fun own q v write => writes ⟨own, q, v, write⟩⟩

end

end Session

-- A node with a script that is wired to its own output for faults: without an input the script fails.
namespace Wary

def node : Node := ⟨"calc", "logic.eval", none, none, [], []⟩

def graph : Graph where
  schemaVersion := Graph.currentSchema
  graphId := none
  name := none
  nodes := [⟨"hover", "event.uiHover", none, none, [], []⟩, node]
  edges := [⟨"e1", .exec, ⟨"hover", "exec_out"⟩, ⟨"calc", "exec_in"⟩⟩,
    ⟨"e2", .data, ⟨"calc", "error_out"⟩, ⟨"calc", "data_in"⟩⟩]

def evaluate : Script.Evaluator := fun _ input _ =>
  .ended (if input.isNull then .error (.failure "no input") else .ok (.int 7))

def environment : Environment := ⟨graph, Builtin.repertoire evaluate, .standard⟩

/-- The trigger is called twice, and each time the pulse runs to its end. -/
def moves : List Move := [.start environment, .cue (.call 0 0 .null), .cue .step, .cue .step, .cue .step, .cue .step,
  .cue (.call 0 0 .null), .cue .step, .cue .step, .cue .step, .cue .step]

end Wary

end ActionGraph
