import ActionGraph.Behavior.Builtin
import ActionGraph.Proofs.Action.Perform

/-!
What the built-in behaviors have in common. None of them publishes anything by itself, and an
effect has one output at most. Those that compute values on demand only ever ask for a mount, and
pulses do not run them.
-/

namespace ActionGraph

theorem Repertoire.trigger?_eq_some {r : Repertoire} {n : Node} {b : Behavior} {t : Trigger}
    (triggers : r.trigger? n = some (b, t)) : r.find? n.type = some b ∧ b.trigger = some t := by
  unfold trigger? at triggers
  split at triggers
  · rename_i known
    obtain ⟨_, trigger, same⟩ := Option.map_eq_some_iff.mp triggers
    cases same
    exact ⟨known, trigger⟩
  · cases triggers

/-- Publishes nothing at all. -/
def Request.Unpublished (r : Request) : Prop := ∀ port, r.Spares port

def Request.Mounts : Request → Prop
  | .mount _ => True
  | _ => False

theorem Request.Mounts.prompt {r : Request} (h : r.Mounts) : r.Prompt := by
  cases r with
  | mount id => exact trivial
  | _ => exact h.elim

/-- An effect that leaves publishing to its run and has one output at most. -/
def Action.Modest (a : Action Ports) : Prop :=
  a.Throughout (fun r _ => r.Unpublished) fun r => ∀ outputs, r = .ok outputs → outputs.length ≤ 1

namespace Action

theorem modest_none : Modest (.done []) := by
  intro outputs h
  cases h
  exact Nat.zero_le 1

theorem modest_one (port : String) (v : Value) : Modest (.done [(port, v)]) := by
  intro outputs h
  cases h
  exact Nat.le_refl 1

theorem Modest.after {α : Type} {a : Action α} {f : α → Action Ports} (first : a.Asks Request.Unpublished)
    (rest : ∀ x, (f x).Modest) : (a.andThen f).Modest :=
  Throughout.andThen first (fun _ _ h => h) (fun x _ => rest x) fun _ _ _ h => nomatch h

theorem Modest.log {f : Unit → Action Ports} (message : String) (data : Value) (rest : ∀ x, (f x).Modest) :
    ((Action.log message data).andThen f).Modest :=
  .after ⟨fun _ => trivial, fun _ => trivial⟩ rest

end Action

namespace Builtin

open ActionGraph.Action

variable (settings : Settings) (node : Node) (inputs : Ports)

def appear (root : Value) (point : Point) : Action Ports := do
  let x ← Action.ofExcept (point.x.add (numberSetting node "offsetX" (.int 0)))
  let y ← Action.ofExcept (point.y.add (numberSetting node "offsetY" (.int 0)))
  let emoji := inputs.value "data_in_emoji"
  let size := inputs.value "data_in_size"
  let element ← Action.create "emoji"
    [("text", emoji), ("x", x.toValue), ("y", y.toValue), ("size", size), ("parent", root)]
  Action.log "Spawned emoji" (.record [("emoji", emoji), ("x", x.toValue), ("y", y.toValue), ("size", size)])
  return [("data_out_el", element)]

theorem spawnEmoji_effect : spawnEmoji.effect settings node inputs =
    (if (inputs.value "tool_in").isNull then Action.mount settings.mountId
      else .done (inputs.value "tool_in")).andThen fun root =>
    (if (inputs.value "data_in_event").isNull then lastEventValue
      else .done (inputs.value "data_in_event")).andThen fun event =>
    appear node inputs root (spawnPoint settings event) := by
  dsimp only [spawnEmoji]
  split <;> split <;> rfl

theorem modest_appear (root : Value) (point : Point) : (appear node inputs root point).Modest := by
  refine .after (asks_ofExcept _) fun x => .after (asks_ofExcept _) fun y => ?_
  refine .after ⟨fun _ => trivial, fun r => asks_ofExcept r⟩ fun element => ?_
  exact .log _ _ fun _ => modest_one _ _

theorem modest_spawnEmoji : (spawnEmoji.effect settings node inputs).Modest := by
  rw [spawnEmoji_effect]
  refine .after ?_ fun root => .after ?_ fun event => modest_appear node inputs root _
  · split
    · exact ⟨fun _ => trivial, fun r => asks_ofExcept r⟩
    · exact trivial
  · split
    · exact ⟨fun _ => trivial, fun _ => trivial⟩
    · exact trivial

theorem modest_animateFly : (animateFly.effect settings node inputs).Modest := by
  dsimp only [animateFly]
  split
  · exact .log _ _ fun _ => modest_none
  · refine .after (asks_ofExcept _) fun frames => .after ⟨fun _ => trivial, fun _ => trivial⟩ fun flown => ?_
    cases flown with
    | ok _ => exact .log _ _ fun _ => modest_one _ _
    | error f => exact .log _ _ fun _ => .log _ _ fun _ => modest_one _ _

theorem modest_removeElement : (removeElement.effect settings node inputs).Modest := by
  dsimp only [removeElement]
  split
  · exact .log _ _ fun _ => modest_none
  · exact .after ⟨fun _ => trivial, fun r => asks_ofExcept r⟩ fun _ => .log _ _ fun _ => modest_none

theorem modest_debugLog : (debugLog.effect settings node inputs).Modest :=
  .log _ _ fun _ => modest_none

theorem asks_script {α : Type} (run : Script.Run α) : run.toAction.Asks Request.Unpublished := by
  induction run with
  | ended r => exact trivial
  | log message data next ih => exact ⟨fun _ => trivial, fun _ => ih⟩
  | now next ih => exact ⟨fun _ => trivial, ih⟩

theorem modest_evaluateScript (evaluate : Script.Evaluator) :
    ((evaluateScript evaluate).effect settings node inputs).Modest := by
  refine .after ⟨fun _ => trivial, fun _ => trivial⟩ fun last => .after (asks_script _) fun outcome => ?_
  cases outcome with
  | ok v => exact .log _ _ fun _ => modest_one _ _
  | error f => exact .log _ _ fun _ => modest_one _ _

variable {evaluate : Script.Evaluator} {type : String} {b : Behavior}

/-- A built-in type with its behavior. -/
inductive Listed (evaluate : Script.Evaluator) (type : String) : Behavior → Prop
  | constString : type = "data.constString" → Listed evaluate type constString
  | constNumber : type = "data.constNumber" → Listed evaluate type constNumber
  | uiRoot : type = "tool.uiRoot" → Listed evaluate type uiRoot
  | uiHover : type = "event.uiHover" → Listed evaluate type uiHover
  | spawnEmoji : type = "ui.spawnEmoji" → Listed evaluate type spawnEmoji
  | animateFly : type = "ui.animateFly" → Listed evaluate type animateFly
  | removeElement : type = "ui.removeElement" → Listed evaluate type removeElement
  | debugLog : type = "debug.log" → Listed evaluate type debugLog
  | script : type = "logic.eval" → Listed evaluate type (evaluateScript evaluate)

/-- The built-in types are the ones listed. Whatever is said of all of them is said by cases on these. -/
theorem listed_of_find? (known : (repertoire evaluate).find? type = some b) : Listed evaluate type b := by
  have listed := Keyed.mem_of_get? known
  simp only [repertoire, List.mem_cons, Prod.mk.injEq, List.not_mem_nil, or_false] at listed
  rcases listed with ⟨type, rfl⟩ | ⟨type, rfl⟩ | ⟨type, rfl⟩ | ⟨type, rfl⟩ | ⟨type, rfl⟩ | ⟨type, rfl⟩ |
    ⟨type, rfl⟩ | ⟨type, rfl⟩ | ⟨type, rfl⟩
  · exact .constString type
  · exact .constNumber type
  · exact .uiRoot type
  · exact .uiHover type
  · exact .spawnEmoji type
  · exact .animateFly type
  · exact .removeElement type
  · exact .debugLog type
  · exact .script type

theorem modest_effect (known : (repertoire evaluate).find? type = some b) :
    (b.effect settings node inputs).Modest := by
  cases listed_of_find? known with
  | spawnEmoji => exact modest_spawnEmoji settings node inputs
  | animateFly => exact modest_animateFly settings node inputs
  | removeElement => exact modest_removeElement settings node inputs
  | debugLog => exact modest_debugLog settings node inputs
  | script => exact modest_evaluateScript settings node inputs evaluate
  | _ => exact modest_none

theorem trigger_hover (known : (repertoire evaluate).find? type = some b) {t : Trigger} (triggers : b.trigger = some t) :
    type = "event.uiHover" ∧ b = uiHover := by
  cases listed_of_find? known with
  | uiHover type => exact ⟨type, rfl⟩
  | _ => cases triggers

theorem passive_supply (known : (repertoire evaluate).find? type = some b) (passive : b.producer = .passive)
    (port : String) : (b.supply settings node port).Asks Request.Mounts ∧ b.executable = .ok false := by
  cases listed_of_find? known with
  | constString => exact ⟨trivial, rfl⟩
  | constNumber => exact ⟨trivial, rfl⟩
  | uiRoot =>
    refine ⟨?_, rfl⟩
    dsimp only [uiRoot]
    split
    · exact ⟨trivial, fun r => asks_ofExcept r⟩
    · exact trivial
  | _ => cases passive

end Builtin

end ActionGraph
