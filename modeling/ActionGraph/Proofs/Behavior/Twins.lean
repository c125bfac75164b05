import ActionGraph.Proofs.Action.Twins
import ActionGraph.Proofs.Behavior.Builtin

/-!
What the built-in effects do does not depend on how elements are named. Given inputs that are the same
but for that, and the same event, all of them but scripts make the same requests.
-/

namespace ActionGraph.Builtin

open ActionGraph.Action
open Value (Linked Renamed Entries)

variable {ρ : ElementRef → ElementRef → Prop} {flight : Value → Except Fault Unit} {settings : Settings} {node : Node}
  {inputs inputs' : Ports}

/-- Every input has a value that is the same but for the names of elements. -/
def Agree (ρ : ElementRef → ElementRef → Prop) (specs : List Input) (inputs inputs' : Ports) : Prop :=
  ∀ spec ∈ specs, spec.Alike ρ (inputs.value spec.port) (inputs'.value spec.port)

/-- The same outputs, up to the renaming of elements. -/
abbrev Outputs (ρ : ElementRef → ElementRef → Prop) : Ports → Ports → Prop :=
  List.Forall₂ fun a b => a.1 = b.1 ∧ a.2.Linked ρ b.2

theorem outcomes_same {α : Type} (o : Except Fault α) : Outcomes Eq o o := by
  cases o with
  | ok x => exact .ok rfl
  | error e => exact .error e

theorem twins_debugLog (agree : Agree ρ debugLog.inputs inputs inputs') :
    Twins ρ flight (Outputs ρ) (debugLog.effect settings node inputs) (debugLog.effect settings node inputs') := by
  have value : Linked ρ (inputs.value "data_in") (inputs'.value "data_in") := agree (.wired "data_in") List.mem_cons_self
  exact .log (.record (.cons ⟨rfl, value.renamed⟩ .nil)) (.done .nil)

theorem twins_removeElement (agree : Agree ρ removeElement.inputs inputs inputs') :
    Twins ρ flight (Outputs ρ) (removeElement.effect settings node inputs)
      (removeElement.effect settings node inputs') := by
  have element : Linked ρ (inputs.value "data_in_el") (inputs'.value "data_in_el") :=
    agree (.wired "data_in_el") List.mem_cons_self
  dsimp only [removeElement]
  rw [element.isNull]
  split
  · exact .log (.record (.cons ⟨rfl, .text _⟩ .nil)) (.done .nil)
  · refine Twins.andThen (R := Eq) (.destroy element ?_) fun _ _ _ => .log (.atom rfl) (.done .nil)
    rw [element.removal]
    exact .ofExcept (outcomes_same _)

theorem twins_animateFly (agree : Agree ρ animateFly.inputs inputs inputs') :
    Twins ρ flight (Outputs ρ) (animateFly.effect settings node inputs) (animateFly.effect settings node inputs') := by
  have element : Linked ρ (inputs.value "data_in_el") (inputs'.value "data_in_el") :=
    agree (.wired "data_in_el") List.mem_cons_self
  have toX : inputs'.value "data_in_toX" = inputs.value "data_in_toX" ∧ _ := agree _ (.tail _ (.head _))
  have toY : inputs'.value "data_in_toY" = inputs.value "data_in_toY" ∧ _ := agree _ (.tail _ (.tail _ (.head _)))
  have duration : inputs'.value "data_in_ms" = inputs.value "data_in_ms" ∧ _ :=
    agree _ (.tail _ (.tail _ (.tail _ (.head _))))
  have scale : inputs'.value "data_in_scaleTo" = inputs.value "data_in_scaleTo" ∧ _ :=
    agree _ (.tail _ (.tail _ (.tail _ (.tail _ (.head _)))))
  dsimp only [animateFly]
  rw [element.isNull, toX.1, toY.1, duration.1, scale.1]
  split
  · exact .log (.record (.cons ⟨rfl, .text _⟩ .nil)) (.done .nil)
  · have last : Twins ρ flight (Outputs ρ)
        ((Action.log "Animated emoji" (.record [("toX", inputs.value "data_in_toX"),
          ("toY", inputs.value "data_in_toY"), ("durationMs", inputs.value "data_in_ms")])).andThen
            fun _ => .done [("data_out_el", inputs.value "data_in_el")])
        ((Action.log "Animated emoji" (.record [("toX", inputs.value "data_in_toX"),
          ("toY", inputs.value "data_in_toY"), ("durationMs", inputs.value "data_in_ms")])).andThen
            fun _ => .done [("data_out_el", inputs'.value "data_in_el")]) := by
      refine .log (.record (.cons ⟨rfl, .atom toX.2⟩ (.cons ⟨rfl, .atom toY.2⟩ (.cons ⟨rfl, .atom duration.2⟩ .nil)))) ?_
      exact .done (.cons ⟨rfl, element⟩ .nil)
    refine Twins.andThen (R := Eq) (.ofExcept (outcomes_same _)) fun frames _ same => ?_
    subst same
    refine .animate element ?_
    cases flight (inputs.value "data_in_ms") with
    | ok _ => exact last
    | error f => exact .log (.record (.cons ⟨rfl, .text _⟩ (.cons ⟨rfl, .text _⟩ .nil))) last

theorem twins_appear (agree : Agree ρ spawnEmoji.inputs inputs inputs') {root root' : Value} (roots : Linked ρ root root')
    (point : Point) :
    Twins ρ flight (Outputs ρ) (appear node inputs root point) (appear node inputs' root' point) := by
  have emoji : Renamed ρ (inputs.value "data_in_emoji") (inputs'.value "data_in_emoji") := agree _ (.tail _ (.head _))
  have size : inputs'.value "data_in_size" = inputs.value "data_in_size" ∧ _ := agree _ (.tail _ (.tail _ (.head _)))
  unfold appear
  dsimp only
  rw [size.1]
  refine Twins.andThen (R := Eq) (.ofExcept (outcomes_same _)) fun x _ same => ?_
  subst same
  refine Twins.andThen (R := Eq) (.ofExcept (outcomes_same _)) fun y _ same => ?_
  subst same
  have shape : ∀ rest rest', Entries ρ rest rest' →
      Entries ρ (("x", x.toValue) :: ("y", y.toValue) :: ("size", inputs.value "data_in_size") :: rest)
        (("x", x.toValue) :: ("y", y.toValue) :: ("size", inputs.value "data_in_size") :: rest') :=
    fun _ _ more => .cons ⟨rfl, .number x⟩ (.cons ⟨rfl, .number y⟩ (.cons ⟨rfl, .atom size.2⟩ more))
  refine .create (.cons ⟨rfl, emoji⟩ (shape _ _ (.cons ⟨rfl, roots.renamed⟩ .nil))) fun e f pair => ?_
  exact .log (.record (.cons ⟨rfl, emoji⟩ (shape [] [] .nil))) (.done (.cons ⟨rfl, .element pair⟩ .nil))

theorem twins_spawnEmoji (mount : ∀ id, ρ (.mount id) (.mount id)) (agree : Agree ρ spawnEmoji.inputs inputs inputs')
    {e : Snapshot} (located : inputs.value "data_in_event" = .event e) (located' : inputs'.value "data_in_event" = .event e) :
    Twins ρ flight (Outputs ρ) (spawnEmoji.effect settings node inputs) (spawnEmoji.effect settings node inputs') := by
  have tool : Linked ρ (inputs.value "tool_in") (inputs'.value "tool_in") := agree (.wired "tool_in") List.mem_cons_self
  rw [spawnEmoji_effect, spawnEmoji_effect, located, located', tool.isNull]
  refine Twins.andThen (R := Linked ρ) ?_ fun root root' roots => twins_appear agree roots _
  split
  · exact .mount (.done (.element (mount settings.mountId)))
  · exact .done tool

/-- All built-in effects but those of scripts, if what spawns knows where. -/
theorem twins_effect {evaluate : Script.Evaluator} {b : Behavior} (known : (repertoire evaluate).find? node.type = some b)
    (scriptless : node.type ≠ "logic.eval") (mount : ∀ id, ρ (.mount id) (.mount id))
    (agree : Agree ρ b.inputs inputs inputs') {e : Snapshot}
    (located : node.type = "ui.spawnEmoji" → inputs.value "data_in_event" = .event e ∧ inputs'.value "data_in_event" = .event e) :
    Twins ρ flight (Outputs ρ) (b.effect settings node inputs) (b.effect settings node inputs') := by
  cases listed_of_find? known with
  | spawnEmoji type => exact twins_spawnEmoji mount agree (located type).1 (located type).2
  | animateFly => exact twins_animateFly agree
  | removeElement => exact twins_removeElement agree
  | debugLog => exact twins_debugLog agree
  | script type => exact absurd type scriptless
  | _ => exact .done .nil

/-- Every input of the built-in types is read as it is wired, or has something plain to fall back to. -/
theorem simple_inputs {evaluate : Script.Evaluator} {type : String} {b : Behavior}
    (known : (repertoire evaluate).find? type = some b) :
    (∀ spec ∈ b.inputs, spec.Simple) ∧ (b.inputs.map (·.port)).Nodup := by
  have single : ∀ port, (∀ spec ∈ [Input.wired port], spec.Simple) ∧ ([Input.wired port].map (·.port)).Nodup := by
    refine fun port => ⟨fun spec listed => ?_, List.nodup_singleton _⟩
    cases List.mem_singleton.mp listed
    exact .wired _
  cases listed_of_find? known with
  | spawnEmoji =>
    refine ⟨fun spec listed => ?_, by decide⟩
    simp only [spawnEmoji, List.mem_cons, List.not_mem_nil, or_false] at listed
    rcases listed with rfl | rfl | rfl | rfl
    · exact .wired _
    · exact .coerced rfl rfl
    · exact .coerced rfl rfl
    · exact .wired _
  | animateFly =>
    refine ⟨fun spec listed => ?_, by decide⟩
    simp only [animateFly, List.mem_cons, List.not_mem_nil, or_false] at listed
    rcases listed with rfl | rfl | rfl | rfl | rfl
    · exact .wired _
    all_goals exact .coerced rfl rfl
  | removeElement => exact single "data_in_el"
  | debugLog => exact single "data_in"
  | script => exact single "data_in"
  | _ => exact ⟨fun _ none => absurd none List.not_mem_nil, .nil⟩

end ActionGraph.Builtin
