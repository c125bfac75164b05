import ActionGraph.Behavior.Builtin
import ActionGraph.Proofs.Behavior.Inputs
import ActionGraph.Proofs.Pulse.Lookup

/-!
What a node is given to work with. Its inputs are read one after the other, each where the one before
it has led. That ends with one value for each of their ports, or with an integer too long for a text.
-/

namespace ActionGraph

namespace Environment

/-- Begun in the scene `s` with some ports, reading these inputs ends in a scene and with an outcome:
one input after the other is looked up, and what it takes is coerced. -/
inductive Consumes (env : Environment) (node : Node) : List Input → Ports → Scene → Scene × Except Fault Ports → Prop
  | complete {ports : Ports} {s : Scene} : Consumes env node [] ports s (s, .ok ports)
  | refused {spec : Input} {specs : List Input} {ports : Ports} {s s₁ : Scene} {w v : Value} {f : Fault} :
      env.LooksUp ⟨node.id, spec.port⟩ s (s₁, w) → spec.Takes node w v → spec.coerced v = .error f →
      Consumes env node (spec :: specs) ports s (s₁, .error f)
  | taken {spec : Input} {specs : List Input} {ports : Ports} {s s₁ : Scene} {w v u : Value}
      {x : Scene × Except Fault Ports} :
      env.LooksUp ⟨node.id, spec.port⟩ s (s₁, w) → spec.Takes node w v → spec.coerced v = .ok u →
      Consumes env node specs (Keyed.put spec.port u ports) s₁ x → Consumes env node (spec :: specs) ports s x

variable {env : Environment} {node : Node} {spec : Input} {specs more : List Input} {ports : Ports} {s s' : Scene}
  {x : Scene × Except Fault Ports}

theorem Consumes.split {o : Except Fault Ports} (consumes : env.Consumes node (specs ++ more) ports s (s', o)) :
    (∃ f, o = .error f ∧ env.Consumes node specs ports s (s', .error f)) ∨
      ∃ s₁ given, env.Consumes node specs ports s (s₁, .ok given) ∧ env.Consumes node more given s₁ (s', o) := by
  induction specs generalizing ports s with
  | nil => exact .inr ⟨s, ports, .complete, consumes⟩
  | cons spec specs ih =>
    cases consumes with
    | refused found takes coerces => exact .inl ⟨_, rfl, .refused found takes coerces⟩
    | taken found takes coerces rest =>
      rcases ih rest with ⟨f, rfl, fails⟩ | ⟨s₁, given, first, rest⟩
      · exact .inl ⟨f, rfl, .taken found takes coerces fails⟩
      · exact .inr ⟨s₁, given, .taken found takes coerces first, rest⟩

theorem Consumes.keeps {given : Ports} (consumes : env.Consumes node specs ports s (s', .ok given)) {port : String}
    (other : port ∉ specs.map (·.port)) : given.value port = ports.value port := by
  induction specs generalizing ports s with
  | nil =>
    cases consumes
    rfl
  | cons spec specs ih =>
    rw [List.map_cons, List.mem_cons, not_or] at other
    cases consumes with
    | taken _ _ _ rest =>
      rw [ih rest other.2]
      simp [Ports.value, Ne.symm other.1]

theorem Consumes.keys {given : Ports} (consumes : env.Consumes node specs ports s (s', .ok given))
    (once : (ports.map Prod.fst).Nodup) : (given.map Prod.fst).Nodup ∧
      ∀ port, port ∈ given.map Prod.fst ↔ port ∈ ports.map Prod.fst ∨ port ∈ specs.map (·.port) := by
  induction specs generalizing ports s with
  | nil =>
    cases consumes
    exact ⟨once, fun port => by simp⟩
  | cons spec specs ih =>
    cases consumes with
    | taken _ _ _ rest =>
      obtain ⟨nodup, listed⟩ := ih rest (Keyed.nodup_put once _ _)
      refine ⟨nodup, fun port => ?_⟩
      rw [listed, Keyed.keys_put, List.map_cons, List.mem_cons]
      split
      · rename_i old
        constructor
        · exact Or.imp_right .inr
        · rintro (there | rfl | later)
          · exact .inl there
          · exact .inl old
          · exact .inr later
      · rw [List.mem_append, List.mem_singleton, or_assoc]

theorem Consumes.present {given : Ports} (consumes : env.Consumes node specs ports s (s', .ok given))
    (defaults : ∀ spec ∈ specs, spec.default.isAbsent = false) (there : ∀ p ∈ ports, p.2.isAbsent = false) :
    ∀ p ∈ given, p.2.isAbsent = false := by
  induction specs generalizing ports s with
  | nil =>
    cases consumes
    exact there
  | cons spec specs ih =>
    rw [List.forall_mem_cons] at defaults
    cases consumes with
    | taken _ takes coerces rest =>
      refine ih rest defaults.2 fun p listed => ?_
      rcases Keyed.mem_put listed with rfl | old
      · rcases Input.coerced_cases defaults.1 (takes.present defaults.1) with ⟨u, same, present⟩ | ⟨long, _⟩
        · cases coerces.symm.trans same
          exact present
        · cases coerces.symm.trans long
      · exact there p old

/-- What a node is given: one value for each port of its inputs, none of them missing. Where two inputs
have the same port the later one counts. Each was looked up where the inputs before it had led, and is
the first choice for it, coerced. -/
structure Consumed (env : Environment) (node : Node) (specs : List Input) (s : Scene) (given : Ports) : Prop where
  once : (given.map Prod.fst).Nodup
  declared : ∀ port, port ∈ given.map Prod.fst ↔ port ∈ specs.map (·.port)
  present : ∀ p ∈ given, p.2.isAbsent = false
  first : ∀ (earlier : List Input) (spec : Input) (later : List Input), specs = earlier ++ spec :: later →
    spec.port ∉ later.map (·.port) → ∃ s₁ s₂ read w v, env.Consumes node earlier [] s (s₁, .ok read) ∧
      env.LooksUp ⟨node.id, spec.port⟩ s₁ (s₂, w) ∧ spec.Takes node w v ∧
      spec.coerced v = .ok (given.value spec.port)

/-- Reading the inputs ends where one of them, which is to be a text, takes an integer too long to be
spelled, or something that contains one. -/
def Unspeakable (env : Environment) (node : Node) (specs : List Input) (ports : Ports) (s s' : Scene) : Prop :=
  ∃ (earlier : List Input) (spec : Input) (later : List Input) (s₁ : Scene) (read : Ports) (w v : Value),
    specs = earlier ++ spec :: later ∧ env.Consumes node earlier ports s (s₁, .ok read) ∧
      env.LooksUp ⟨node.id, spec.port⟩ s₁ (s', w) ∧ spec.Takes node w v ∧ spec.coercion = some .text ∧
      v.spellable = false

theorem Consumes.consumed {given : Ports} (consumes : env.Consumes node specs [] s (s', .ok given))
    (defaults : ∀ spec ∈ specs, spec.default.isAbsent = false) : env.Consumed node specs s given := by
  obtain ⟨once, declared⟩ := consumes.keys List.nodup_nil
  refine ⟨once, fun port => (declared port).trans (by simp), consumes.present defaults nofun, ?_⟩
  rintro earlier spec later rfl last
  rcases consumes.split with ⟨f, fails, _⟩ | ⟨s₁, read, before, rest⟩
  · cases fails
  · cases rest with
    | @taken _ _ _ _ s₂ w v u _ found takes coerces more =>
      refine ⟨s₁, s₂, read, w, v, before, found, takes, ?_⟩
      rw [coerces, more.keeps last]
      simp [Ports.value]

theorem Consumes.unspeakable {f : Fault} (consumes : env.Consumes node specs ports s (s', .error f))
    (defaults : ∀ spec ∈ specs, spec.default.isAbsent = false) :
    f = .integerTooLong ∧ env.Unspeakable node specs ports s s' := by
  induction specs generalizing ports s with
  | nil => cases consumes
  | cons spec specs ih =>
    rw [List.forall_mem_cons] at defaults
    cases consumes with
    | @refused _ _ _ _ _ w v _ found takes coerces =>
      rcases Input.coerced_cases defaults.1 (takes.present defaults.1) with ⟨u, same, _⟩ | ⟨same, text, long⟩
      · cases coerces.symm.trans same
      · cases coerces.symm.trans same
        exact ⟨rfl, [], spec, specs, s, ports, w, v, rfl, .complete, found, takes, text, long⟩
    | taken found takes coerces rest =>
      obtain ⟨rfl, earlier, other, later, s₁, read, w, v, rfl, before, fails⟩ := ih rest defaults.2
      exact ⟨rfl, spec :: earlier, other, later, s₁, read, w, v, rfl, .taken found takes coerces before, fails⟩

end Environment

namespace Builtin

/-- The effect of an animation on an element, given numbers. -/
def flight (node : Node) (element : Value) (toX toY duration scale : Number) : Action Ports := do
  if element.isNull then
    Action.log "AnimateFly: missing element input" (.record [("node", .text node.id)])
    return []
  else
    let frames ← Action.ofExcept (keyframes (numberSetting node "startScale" (.int 1)) toX toY scale)
    match ← Action.animate element frames duration.toValue with
    | .ok _ => pure ()
    | .error f =>
      Action.log "Animation did not finish" (.record [("node", .text node.id), ("error", .text f.line)])
    Action.log "Animated emoji"
      (.record [("toX", toX.toValue), ("toY", toY.toValue), ("durationMs", duration.toValue)])
    return [("data_out_el", element)]

/-- The scale that an element is animated to: what its input has, or a setting. -/
def scaleTo (node : Node) (wired : Option Number) : Number :=
  wired.getD (numberSetting node "endScale" (.float 1.6))

@[simp] theorem toNumber_toValue (operator : String) (n : Number) : n.toValue.toNumber operator = .ok n := by
  cases n <;> rfl

theorem animateFly_flight {node : Node} {inputs : Ports} {toX toY duration : Number} {wired : Option Number}
    (x : inputs.value "data_in_toX" = toX.toValue) (y : inputs.value "data_in_toY" = toY.toValue)
    (ms : inputs.value "data_in_ms" = duration.toValue)
    (scale : inputs.value "data_in_scaleTo" = wired.elim .null Number.toValue) (settings : Settings) :
    animateFly.effect settings node inputs =
      flight node (inputs.value "data_in_el") toX toY duration (scaleTo node wired) := by
  dsimp only [animateFly, flight]
  have chosen : (if (inputs.value "data_in_scaleTo").isNull = true then
      (numberSetting node "endScale" (.float 1.6)).toValue else inputs.value "data_in_scaleTo") =
        (scaleTo node wired).toValue := by
    rw [scale]
    cases wired with
    | none => rfl
    | some n => cases n <;> rfl
  rw [x, y, ms, chosen]
  simp only [toNumber_toValue]
  rfl

end Builtin

namespace Environment

open Builtin

variable {env : Environment} {node : Node} {specs : List Input} {ports given : Ports} {s s' : Scene}

theorem Consumed.spawn (consumed : env.Consumed node spawnEmoji.inputs s given) :
    ∃ emoji size, given.value "data_in_emoji" = .text emoji ∧ given.value "data_in_size" = Number.toValue size := by
  obtain ⟨_, _, _, _, _, _, _, takes, coerces⟩ := consumed.first [_] _ [_, _] rfl (by decide)
  obtain ⟨emoji, text⟩ := takes.text rfl rfl coerces
  obtain ⟨_, _, _, _, _, _, _, takes, coerces⟩ := consumed.first [_, _] _ [_] rfl (by decide)
  obtain ⟨size, number⟩ := takes.number (n := .int 120) rfl rfl coerces
  exact ⟨emoji, size, text, number⟩

theorem Consumed.fly (consumed : env.Consumed node animateFly.inputs s given) :
    ∃ toX toY duration wired, given.value "data_in_toX" = Number.toValue toX ∧
      given.value "data_in_toY" = Number.toValue toY ∧ given.value "data_in_ms" = Number.toValue duration ∧
      given.value "data_in_scaleTo" = wired.elim .null Number.toValue ∧ ∀ settings, animateFly.effect settings node given =
        flight node (given.value "data_in_el") toX toY duration (scaleTo node wired) := by
  obtain ⟨_, _, _, _, _, _, _, takes, coerces⟩ := consumed.first [_] _ [_, _, _] rfl (by decide)
  obtain ⟨toX, x⟩ := takes.number (n := .int 900) rfl rfl coerces
  obtain ⟨_, _, _, _, _, _, _, takes, coerces⟩ := consumed.first [_, _] _ [_, _] rfl (by decide)
  obtain ⟨toY, y⟩ := takes.number (n := .int (-200)) rfl rfl coerces
  obtain ⟨_, _, _, _, _, _, _, takes, coerces⟩ := consumed.first [_, _, _] _ [_] rfl (by decide)
  obtain ⟨duration, ms⟩ := takes.number (n := .int 900) rfl rfl coerces
  obtain ⟨_, _, _, _, _, _, _, _, coerces⟩ := consumed.first [_, _, _, _] _ [] rfl (by decide)
  obtain ⟨wired, scale⟩ := Input.number_of_coerced rfl rfl coerces
  exact ⟨toX, toY, duration, wired, x, y, ms, scale, animateFly_flight x y ms scale⟩

theorem Unspeakable.text (unspeakable : env.Unspeakable node specs ports s s') :
    ∃ spec ∈ specs, spec.coercion = some .text := by
  obtain ⟨earlier, spec, later, _, _, _, _, rfl, _, _, _, text, _⟩ := unspeakable
  exact ⟨spec, by simp, text⟩

end Environment

-- A node that spawns what another one has published.
namespace Overlong

def node : Node := ⟨"spawn", "ui.spawnEmoji", none, none, [], []⟩

def environment : Environment where
  graph := ⟨Graph.currentSchema, none, none, [node], [⟨"1", .data, ⟨"twice", "data_out"⟩, ⟨"spawn", "data_in_emoji"⟩⟩]⟩
  repertoire := Builtin.standard
  settings := .standard

/-- An integer of so many digits that it cannot be spelled. -/
def endless : Int := .ofNat (Nat.pow 10 4300)

/-- Nothing but that is published. -/
def scene : Scene where
  memory := ⟨Cache.empty.publish ⟨"twice", "data_out"⟩ (.int endless), none⟩
  outside := ⟨.empty (.int 1), .plain, [], .steady (.int 0), .collecting, 0, 0, #[]⟩

end Overlong

end ActionGraph
