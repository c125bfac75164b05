import ActionGraph.Proofs.Action.Caution
import ActionGraph.Proofs.Pulse.Consumption
import ActionGraph.Proofs.Pulse.Failure
import ActionGraph.Proofs.Pulse.Publication

/-!
A node that fails has done nothing. The effects of the built-in types compute all that can fail before
they touch an element, so where one has failed there is no more to see of it than what looking for its
inputs has left: mounts, and published values that were computed on demand.
-/

namespace ActionGraph

namespace Builtin

open ActionGraph.Action

variable (settings : Settings) (node : Node) (inputs : Ports)

/-- The mount that a node for tools stands for. -/
def tools (settings : Settings) (node : Node) : String := Value.textOr (node.setting? "mountId") settings.mountId

variable {evaluate : Script.Evaluator} {b : Behavior}

/-- To compute a value on demand takes no more than the mount that a node for tools stands for. -/
theorem harmless_supply (known : (repertoire evaluate).find? node.type = some b) (passive : b.producer = .passive)
    (port : String) : (b.supply settings node port).Asks
      (Request.Harmless fun id => node.type = "tool.uiRoot" ∧ id = tools settings node) := by
  cases listed_of_find? known with
  | constString => exact trivial
  | constNumber => exact trivial
  | uiRoot type =>
    dsimp only [uiRoot]
    split
    · exact ⟨⟨type, rfl⟩, fun made => asks_ofExcept made⟩
    · exact trivial
  | _ => cases passive

end Builtin

/-- From the first memory to the second, such ports as had no value have been given one, one after the
other, and nothing else has changed. -/
inductive Memory.Filled (P : Endpoint → Prop) (m : Memory) : Memory → Prop
  | none : Filled P m m
  | more {m' : Memory} {port : Endpoint} {v : Value} : Filled P m m' → P port →
      (m'.cache.value port).isAbsent = true → v.isAbsent = false →
      Filled P m { m' with cache := m'.cache.publish port v }

namespace Memory.Filled

variable {P : Endpoint → Prop} {m₁ m₂ m₃ : Memory}

theorem trans (h : Filled P m₁ m₂) (k : Filled P m₂ m₃) : Filled P m₁ m₃ := by
  induction k with
  | none => exact h
  | more _ such missing present ih => exact .more ih such missing present

theorem entry (h : Filled P m₁ m₂) (port : Endpoint) :
    Keyed.get? port m₂.cache.entries = Keyed.get? port m₁.cache.entries ∨
      P port ∧ (m₁.cache.value port).isAbsent = true := by
  induction h with
  | none => exact .inl rfl
  | @more m' other v _ such missing _ ih =>
    by_cases own : other = port
    · subst own
      rcases ih with same | filled
      · exact .inr ⟨such, by rwa [Cache.value, ← same]⟩
      · exact .inr filled
    · have kept : Keyed.get? port (m'.cache.publish other v).entries = Keyed.get? port m'.cache.entries :=
        (Keyed.get?_put ..).trans (if_neg own)
      rwa [kept]

end Memory.Filled

namespace Environment

open Builtin

/-- One of the inputs of a node is fed from a port of a passive producer. -/
def Draws (env : Environment) (node : Node) (specs : List Input) (producer : Node) (source : Endpoint) : Prop :=
  ∃ spec ∈ specs, ∃ edge, env.graph.incoming? ⟨node.id, spec.port⟩ = some edge ∧ edge.source = source ∧
    ∃ b, env.supplier? source = some (producer, b)

/-- One of the inputs of a node is fed from a node for tools that stands for this mount. -/
def Offers (env : Environment) (node : Node) (specs : List Input) (id : String) : Prop :=
  ∃ producer source, env.Draws node specs producer source ∧ producer.type = "tool.uiRoot" ∧
    id = tools env.settings producer

/-- What looking for inputs of a node leaves: mounts that these inputs are fed from, and values of
passive producers that these inputs are fed from, on ports where there was none. -/
structure Retrieved (env : Environment) (node : Node) (specs : List Input) (s s' : Scene) : Prop where
  mounting : s.Mounting (env.Offers node specs) s'
  memory : s.memory.Filled (fun port => ∃ producer, env.Draws node specs producer port) s'.memory

variable {env : Environment} {node : Node} {specs more : List Input} {s s₁ s' : Scene}

theorem Retrieved.trans (h : env.Retrieved node specs s s₁) (k : env.Retrieved node specs s₁ s') :
    env.Retrieved node specs s s' :=
  ⟨h.mounting.trans k.mounting, h.memory.trans k.memory⟩

theorem Retrieved.of_noted (staging : s'.outside.staging = s.outside.staging)
    (host : s'.outside.host = s.outside.host) (memory : s'.memory = s.memory) : env.Retrieved node specs s s' :=
  ⟨.of_same staging host, memory ▸ .none⟩

theorem mounting_take {P : String → Prop} (s : Scene) (source : Endpoint) (o : Except Fault Value) :
    s.Mounting P (s.take source o).1 := by
  cases o with
  | error f => exact .of_same (Outside.staging_log _ _ _) (Outside.host_log _ _ _)
  | ok v =>
    unfold Scene.take
    dsimp only
    split
    · exact .refl s
    · exact .of_same rfl rfl

theorem filled_take {P : Endpoint → Prop} {m : Memory} {source : Endpoint} (such : P source)
    (missing : (m.cache.value source).isAbsent = true) (o : Except Fault Value) : m.Filled P (m.take source o) := by
  cases o with
  | error f => exact .none
  | ok v =>
    unfold Memory.take
    dsimp only
    split
    · exact .none
    · rename_i there
      exact .more .none such missing (Bool.eq_false_iff.mpr there)

section

variable (builtin : env.IsBuiltin)

include builtin

theorem LooksUp.retrieved {spec : Input} (listed : spec ∈ specs) (prompt : s.outside.staging.deferred = false)
    {x : Scene × Value} (found : env.LooksUp ⟨node.id, spec.port⟩ s x) : env.Retrieved node specs s x.1 := by
  cases found with
  | unfed => exact .of_noted rfl rfl rfl
  | stored => exact .of_noted rfl rfl rfl
  | unsupplied =>
    dsimp only [forsaken]
    split
    · exact .of_noted rfl rfl rfl
    · exact .of_noted rfl rfl rfl
  | @asked edge s₁ o consults =>
    obtain ⟨lacks, producer, b, supplier, supplied⟩ := consults
    obtain ⟨evaluate, eq⟩ := builtin
    obtain ⟨_, known, passive⟩ := supplier?_eq_some supplier
    have draws : env.Draws node specs producer edge.source := ⟨spec, listed, edge, lacks.fed, rfl, b, supplier⟩
    have harmless := harmless_supply env.settings producer (eq ▸ known) passive edge.source.port
    obtain ⟨mounting, kept⟩ := Action.finishes_harmless harmless prompt supplied
    have offered := mounting.mono fun id mount => show env.Offers node specs id from ⟨producer, edge.source, draws, mount⟩
    refine ⟨offered.trans (mounting_take s₁ _ o), ?_⟩
    rw [Scene.memory_take, kept]
    exact filled_take ⟨producer, draws⟩ lacks.unpublished o

theorem Consumes.retrieved {ports : Ports} {x : Scene × Except Fault Ports} (consumes : env.Consumes node more ports s x)
    (listed : ∀ spec ∈ more, spec ∈ specs) (prompt : s.outside.staging.deferred = false) :
    env.Retrieved node specs s x.1 := by
  induction consumes with
  | complete => exact .of_noted rfl rfl rfl
  | refused found => exact found.retrieved builtin (listed _ List.mem_cons_self) prompt
  | taken found _ _ _ ih =>
    have first := found.retrieved builtin (listed _ List.mem_cons_self) prompt
    exact first.trans (ih (fun spec there => listed spec (List.mem_cons_of_mem _ there)) (first.mounting.prompt prompt))

end

/-- What is done about the end of a node's work. -/
def concluded (node : Node) (work : Action Ports) : Action Unit :=
  (work.andThen (publishAll node)).attempt.andThen fun
    | .ok _ => .done ()
    | .error f => do
      Action.diagnose ("[ENGINE] Node " ++ node.id ++ " failed: " ++ f.line)
      Action.log ("Node " ++ node.id ++ " failed") (.record [("type", .text node.type), ("error", .text f.line)])

section

variable (builtin : env.IsBuiltin) {id : String} {b : Behavior} (arrived : env.arrive id = .runnable node b)

include builtin arrived

/-- What is executed supplies nothing, so no input draws on its ports. -/
theorem not_draws {producer : Node} {q : String} : ¬ env.Draws node specs producer ⟨node.id, q⟩ := by
  rintro ⟨_, _, _, _, _, c, supplier⟩
  obtain ⟨named, known, passive⟩ := supplier?_eq_some supplier
  obtain ⟨found, known', runs⟩ := found_of_arrive arrived
  rw [id_of_arrive arrived] at named
  cases named.symm.trans found
  cases known.symm.trans known'
  obtain ⟨evaluate, eq⟩ := builtin
  have idle := (passive_supply env.settings node (eq ▸ known) passive q).2
  cases idle.symm.trans runs

theorem entry_of_filled {m m' : Memory} (filled : m.Filled (fun port => ∃ producer, env.Draws node specs producer port) m')
    (q : String) : Keyed.get? ⟨node.id, q⟩ m'.cache.entries = Keyed.get? ⟨node.id, q⟩ m.cache.entries := by
  rcases filled.entry ⟨node.id, q⟩ with same | ⟨⟨producer, draws⟩, _⟩
  · exact same
  · exact absurd draws (not_draws builtin arrived)

variable {f : Fault}

end

end Environment

-- A text is taken for the element to remove, and an emoji is to be spawned too far away.
namespace Misplaced

open Builtin

def removal : Node := ⟨"remove", "ui.removeElement", none, none, [], []⟩

def spawning : Node := ⟨"spawn", "ui.spawnEmoji", none, none, [("offsetX", .int (.ofNat (Nat.pow 10 400)))], []⟩

def environment : Environment where
  graph := ⟨Graph.currentSchema, none, none,
    [⟨"text", "data.constString", none, none, [("value", .str "dove")], []⟩, removal, spawning],
    [⟨"1", .data, ⟨"text", "data_out"⟩, ⟨"remove", "data_in_el"⟩⟩]⟩
  repertoire := standard
  settings := .standard

def scene : Scene := ⟨.empty, ⟨.empty (.int 1), .plain, [], .steady (.int 0), .collecting, 0, 0, #[]⟩⟩

def failing {α : Type} : Progress α → Bool
  | .ended (.error _) => true
  | _ => false

end Misplaced

end ActionGraph
