import ActionGraph.Proofs.Action.Turns
import ActionGraph.Proofs.Demonstration.Environment
import ActionGraph.Proofs.Pulse.Resolution

/-!
What an input resolves to. The ways for a lookup to go are told apart by the first edge that leads to
the input, by what is published at its source, and by how a passive producer there fares. Every way
ends with a value or the mark for none, and only one of them writes.
-/

namespace ActionGraph

/-- A value was computed for a port: that is noted, and the value is published. -/
def Scene.provide (s : Scene) (source : Endpoint) (v : Value) : Scene :=
  (s.diagnose ("[RESOLVER] Resolved " ++ source.text ++ " → " ++ v.typeName)).publish source v

/-- A value could not be computed for a port: that is noted and logged. -/
def Scene.deplore (s : Scene) (source : Endpoint) (f : Fault) : Scene :=
  (s.diagnose ("[RESOLVER] ERROR producing " ++ source.text ++ ": " ++ f.message)).log
    ("Could not resolve " ++ source.text) (.record [("error", .text f.line)])

/-- What a lookup ends with when a producer has come to this outcome. A value is published, and a
failure is reported. -/
def Scene.take (s : Scene) (source : Endpoint) : Except Fault Value → Scene × Value
  | .error f => (s.deplore source f, .absent)
  | .ok v => if v.isAbsent then (s, .absent) else (s.provide source v, v)

/-- What a run remembers when a producer has come to this outcome: a value is one more write. -/
def Memory.take (m : Memory) (source : Endpoint) : Except Fault Value → Memory
  | .error _ => m
  | .ok v => if v.isAbsent then m else { m with cache := m.cache.publish source v }

theorem Scene.memory_take (s : Scene) (source : Endpoint) (o : Except Fault Value) :
    (s.take source o).1.memory = s.memory.take source o := by
  cases o with
  | error f => rfl
  | ok v =>
    unfold take Memory.take
    dsimp only
    split <;> rfl

theorem Scene.published_take {s : Scene} {source : Endpoint} {o : Except Fault Value}
    (present : (s.take source o).2.isAbsent = false) :
    (s.take source o).1.memory.cache.value source = (s.take source o).2 := by
  cases o with
  | error f => cases present
  | ok v =>
    unfold take at present ⊢
    dsimp only at present ⊢
    split
    · rename_i none
      rw [if_pos none] at present
      cases present
    · exact (Cache.value_publish _ _ _ _).trans (if_pos rfl)

namespace Environment

/-- The node that an endpoint belongs to, with its behavior, if that computes values on demand. -/
def supplier? (env : Environment) (source : Endpoint) : Option (Node × Behavior) := do
  let producer ← env.graph.node? source.node
  let b ← env.repertoire.find? producer.type
  if b.producer = .passive then some (producer, b) else none

/-- The scene in which a lookup ends that has nobody to ask. -/
def forsaken (env : Environment) (edge : Edge) (s : Scene) : Scene :=
  if (env.graph.node? edge.source.node).isNone then
    s.diagnose ("[RESOLVER] WARNING: edge " ++ edge.id ++ " starts at unknown node " ++ edge.source.node)
  else s

/-- The first edge that leads to the input is this one, and nothing is published at its source. -/
structure Lacks (env : Environment) (input : Endpoint) (s : Scene) (edge : Edge) : Prop where
  fed : env.graph.incoming? input = some edge
  unpublished : (s.memory.cache.value edge.source).isAbsent = true

/-- Nothing is published for the input yet, and the producer at the source of its edge, asked in the
scene `s`, comes to this outcome in the scene `s₁`. -/
structure Consults (env : Environment) (input : Endpoint) (s : Scene) (edge : Edge) (s₁ : Scene)
    (o : Except Fault Value) : Prop where
  lacks : env.Lacks input s edge
  asked : ∃ producer b, env.supplier? edge.source = some (producer, b) ∧
    (Thread.ready (b.supply env.settings producer edge.source.port)).Finishes s s₁ o

/-- Begun in the scene `s`, the lookup of an input ends in a scene and with a value. -/
inductive LooksUp (env : Environment) (input : Endpoint) (s : Scene) : Scene × Value → Prop
  | unfed : env.graph.incoming? input = none → LooksUp env input s (s, .absent)
  | stored {edge : Edge} : env.graph.incoming? input = some edge →
      (s.memory.cache.value edge.source).isAbsent = false → LooksUp env input s (s, s.memory.cache.value edge.source)
  | unsupplied {edge : Edge} : env.Lacks input s edge → env.supplier? edge.source = none →
      LooksUp env input s (env.forsaken edge s, .absent)
  | asked {edge : Edge} {s₁ : Scene} {o : Except Fault Value} : env.Consults input s edge s₁ o →
      LooksUp env input s (s₁.take edge.source o)

variable {env : Environment} {input : Endpoint} {s s' : Scene} {v : Value} {edge : Edge}

theorem LooksUp.published {x : Scene × Value} (found : env.LooksUp input s x) (present : x.2.isAbsent = false)
    (fed : env.graph.incoming? input = some edge) : x.1.memory.cache.value edge.source = x.2 := by
  cases found with
  | unfed => cases present
  | stored own _ =>
    cases fed.symm.trans own
    rfl
  | unsupplied => cases present
  | asked consults =>
    cases fed.symm.trans consults.lacks.fed
    exact Scene.published_take present

/-- What a run remembers after a lookup. Apart from what the producer did, there is one write at most. -/
theorem LooksUp.memory {x : Scene × Value} (found : env.LooksUp input s x) :
    x.1.memory = s.memory ∨
      ∃ edge s₁ o, env.Consults input s edge s₁ o ∧ x.1.memory = s₁.memory.take edge.source o := by
  cases found with
  | unfed => exact .inl rfl
  | stored => exact .inl rfl
  | unsupplied =>
    refine .inl ?_
    dsimp only [forsaken]
    split <;> rfl
  | asked consults => exact .inr ⟨_, _, _, consults, Scene.memory_take _ _ _⟩

theorem finishes_supply {producer : Node} {b : Behavior} {source : Endpoint} (own : producer.id = source.node)
    {o : Except Fault Value} :
    (Thread.ready (env.supply producer b source.port)).Finishes s s' o ↔
      ∃ s₁ o₁, (Thread.ready (b.supply env.settings producer source.port)).Finishes s s₁ o₁ ∧
        s' = (s₁.take source o₁).1 ∧ o = .ok (s₁.take source o₁).2 := by
  obtain ⟨_, port⟩ := source
  subst own
  refine Thread.finishes_tried.trans (exists_congr fun s₁ => exists_congr fun o₁ => and_congr_right fun _ => ?_)
  cases o₁ with
  | error f => exact Thread.finishes_of_ended rfl
  | ok v =>
    unfold Scene.take
    dsimp only
    split <;> exact Thread.finishes_of_ended rfl

theorem supplier?_eq_some {source : Endpoint} {producer : Node} {b : Behavior}
    (found : env.supplier? source = some (producer, b)) : env.graph.node? source.node = some producer ∧
      env.repertoire.find? producer.type = some b ∧ b.producer = .passive := by
  simp only [supplier?, Option.bind_eq_bind, Option.bind_eq_some_iff] at found
  obtain ⟨node, named, b', known, passive⟩ := found
  split at passive
  · rename_i computes
    cases passive
    exact ⟨named, known, computes⟩
  · cases passive

theorem id_of_supplier? {source : Endpoint} {producer : Node} {b : Behavior}
    (found : env.supplier? source = some (producer, b)) : producer.id = source.node :=
  Graph.id_of_node? (supplier?_eq_some found).1

theorem finishes_lacking (lacks : env.Lacks input s edge) {o : Except Fault Value} :
    (Thread.ready (env.resolve input)).Finishes s s' o ↔
      match env.supplier? edge.source with
      | none => s' = env.forsaken edge s ∧ o = .ok .absent
      | some (producer, b) => (Thread.ready (env.supply producer b edge.source.port)).Finishes s s' o := by
  obtain ⟨missing, search, eq⟩ := resolve_eq_andThen lacks.fed
  rw [eq]
  refine (Thread.finishes_cached edge.source).trans ?_
  rw [if_pos lacks.unpublished]
  cases search with
  | astray unknown =>
    have none : env.supplier? edge.source = none := by simp [supplier?, unknown]
    simp only [none, forsaken, unknown]
    exact Thread.finishes_of_ended rfl
  | vain found stored =>
    have none : env.supplier? edge.source = none := by
      refine Option.eq_none_iff_forall_ne_some.mpr fun x other => ?_
      obtain ⟨found', known, passive⟩ := supplier?_eq_some other
      cases found.symm.trans found'
      exact stored _ known passive
    simp only [none, forsaken, found]
    exact Thread.finishes_of_ended rfl
  | asked found known passive => simp [supplier?, found, known, passive]

theorem perform_unfed (unfed : env.graph.incoming? input = none) (s : Scene) :
    (env.resolve input).perform false s = (s, .ended (.ok .absent)) := by
  rw [resolve_eq_done unfed]
  rfl

theorem LooksUp.finishes {x : Scene × Value} (found : env.LooksUp input s x) :
    (Thread.ready (env.resolve input)).Finishes s x.1 (.ok x.2) := by
  cases found with
  | unfed none => exact .ends (perform_unfed none s)
  | stored fed present => exact .ends (resolve_published fed rfl rfl present)
  | unsupplied lacks supplier =>
    rw [finishes_lacking lacks, supplier]
    exact ⟨rfl, rfl⟩
  | asked consults =>
    obtain ⟨lacks, producer, b, supplier, part⟩ := consults
    rw [finishes_lacking lacks, supplier]
    exact (finishes_supply (id_of_supplier? supplier)).mpr ⟨_, _, part, rfl, rfl⟩

end Environment

end ActionGraph
