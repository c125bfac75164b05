import ActionGraph.Proofs.Pulse.Handoff

/-!
What it takes to resolve an input. Unless the node at the other end is a passive producer, nothing is
asked for but what is published there; and never does it matter what nodes do when they are run.
-/

namespace ActionGraph

theorem Value.eq_absent_of {v : Value} (none : v.isAbsent = true) : v = .absent := by
  cases v with
  | absent => rfl
  | _ => cases none

theorem Graph.node?_of_mem {g : Graph} (distinct : (g.nodes.map (·.id)).Nodup) {node : Node} (listed : node ∈ g.nodes) :
    g.node? node.id = some node := by
  unfold node?
  generalize g.nodes = nodes at distinct listed
  induction nodes with
  | nil => cases listed
  | cons n nodes ih =>
    simp only [List.map_cons, List.nodup_cons] at distinct
    rcases List.mem_cons.mp listed with rfl | later
    · simp
    · have other : n.id ≠ node.id := fun same => distinct.1 (same ▸ List.mem_map_of_mem later)
      simpa [other] using ih distinct.2 later

namespace Environment

variable {env other : Environment}

/-- Two environments whose passive producers supply the same. Everything else that nodes do, above
all what they do when they are run, may differ. -/
structure SuppliesAs (env other : Environment) : Prop where
  graph : other.graph = env.graph
  settings : other.settings = env.settings
  supplies : ∀ type, (other.repertoire.find? type).map (fun b => (b.producer, b.supply)) =
    (env.repertoire.find? type).map fun b => (b.producer, b.supply)

/-- Inputs are resolved alike wherever passive producers supply the same, so nothing is ever run for
that. -/
theorem SuppliesAs.resolve_eq (same : env.SuppliesAs other) (input : Endpoint) :
    other.resolve input = env.resolve input := by
  unfold resolve
  rw [same.graph]
  split
  · rfl
  · rename_i edge _
    refine congrArg _ (funext fun existing => ?_)
    split
    · split
      · rfl
      · rename_i producer _
        have supplies := same.supplies producer.type
        cases mine : env.repertoire.find? producer.type with
        | none => simp_all
        | some b =>
          rw [mine] at supplies
          obtain ⟨b', theirs, eq⟩ := Option.map_eq_some_iff.mp supplies
          simp only [Prod.mk.injEq] at eq
          rw [theirs]
          simp only [eq.1, supply, eq.2, same.settings]
    · rfl

theorem resolve_stored {input source : Endpoint} {edge : Edge} (fed : env.graph.incoming? input = some edge)
    (leaves : edge.source = source) {node : Node} {b : Behavior} (found : env.graph.node? source.node = some node)
    (known : env.repertoire.find? node.type = some b) (stored : b.producer ≠ .passive) (s : Scene) :
    (env.resolve input).perform false s = (s, .ended (.ok (s.memory.cache.value source))) := by
  subst leaves
  unfold resolve
  simp only [fed, found, known, stored, if_false]
  change Action.perform false s (ite _ _ _) = _
  split
  · rename_i none
    rw [Value.eq_absent_of none]
    rfl
  · rfl

end Environment

end ActionGraph
