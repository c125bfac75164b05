import ActionGraph.Pulse

/-!
The nodes that a pulse runs, as the graph alone determines them: a node, all that follows from it,
and only then its next sibling. Published values, settings, and whatever behaviors do have no part
in it.
-/

namespace ActionGraph

namespace Environment

/-- The output that pulses leave the node under an id by, if they run it. -/
def exit? (env : Environment) (id : String) : Option String :=
  match env.arrive id with
  | .runnable _ b => some b.execOut
  | _ => none

/-- The output that pulses leave nodes of a type by, if they run them. -/
def way? (env : Environment) (type : String) : Option String :=
  match env.repertoire.find? type with
  | none => none
  | some b =>
    match b.executable with
    | .ok true => some b.execOut
    | _ => none

/-- Whether pulses run nodes of some type cannot be found out, for this reason. -/
def Unclear (env : Environment) (f : Fault) : Prop :=
  ∃ type b, env.repertoire.find? type = some b ∧ b.executable = .error f

/-- Visiting node ids in turn runs these nodes. An id that leads nowhere adds none; one that can be
run adds its node, what follows from it, and then what the ids after it add. -/
inductive Unfolding (env : Environment) : List String → List String → Prop
  | nil : Unfolding env [] []
  | skip {id : String} {ids rest : List String} : env.exit? id = none → Unfolding env ids rest →
      Unfolding env (id :: ids) rest
  | emit {id port : String} {ids below beyond : List String} : env.exit? id = some port →
      Unfolding env (env.targets ⟨id, port⟩) below → Unfolding env ids beyond →
      Unfolding env (id :: ids) (id :: (below ++ beyond))

/-- Two environments whose pulses find the same ways. Settings of nodes, inputs, effects and all
else may differ. -/
structure SameWays (plan env : Environment) : Prop where
  edges : plan.graph.edges = env.graph.edges
  nodes : (plan.graph.nodes.map fun n => (n.id, n.type)) = env.graph.nodes.map fun n => (n.id, n.type)
  ways : ∀ type, plan.way? type = env.way? type

end Environment

theorem Graph.id_of_node? {g : Graph} {id : String} {n : Node} (h : g.node? id = some n) : n.id = id := by
  simpa using List.find?_some h

theorem Graph.type_node? (g : Graph) (id : String) :
    (g.node? id).map (·.type) = (((g.nodes.map fun n => (n.id, n.type)).find? fun n => n.1 == id)).map (·.2) := by
  rw [List.find?_map, Option.map_map]
  rfl

namespace Environment

variable {env : Environment}

theorem exit?_eq (id : String) : env.exit? id = ((env.graph.node? id).map (·.type)).bind env.way? := by
  unfold exit? arrive way?
  cases env.graph.node? id with
  | none => rfl
  | some node =>
    simp only [Option.map_some, Option.bind_some]
    cases env.repertoire.find? node.type with
    | none => rfl
    | some b =>
      dsimp only
      cases b.executable with
      | error f => rfl
      | ok runs => cases runs <;> rfl

theorem runnable_of_exit? {id port : String} (h : env.exit? id = some port) :
    ∃ node b, env.arrive id = .runnable node b ∧ b.execOut = port := by
  unfold exit? at h
  split at h
  · rename_i node b arrived
    exact ⟨node, b, arrived, Option.some.inj h⟩
  · cases h

theorem found_of_arrive {id : String} {node : Node} {b : Behavior} (h : env.arrive id = .runnable node b) :
    env.graph.node? id = some node ∧ env.repertoire.find? node.type = some b ∧ b.executable = .ok true := by
  unfold arrive at h
  split at h
  · cases h
  · rename_i found
    split at h
    · cases h
    · rename_i known
      split at h <;> cases h
      exact ⟨found, known, ‹_›⟩

theorem id_of_arrive {id : String} {node : Node} {b : Behavior} (h : env.arrive id = .runnable node b) :
    node.id = id :=
  Graph.id_of_node? (found_of_arrive h).1

theorem unclear_of_arrive {id : String} {f : Fault} (h : env.arrive id = .unclear f) : env.Unclear f := by
  unfold arrive at h
  split at h
  · cases h
  · split at h
    · cases h
    · rename_i b found
      split at h <;> cases h
      exact ⟨_, b, found, ‹_›⟩

theorem Unfolding.append {ids more rest beyond : List String} (first : env.Unfolding ids rest)
    (second : env.Unfolding more beyond) : env.Unfolding (ids ++ more) (rest ++ beyond) := by
  induction first with
  | nil => exact second
  | skip none _ ih => exact .skip none ih
  | emit some below _ _ ih =>
    rw [List.cons_append, List.cons_append, List.append_assoc]
    exact .emit some below ih

theorem Unfolding.unique {ids rest other : List String} (h : env.Unfolding ids rest)
    (k : env.Unfolding ids other) : rest = other := by
  induction h generalizing other with
  | nil =>
    cases k
    rfl
  | skip none _ ih =>
    cases k with
    | skip _ k => exact ih k
    | emit some _ _ => rw [none] at some; cases some
  | emit some _ _ ihBelow ihBeyond =>
    cases k with
    | skip none _ => rw [some] at none; cases none
    | emit same below beyond =>
      obtain rfl : _ = _ := Option.some.inj (some.symm.trans same)
      rw [ihBelow below, ihBeyond beyond]

namespace SameWays

variable {plan : Environment}

theorem targets_eq (same : plan.SameWays env) (origin : Endpoint) : plan.targets origin = env.targets origin := by
  rw [targets, targets, Graph.execEdges, Graph.execEdges, same.edges]

theorem exit?_eq (same : plan.SameWays env) (id : String) : plan.exit? id = env.exit? id := by
  have types : (plan.graph.node? id).map (·.type) = (env.graph.node? id).map (·.type) := by
    rw [Graph.type_node?, Graph.type_node?, same.nodes]
  rw [Environment.exit?_eq, Environment.exit?_eq, types, funext same.ways]

theorem unfolding (same : plan.SameWays env) {ids rest : List String} (h : plan.Unfolding ids rest) :
    env.Unfolding ids rest := by
  induction h with
  | nil => exact .nil
  | skip none _ ih => exact .skip (same.exit?_eq _ ▸ none) ih
  | emit some _ _ ihBelow ihBeyond =>
    exact .emit (same.exit?_eq _ ▸ some) (same.targets_eq _ ▸ ihBelow) ihBeyond

end SameWays

end Environment

end ActionGraph
