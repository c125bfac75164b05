import ActionGraph.Demonstration
import ActionGraph.Graph.Connection
import ActionGraph.Proofs.Behavior.Constant

/-!
Graphs that have been checked: their nodes are of types that an editor offers, with the ports of
these types, and no edge of them is rejected. Every edge of such a graph joins an output and an input
of its own kind, so it leads on to a node that pulses run, or comes from one that gives something.
-/

namespace ActionGraph

namespace Graph

/-- Every node is of a type of the palette, and has the ports of its type. -/
def Offered (g : Graph) : Prop :=
  ∀ node ∈ g.nodes, ∃ t, Palette.find? node.type = some t ∧ ∀ p, p ∈ node.ports ↔ p ∈ t.ports

structure Checked (g : Graph) : Prop where
  offered : g.Offered
  accepted : g.problems = []

variable {g : Graph} {edge : Edge} {e source target : Endpoint} {p : Port} {kind : PortKind}

/-- What the ends of a connection of this kind have to be. -/
structure Joins (g : Graph) (source target : Endpoint) (kind : PortKind) (a b : Port) : Prop where
  source : g.port? source = some a
  target : g.port? target = some b
  outward : a.direction = .outward
  inward : b.direction = .inward
  kinds : a.kind = kind ∧ b.kind = kind

theorem joins_of_kindBetween {edgeId : Option String} (joined : g.kindBetween source target edgeId = .ok kind) :
    ∃ a b, g.Joins source target kind a b := by
  unfold kindBetween at joined
  dsimp only at joined
  split at joined
  · cases joined
  · cases joined
  · rename_i a b from_ to_
    split at joined
    · cases joined
    · rename_i directions
      split at joined
      · cases joined
      · rename_i kinds
        cases joined
        simp only [ne_eq, not_or, Decidable.not_not] at directions kinds
        exact ⟨a, b, from_, to_, directions.1, directions.2, rfl, kinds.symm⟩

theorem joins_of_accepted (accepted : g.problems = []) (listed : edge ∈ g.edges) :
    ∃ a b, g.Joins edge.source edge.target edge.kind a b := by
  have fine : g.edgeProblem? edge = none := List.filterMap_eq_nil_iff.mp accepted edge listed
  unfold edgeProblem? at fine
  split at fine
  · cases fine
  · rename_i kind joined
    split at fine
    · rename_i same
      exact same ▸ joins_of_kindBetween joined
    · cases fine

theorem Offered.port (offered : g.Offered) (found : g.port? e = some p) :
    ∃ node t, g.node? e.node = some node ∧ Palette.find? node.type = some t ∧ p ∈ t.ports ∧ p.id = e.port := by
  obtain ⟨node, there, has⟩ := Option.bind_eq_some_iff.mp found
  obtain ⟨t, type, ports⟩ := offered node (List.mem_of_find?_eq_some there)
  have same : p.id = e.port := by simpa using List.find?_some has
  exact ⟨node, t, there, type, (ports p).mp (List.mem_of_find?_eq_some has), same⟩

end Graph

namespace Palette

theorem tool_outward : ∀ t ∈ types, ∀ p ∈ t.ports, p.kind = .tool → p.direction = .outward →
    t.type = "tool.uiRoot" ∧ p.id = "tool_out" := by decide

theorem exec_inward : ∀ t ∈ types, ∀ p ∈ t.ports, p.kind = .exec → p.direction = .inward →
    t.type ∈ ["ui.spawnEmoji", "ui.animateFly", "ui.removeElement", "debug.log", "logic.eval"] := by decide

theorem spawnEmoji_tool : ∀ p ∈ spawnEmoji.ports, p.id = "tool_in" → p.kind = .tool := by decide

theorem type_of_find? {type : String} {t : NodeType} (found : find? type = some t) : t ∈ types ∧ t.type = type :=
  ⟨List.mem_of_find?_eq_some found, by simpa using List.find?_some found⟩

end Palette

namespace Builtin

variable (evaluate : Script.Evaluator) {t : NodeType}

theorem registered (listed : t ∈ Palette.types) : ∃ b, (repertoire evaluate).find? t.type = some b := by
  simp only [Palette.types, List.mem_cons, List.not_mem_nil, or_false] at listed
  rcases listed with rfl | rfl | rfl | rfl | rfl | rfl | rfl | rfl | rfl <;> exact ⟨_, rfl⟩

theorem runs_entered (listed : t ∈ Palette.types) {p : Port} (port : p ∈ t.ports) (exec : p.kind = .exec)
    (inward : p.direction = .inward) :
    ∃ b, (repertoire evaluate).find? t.type = some b ∧ b.executable = .ok true := by
  have types := Palette.exec_inward t listed p port exec inward
  generalize t.type = type at types
  simp only [List.mem_cons, List.not_mem_nil, or_false] at types
  rcases types with rfl | rfl | rfl | rfl | rfl <;> exact ⟨_, rfl, rfl⟩

end Builtin

namespace Environment

variable {env : Environment} (builtin : env.IsBuiltin) (checked : env.graph.Checked)

include builtin checked

theorem runs_led {origin : Endpoint} {id : String} (target : id ∈ env.targets origin) : ∃ node b, env.graph.node? id = some node ∧
    env.repertoire.find? node.type = some b ∧ b.executable = .ok true ∧ env.arrive id = .runnable node b := by
  obtain ⟨evaluate, eq⟩ := builtin
  obtain ⟨edge, leaves, rfl⟩ := List.mem_map.mp target
  obtain ⟨listed, exec⟩ := List.mem_filter.mp leaves
  simp only [Bool.and_eq_true, beq_iff_eq] at exec
  obtain ⟨a, p, joins⟩ := Graph.joins_of_accepted checked.accepted listed
  obtain ⟨node, t, found, type, port, _⟩ := checked.offered.port joins.target
  obtain ⟨offered, same⟩ := Palette.type_of_find? type
  obtain ⟨b, known, runs⟩ := Builtin.runs_entered evaluate offered port (joins.kinds.2.trans exec.1) joins.inward
  rw [same, ← eq] at known
  refine ⟨node, b, found, known, runs, ?_⟩
  unfold arrive
  simp only [found, known, runs]

theorem fed_by {input : Endpoint} {edge : Edge} (fed : env.graph.incoming? input = some edge) :
    ∃ node b p, env.graph.node? edge.source.node = some node ∧ env.repertoire.find? node.type = some b ∧
      env.graph.port? input = some p ∧ p.direction = .inward ∧ edge.kind = p.kind ∧
      env.resolve input = (Action.cached edge.source).andThen fun existing =>
        if existing.isAbsent then
          if b.producer = .passive then env.supply node b edge.source.port else .done .absent
        else .done existing := by
  obtain ⟨evaluate, eq⟩ := builtin
  have target : edge.target = input := by simpa using List.find?_some fed
  obtain ⟨a, p, joins⟩ := Graph.joins_of_accepted checked.accepted (List.mem_of_find?_eq_some fed)
  obtain ⟨node, t, found, type, _⟩ := checked.offered.port joins.source
  obtain ⟨offered, same⟩ := Palette.type_of_find? type
  obtain ⟨b, known⟩ := Builtin.registered evaluate offered
  rw [same, ← eq] at known
  refine ⟨node, b, p, found, known, target ▸ joins.target, joins.inward, joins.kinds.2.symm, ?_⟩
  unfold resolve
  simp only [fed, found, known]
  rfl

theorem fed_mount {id : String} {node : Node} (found : env.graph.node? id = some node)
    (spawns : node.type = "ui.spawnEmoji") {edge : Edge} (fed : env.graph.incoming? ⟨id, "tool_in"⟩ = some edge) :
    ∃ mount, env.Determines edge.source.node edge.source.port (.element (.mount mount)) := by
  have target : edge.target = ⟨id, "tool_in"⟩ := by simpa using List.find?_some fed
  obtain ⟨a, p, joins⟩ := Graph.joins_of_accepted checked.accepted (List.mem_of_find?_eq_some fed)
  have tool : p.kind = .tool := by
    obtain ⟨node', t, found', type, port, own⟩ := checked.offered.port joins.target
    rw [target] at found' own
    cases found.symm.trans found'
    rw [spawns] at type
    cases type
    exact Palette.spawnEmoji_tool p port own
  have kind : a.kind = .tool := joins.kinds.1.trans (joins.kinds.2.symm.trans tool)
  obtain ⟨producer, t, found, type, port, own⟩ := checked.offered.port joins.source
  obtain ⟨offered, same⟩ := Palette.type_of_find? type
  obtain ⟨mount, out⟩ := Palette.tool_outward t offered a port kind joins.outward
  rw [← own, out]
  exact ⟨_, builtin, producer, found, .mount (same.symm.trans mount)⟩

end Environment

theorem Demonstration.checked (graphId : Option String) : (Demonstration.graph graphId).Checked := by
  refine ⟨fun node listed => ?_, ?_⟩
  · have nodes : node ∈ Demonstration.nodes := listed
    simp only [Demonstration.nodes, List.mem_cons, List.not_mem_nil, or_false] at nodes
    rcases nodes with rfl | rfl | rfl | rfl | rfl | rfl | rfl <;> exact ⟨_, rfl, fun _ => Iff.rfl⟩
  · have same : (Demonstration.graph graphId).problems = (Demonstration.graph none).problems := rfl
    rw [same]
    decide

end ActionGraph
