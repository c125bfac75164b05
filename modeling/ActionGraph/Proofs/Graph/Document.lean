import ActionGraph.Graph.Document
import ActionGraph.Proofs.Json.RoundTrip
import ActionGraph.Proofs.Validation.Fields

/-!
The records of a document, one after the other: what is read from a record as it was written, how deep its
text is nested, and what is known of a record that was read.
-/

namespace ActionGraph

open Json

namespace Json

@[simp] theorem text_str (s : String) : Json.text (.str s) = .ok s := rfl

@[simp] theorem number_float (x : Float) : Json.number (.float x) = .ok x := rfl

@[simp] theorem truth_bool (b : Bool) : Validated.truth (Json.bool b).toValue = .ok b := rfl

@[simp] theorem model_obj {α : Type} (read : List (String × Json) → Validated α) (ms : List (String × Json)) :
    Json.model read (.obj ms) = read ms := rfl

@[simp] theorem settings_obj (ms : List (String × Json)) : Json.settings (.obj ms) = .ok ms := rfl

@[simp] theorem written_ofText? (t : Option String) : (ofText? t).written = ofText? t := by
  cases t <;> rfl

@[simp] theorem nullOr_ofText? (t : Option String) : nullOr Json.text (ofText? t) = .ok t := by
  cases t <;> rfl

/-- A float that is not a number is written as null, and null is no number. -/
theorem number_written {x y : Float} : Json.number (writtenFloat x) = .ok y ↔ Binary64.Finite x ∧ y = x := by
  by_cases finite : Binary64.Finite x
  · simp [writtenFloat_finite finite, finite, eq_comm]
  · rw [writtenFloat_other finite]
    simp [finite, Json.number, Json.toValue, Validated.documentNumber, Validated.number, Validated.broken]

theorem model_eq_ok {α : Type} {read : List (String × Json) → Validated α} {j : Json} {a : α} :
    Json.model read j = .ok a ↔ ∃ ms, j = .obj ms ∧ read ms = .ok a := by
  cases j <;> simp [Json.model, Validated.broken]

theorem settings_eq_ok {j : Json} {ms : List (String × Json)} : Json.settings j = .ok ms ↔ j = .obj ms := by
  cases j <;> simp [Json.settings, Validated.broken]

theorem items_written {α β : Type} {write : α → Json} {check : Json → Validated β} {P : α → Prop} {f : α → β}
    (reload : ∀ {a b}, check (write a).written = .ok b ↔ P a ∧ b = f a) {as : List α} {bs : List β} :
    Json.items check (.arr (writtenItems (as.map write))) = .ok bs ↔ (∀ a ∈ as, P a) ∧ bs = as.map f := by
  have same : List.Forall₂ (fun a b => b = f a) as bs ↔ bs = as.map f := by
    simp only [@eq_comm _ _ (f _), @eq_comm _ bs, ← List.forall₂_map_left_iff, List.forall₂_eq_eq_eq]
  rw [items_eq_ok, ← same, ← List.forall₂_and_left, writtenItems_eq_map, List.map_map]
  simp only [Json.arr.injEq, exists_eq_left', List.forall₂_map_left_iff, Function.comp_apply, reload]

theorem items_kept {α : Type} {write : α → Json} {check : Json → Validated α}
    (reload : ∀ {a b}, check (write a).written = .ok b ↔ b = a) {as bs : List α} :
    Json.items check (.arr (writtenItems (as.map write))) = .ok bs ↔ bs = as := by
  have kept := @items_written _ _ write check (fun _ => True) id (by simp [reload]) as bs
  simpa using kept

end Json

@[simp] theorem PortKind.ofJson_name (k : PortKind) : PortKind.ofJson (.str k.name) = .ok k := by
  cases k <;> rfl

@[simp] theorem Direction.ofJson_name (d : Direction) : Direction.ofJson (.str d.name) = .ok d := by
  cases d <;> rfl

def Position.Finite (p : Position) : Prop := Binary64.Finite p.x ∧ Binary64.Finite p.y

/-- A node that has a position has one that is made of numbers. -/
def Node.Placed (n : Node) : Prop := ∀ p ∈ n.position, p.Finite

def Graph.Placed (g : Graph) : Prop := ∀ n ∈ g.nodes, n.Placed

/-- The node that the text of a node stands for. -/
def Node.written (n : Node) : Node := { n with config := writtenMembers n.config }

def Graph.written (g : Graph) : Graph := { g with nodes := g.nodes.map Node.written }

theorem Node.written_of_finite {n : Node} (finite : (Json.obj n.config).Finite) : n.written = n := by
  have same := finite.written
  rw [Json.written, Json.obj.injEq] at same
  rw [Node.written, same]

theorem Graph.written_of_finite {g : Graph} (finite : ∀ n ∈ g.nodes, (Json.obj n.config).Finite) : g.written = g := by
  have nodes : g.nodes.map Node.written = g.nodes := by
    rw [List.map_congr_left fun n listed => Node.written_of_finite (finite n listed), List.map_id']
  rw [Graph.written, nodes]

section Fields

variable {ms : List (String × Json)}

theorem Position.ofMembers_eq_ok {p : Position} : Position.ofMembers ms = .ok p ↔
    Json.optional ms "x" [] 0 Json.number = .ok p.x ∧ Json.optional ms "y" [] 0 Json.number = .ok p.y := by
  obtain ⟨x, y⟩ := p
  simp only [Position.ofMembers, Validated.seq_eq_ok, Validated.map_eq_ok, exists_exists_and_eq_and, exists_and_left,
    ↓existsAndEq, and_true, Position.mk.injEq]

theorem Port.ofMembers_eq_ok {p : Port} : Port.ofMembers ms = .ok p ↔
    Json.required ms "id" [] Json.text = .ok p.id ∧ Json.required ms "kind" [] PortKind.ofJson = .ok p.kind ∧
    Json.required ms "direction" [] Direction.ofJson = .ok p.direction ∧
    Json.nullable ms "name" [] Json.text = .ok p.name ∧
    Json.nullable ms "dataType" ["data_type"] Json.text = .ok p.dataType ∧
    Json.optional ms "required" [] false (fun j => Validated.truth j.toValue) = .ok p.required := by
  obtain ⟨id, kind, direction, name, dataType, required⟩ := p
  simp only [Port.ofMembers, Validated.seq_eq_ok, Validated.map_eq_ok, exists_exists_and_eq_and, exists_and_left,
    exists_exists_and_exists_and_eq_and, ↓existsAndEq, and_true, and_assoc, Port.mk.injEq]

theorem Node.ofMembers_eq_ok {n : Node} : Node.ofMembers ms = .ok n ↔
    Json.required ms "id" [] Json.text = .ok n.id ∧ Json.required ms "type" [] Json.text = .ok n.type ∧
    Json.nullable ms "title" [] Json.text = .ok n.title ∧
    Json.nullable ms "position" [] (Json.model Position.ofMembers) = .ok n.position ∧
    Json.optional ms "config" [] [] Json.settings = .ok n.config ∧
    Json.optional ms "ports" [] [] (Json.items (Json.model Port.ofMembers)) = .ok n.ports := by
  obtain ⟨id, type, title, position, config, ports⟩ := n
  simp only [Node.ofMembers, Validated.seq_eq_ok, Validated.map_eq_ok, exists_exists_and_eq_and, exists_and_left,
    exists_exists_and_exists_and_eq_and, ↓existsAndEq, and_true, and_assoc, Node.mk.injEq]

theorem Endpoint.ofMembers_eq_ok {e : Endpoint} : Endpoint.ofMembers ms = .ok e ↔
    Json.required ms "nodeId" ["node_id"] Json.text = .ok e.node ∧
    Json.required ms "portId" ["port_id"] Json.text = .ok e.port := by
  obtain ⟨node, port⟩ := e
  simp only [Endpoint.ofMembers, Validated.seq_eq_ok, Validated.map_eq_ok, exists_exists_and_eq_and, exists_and_left,
    ↓existsAndEq, and_true, Endpoint.mk.injEq]

theorem Edge.ofMembers_eq_ok {e : Edge} : Edge.ofMembers ms = .ok e ↔
    Json.required ms "id" [] Json.text = .ok e.id ∧ Json.required ms "kind" [] PortKind.ofJson = .ok e.kind ∧
    Json.required ms "from" ["source"] (Json.model Endpoint.ofMembers) = .ok e.source ∧
    Json.required ms "to" ["target"] (Json.model Endpoint.ofMembers) = .ok e.target := by
  obtain ⟨id, kind, source, target⟩ := e
  simp only [Edge.ofMembers, Validated.seq_eq_ok, Validated.map_eq_ok, exists_exists_and_eq_and, exists_and_left,
    exists_exists_and_exists_and_eq_and, ↓existsAndEq, and_true, and_assoc, Edge.mk.injEq]

theorem Graph.ofMembers_eq_ok {g : Graph} : Graph.ofMembers ms = .ok g ↔
    Json.optional ms "schemaVersion" ["schema_version"] currentSchema Json.text = .ok g.schemaVersion ∧
    Json.nullable ms "graphId" ["graph_id"] Json.text = .ok g.graphId ∧
    Json.nullable ms "name" [] Json.text = .ok g.name ∧
    Json.optional ms "nodes" [] [] (Json.items (Json.model Node.ofMembers)) = .ok g.nodes ∧
    Json.optional ms "edges" [] [] (Json.items (Json.model Edge.ofMembers)) = .ok g.edges := by
  obtain ⟨schemaVersion, graphId, name, nodes, edges⟩ := g
  simp only [Graph.ofMembers, Validated.seq_eq_ok, Validated.map_eq_ok, exists_exists_and_eq_and, exists_and_left,
    exists_exists_and_exists_and_eq_and, ↓existsAndEq, and_true, and_assoc, Graph.mk.injEq]

end Fields

section Reload

theorem Position.reload {p q : Position} :
    Json.model Position.ofMembers p.toJson.written = .ok q ↔ p.Finite ∧ q = p := by
  obtain ⟨x, y⟩ := p
  obtain ⟨x', y'⟩ := q
  simp only [Position.toJson, written, writtenMembers, model_obj, Position.ofMembers_eq_ok, Json.optional, field?]
  simp [Keyed.get?, number_written, Position.Finite]
  tauto

theorem Json.nullOr_position {p q : Option Position} :
    nullOr (Json.model Position.ofMembers) ((p.map Position.toJson).getD .null).written = .ok q ↔
      (∀ placed ∈ p, placed.Finite) ∧ q = p := by
  cases p with
  | none => simp [nullOr, written, eq_comm]
  | some p =>
    have same : nullOr (Json.model Position.ofMembers) p.toJson.written =
        Validated.apply (.ok some) (Json.model Position.ofMembers p.toJson.written) := by
      rw [Position.toJson, written]
      rfl
    simp [same, Validated.apply_eq_ok, Position.reload, @eq_comm _ q]

theorem Port.reload {p q : Port} : Json.model Port.ofMembers p.toJson.written = .ok q ↔ q = p := by
  rw [@eq_comm _ q]
  cases p
  cases q
  simp only [Port.toJson, written, writtenMembers, model_obj, Port.ofMembers_eq_ok, Json.required, nullable_eq,
    Json.optional, field?]
  simp [Keyed.get?]

theorem Node.reload {n m : Node} : Json.model Node.ofMembers n.toJson.written = .ok m ↔ n.Placed ∧ m = n.written := by
  have ports := @items_kept _ Port.toJson (Json.model Port.ofMembers) Port.reload n.ports
  cases m
  simp only [Node.toJson, Json.written, writtenMembers, model_obj, Node.ofMembers_eq_ok, Json.required, nullable_eq,
    Json.optional, field?]
  simp [Keyed.get?, nullOr_position, ports, Node.Placed, Node.written]
  tauto

theorem Endpoint.reload {e f : Endpoint} : Json.model Endpoint.ofMembers e.toJson.written = .ok f ↔ f = e := by
  rw [@eq_comm _ f]
  cases e
  cases f
  simp only [Endpoint.toJson, written, writtenMembers, model_obj, Endpoint.ofMembers_eq_ok, Json.required, field?]
  simp [Keyed.get?]

theorem Edge.reload {e f : Edge} : Json.model Edge.ofMembers e.toJson.written = .ok f ↔ f = e := by
  have ends (a b : Endpoint) : Json.model Endpoint.ofMembers a.toJson.written = .ok b ↔ a = b :=
    Endpoint.reload.trans eq_comm
  rw [@eq_comm _ f]
  cases e
  cases f
  simp only [Edge.toJson, written, writtenMembers, model_obj, Edge.ofMembers_eq_ok, Json.required, field?]
  simp [Keyed.get?, ends]

theorem Graph.reload {g h : Graph} : Json.model Graph.ofMembers g.toJson.written = .ok h ↔ g.Placed ∧ h = g.written := by
  have nodes := @items_written _ _ Node.toJson (Json.model Node.ofMembers) Node.Placed Node.written Node.reload g.nodes
  have edges := @items_kept _ Edge.toJson (Json.model Edge.ofMembers) Edge.reload g.edges
  cases h
  simp only [Graph.toJson, Json.written, writtenMembers, model_obj, Graph.ofMembers_eq_ok, nullable_eq, Json.optional,
    field?]
  simp [Keyed.get?, nodes, edges, Graph.Placed, Graph.written]
  tauto

end Reload

section Legible

variable {depth : Nat}

theorem Json.legible_ofText? (t : Option String) : (ofText? t).Legible depth := by
  cases t with
  | none => exact .null
  | some s => exact .str s

theorem Port.legible (p : Port) : p.toJson.Legible (depth + 1) := by
  apply Json.Legible.obj
  · simp
  · simp only [List.forall_mem_cons]
    exact ⟨.str _, .str _, .str _, legible_ofText? _, legible_ofText? _, .bool _, by simp⟩

theorem Position.legible (p : Position) : p.toJson.Legible (depth + 1) := by
  apply Json.Legible.obj
  · simp
  · simp only [List.forall_mem_cons]
    exact ⟨.float _, .float _, by simp⟩

theorem Node.legible {n : Node} (config : (Json.obj n.config).Legible (depth + 2)) : n.toJson.Legible (depth + 3) := by
  have position : ((n.position.map Position.toJson).getD .null).Legible (depth + 2) := by
    cases n.position with
    | none => exact .null
    | some p => exact p.legible
  have ports : (Json.arr (n.ports.map Port.toJson)).Legible (depth + 2) := by
    apply Json.Legible.arr
    simpa using fun p _ => p.legible
  apply Json.Legible.obj
  · simp
  · simp only [List.forall_mem_cons]
    exact ⟨.str _, .str _, legible_ofText? _, position, config, ports, by simp⟩

theorem Endpoint.legible (e : Endpoint) : e.toJson.Legible (depth + 1) := by
  apply Json.Legible.obj
  · simp
  · simp only [List.forall_mem_cons]
    exact ⟨.str _, .str _, by simp⟩

theorem Edge.legible (e : Edge) : e.toJson.Legible (depth + 2) := by
  apply Json.Legible.obj
  · simp
  · simp only [List.forall_mem_cons]
    exact ⟨.str _, .str _, e.source.legible, e.target.legible, by simp⟩

theorem Graph.legible {g : Graph} (configs : ∀ n ∈ g.nodes, (Json.obj n.config).Legible (depth + 2)) :
    g.toJson.Legible (depth + 5) := by
  have nodes : (Json.arr (g.nodes.map Node.toJson)).Legible (depth + 4) := by
    apply Json.Legible.arr
    simpa using fun n listed => (Node.legible (configs n listed))
  have edges : (Json.arr (g.edges.map Edge.toJson)).Legible (depth + 4) := by
    apply Json.Legible.arr
    simpa using fun e _ => e.legible
  apply Json.Legible.obj
  · simp
  · simp only [List.forall_mem_cons]
    exact ⟨.str _, legible_ofText? _, legible_ofText? _, nodes, edges, by simp⟩

/-- The settings of a node that was read are what a text can hold: they come from it, or there are none. -/
theorem Node.config_legible {n : Node} {j : Json} (legible : j.Legible (depth + 3))
    (read : Json.model Node.ofMembers j = .ok n) : (Json.obj n.config).Legible (depth + 2) := by
  obtain ⟨ms, rfl, members⟩ := Json.model_eq_ok.mp read
  cases legible with
  | obj _ legible =>
    obtain ⟨-, -, -, -, config, -⟩ := Node.ofMembers_eq_ok.mp members
    rcases Json.optional_eq_ok config with default | ⟨m, listed, settings⟩
    · rw [default]
      exact .obj List.nodup_nil (by simp)
    · rw [← Json.settings_eq_ok.mp settings]
      exact legible m listed

theorem Graph.configs_legible {g : Graph} {j : Json} (legible : j.Legible (depth + 5))
    (read : Json.model Graph.ofMembers j = .ok g) : ∀ n ∈ g.nodes, (Json.obj n.config).Legible (depth + 2) := by
  obtain ⟨ms, rfl, members⟩ := Json.model_eq_ok.mp read
  cases legible with
  | obj _ legible =>
    obtain ⟨-, -, -, nodes, -⟩ := Graph.ofMembers_eq_ok.mp members
    rcases Json.optional_eq_ok nodes with default | ⟨m, listed, items⟩
    · simp [default]
    · obtain ⟨js, list, each⟩ := Json.mem_of_items items
      have legible := legible m listed
      rw [list] at legible
      cases legible with
      | arr legible =>
        intro n node
        obtain ⟨j, item, read⟩ := each n node
        exact Node.config_legible (legible j item) read

end Legible

end ActionGraph
