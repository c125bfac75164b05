import ActionGraph.Proofs.Graph.Checked

/-!
Edits of the wiring, one after the other. An edge is added at the end and taken out by its id; the
nodes stay as they are, and a connection is judged by the nodes alone. So no edit changes what is
wrong with an edge, and an edge that was added has nothing wrong with it.
-/

namespace ActionGraph

namespace Graph

/-- A call that changes the edges of a graph, unless it is refused. -/
inductive Edit where
  | connect (source target : Endpoint) (edgeId : Option String) (fresh : String)
  | disconnect (edgeId : String)

def edit (g : Graph) : Edit → Graph
  | .connect source target edgeId fresh =>
    match g.connect source target edgeId fresh with
    | .ok (extended, _) => extended
    | .error _ => g
  | .disconnect edgeId => g.disconnect edgeId

def editAll (g : Graph) (edits : List Edit) : Graph := edits.foldl edit g

/-- Whether an edit leaves an edge where it is. Only taking out its id does not. -/
def Edit.spares (e : Edge) : Edit → Bool
  | .connect .. => true
  | .disconnect edgeId => e.id != edgeId

/-- Whether an edge is left after these edits. -/
def outlasts (edits : List Edit) (e : Edge) : Bool := edits.all (·.spares e)

/-- The edge that an edit adds. It does not depend on the edges there are. -/
def addition? (g : Graph) : Edit → Option Edge
  | .connect source target edgeId fresh => (g.newEdge source target edgeId fresh).toOption
  | .disconnect _ => none

/-- The edges that edits add and that the later ones spare, in the order in which they are added. -/
def additions (g : Graph) : List Edit → List Edge
  | [] => []
  | change :: later => (g.addition? change).toList.filter (outlasts later) ++ g.additions later

variable {g : Graph} {source target : Endpoint} {kind : PortKind} {a b : Port}

/-- The converse of `joins_of_kindBetween`: the id of an edge has no say in whether it may be made. -/
theorem Joins.kindBetween (joins : g.Joins source target kind a b) (edgeId : Option String) :
    g.kindBetween source target edgeId = .ok kind := by
  have directions : ¬ (a.direction ≠ .outward ∨ b.direction ≠ .inward) := by
    simp [joins.outward, joins.inward]
  simp [Graph.kindBetween, joins.source, joins.target, directions, joins.kinds.1, joins.kinds.2]

theorem joins_of_addition {change : Edit} {e : Edge} (adds : g.addition? change = some e) :
    ∃ a b, g.Joins e.source e.target e.kind a b := by
  cases change with
  | disconnect edgeId => simp [addition?] at adds
  | connect source target edgeId fresh =>
    cases between : g.kindBetween source target edgeId with
    | error r => simp [addition?, newEdge, between, Except.map, Except.toOption] at adds
    | ok kind =>
      simp only [addition?, newEdge, between, Except.map, Except.toOption, Option.some.injEq] at adds
      subst adds
      exact joins_of_kindBetween between

theorem Joins.faultless {e : Edge} (joins : g.Joins e.source e.target e.kind a b) : g.edgeProblem? e = none := by
  simp [edgeProblem?, joins.kindBetween]

theorem mem_additions {edits : List Edit} {e : Edge} (added : e ∈ g.additions edits) :
    ∃ change ∈ edits, g.addition? change = some e := by
  induction edits with
  | nil => simp [additions] at added
  | cons change later ih =>
    simp only [additions, List.mem_append, List.mem_filter, Option.mem_toList] at added
    rcases added with ⟨adds, _⟩ | added
    · exact ⟨change, List.mem_cons_self, adds⟩
    · obtain ⟨change', listed, adds⟩ := ih added
      exact ⟨change', List.mem_cons_of_mem change listed, adds⟩

theorem edit_eq (g : Graph) (change : Edit) :
    g.edit change = { g with edges := g.edges.filter change.spares ++ (g.addition? change).toList } := by
  cases change with
  | disconnect edgeId =>
    have spares : g.edges.filter (fun e => (Edit.disconnect edgeId).spares e) =
        g.edges.filter fun e => e.id != edgeId := rfl
    simp [edit, disconnect, addition?, spares]
  | connect source target edgeId fresh =>
    have spares : g.edges.filter (fun e => (Edit.connect source target edgeId fresh).spares e) = g.edges :=
      List.filter_eq_self.mpr fun _ _ => rfl
    cases made : g.newEdge source target edgeId fresh with
    | error r => simp [edit, connect, addition?, made, spares, Except.map, Except.toOption]
    | ok e => simp [edit, connect, addition?, made, spares, Except.map, Except.toOption]

theorem additions_edges (g : Graph) (edges : List Edge) (edits : List Edit) :
    ({ g with edges := edges } : Graph).additions edits = g.additions edits := by
  induction edits with
  | nil => rfl
  | cons change later ih =>
    have same : ({ g with edges := edges } : Graph).addition? change = g.addition? change := by
      cases change <;> rfl
    simp only [additions, same, ih]

/-- All edits: the edges that were there come first, as far as they are left, and then what was added. -/
theorem editAll_eq (g : Graph) (edits : List Edit) :
    g.editAll edits = { g with edges := g.edges.filter (outlasts edits) ++ g.additions edits } := by
  induction edits generalizing g with
  | nil =>
    have all : g.edges.filter (outlasts []) = g.edges := List.filter_eq_self.mpr fun _ _ => rfl
    simp [editAll, additions, all]
  | cons change later ih =>
    have first : g.editAll (change :: later) = (g.edit change).editAll later := rfl
    have both : (g.edges.filter change.spares).filter (outlasts later) = g.edges.filter (outlasts (change :: later)) := by
      rw [List.filter_filter]
      apply List.filter_congr
      intro e _
      simp [outlasts, Bool.and_comm]
    rw [first, ih, edit_eq, additions_edges]
    simp [additions, both]

/-- Edits keep validity. The edges that were there and are left come first, in their order, and then
the edges that were added and are left, in theirs; everything else about the graph stays. What is wrong
with the result is what was wrong with the edges that were there and are left, and no verdict on an edge
changes. Starting without edges, nothing is ever wrong: every edge goes from an output to an input of its
own kind. -/
theorem edits_keep_validity (g : Graph) (edits : List Edit) :
    g.editAll edits = { g with edges := g.edges.filter (outlasts edits) ++ g.additions edits } ∧
    (g.editAll edits).problems = (g.edges.filter (outlasts edits)).filterMap g.edgeProblem? ∧
    (∀ e, (g.editAll edits).edgeProblem? e = g.edgeProblem? e) ∧
    (g.edges = [] → (g.editAll edits).problems = [] ∧
      ∀ e ∈ (g.editAll edits).edges, ∃ a b, (g.editAll edits).Joins e.source e.target e.kind a b) := by
  have result := g.editAll_eq edits
  have verdict : ∀ e, (g.editAll edits).edgeProblem? e = g.edgeProblem? e := by
    intro e
    rw [result]
    rfl
  have faultless : (g.additions edits).filterMap g.edgeProblem? = [] := by
    apply List.filterMap_eq_nil_iff.mpr
    intro e added
    obtain ⟨change, _, adds⟩ := mem_additions added
    obtain ⟨a, b, joins⟩ := joins_of_addition adds
    exact joins.faultless
  have problems : (g.editAll edits).problems = (g.edges.filter (outlasts edits)).filterMap g.edgeProblem? := by
    rw [Graph.problems, funext verdict, result, List.filterMap_append, faultless, List.append_nil]
  refine ⟨result, problems, verdict, ?_⟩
  intro none
  have accepted : (g.editAll edits).problems = [] := by simp [problems, none]
  exact ⟨accepted, fun e listed => joins_of_accepted accepted listed⟩

/-- The demonstration without its edges. -/
def unwired : Graph := { Demonstration.graph none with edges := [] }

/-- A connection, the same again under its id, one that is refused, and the end of the first two. -/
def rewiring : List Edit := [
  .connect ⟨"n_hover", "exec_out"⟩ ⟨"n_spawn", "exec_in"⟩ (some "e") "f",
  .connect ⟨"n_hover", "exec_out"⟩ ⟨"n_spawn", "exec_in"⟩ (some "e") "f",
  .connect ⟨"n_spawn", "exec_in"⟩ ⟨"n_hover", "exec_out"⟩ none "f",
  .connect ⟨"n_emoji", "data_out"⟩ ⟨"n_spawn", "data_in_emoji"⟩ none "f",
  .disconnect "e"]

theorem edits_keep_validity_rewiring : unwired.edges = [] ∧ (unwired.editAll rewiring).problems = [] ∧
    (unwired.editAll rewiring).edges = [⟨"f", .data, ⟨"n_emoji", "data_out"⟩, ⟨"n_spawn", "data_in_emoji"⟩⟩] :=
  ⟨rfl, ((edits_keep_validity unwired rewiring).2.2.2 rfl).1,
    (congrArg Graph.edges (edits_keep_validity unwired rewiring).1).trans (by decide)⟩

end Graph

end ActionGraph
