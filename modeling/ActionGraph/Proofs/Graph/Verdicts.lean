import Mathlib.Data.List.Forall2
import ActionGraph.CommandLine.Run
import ActionGraph.Proofs.Graph.Edits
import ActionGraph.Proofs.Graph.RoundTrip

/-!
One verdict on a connection, wherever it is asked for. Adding an edge, checking the edges of a graph and
the exit code of the command that does so all go by one rule: an output, an input, and one kind for both
and for the edge. Taking an edge out again goes by its id alone.
-/

namespace ActionGraph

namespace Graph

/-- Why two ports cannot be connected. A reason is given only where those before it do not apply. -/
inductive Refuses (g : Graph) (source target : Endpoint) : Reason → Prop
  | source : g.port? source = none → g.Refuses source target (.unknownPort source)
  | target {a : Port} : g.port? source = some a → g.port? target = none → g.Refuses source target (.unknownPort target)
  | directions {a b : Port} : g.port? source = some a → g.port? target = some b →
      ¬ (a.direction = .outward ∧ b.direction = .inward) → g.Refuses source target .directionMismatch
  | kinds {a b : Port} : g.port? source = some a → g.port? target = some b → a.direction = .outward →
      b.direction = .inward → a.kind ≠ b.kind → g.Refuses source target (.kindMismatch a.kind b.kind)

/-- The rule for edges: from an output to an input, both there and both of the edge's own kind. -/
def Obeys (g : Graph) (e : Edge) : Prop := ∃ a b, g.Joins e.source e.target e.kind a b

/-- What a graph becomes when this edge is added between two ports. -/
structure Gains (g : Graph) (source target : Endpoint) (made : Edge) (g' : Graph) : Prop where
  ports : ∃ a b, g.Joins source target made.kind a b
  source : made.source = source
  target : made.target = target
  graph : g' = { g with edges := g.edges ++ [made] }

/-- What is reported of an edge: the refusal of its own connection, or, where that would be made with
another kind, both kinds. -/
inductive Reports (g : Graph) (e : Edge) : Rejection → Prop
  | refused {r : Rejection} : (∀ fresh, g.connect e.source e.target (some e.id) fresh = .error r) → g.Reports e r
  | declared {kind : PortKind} : kind ≠ e.kind →
      (∀ fresh, ∃ made g', g.connect e.source e.target (some e.id) fresh = .ok (g', made) ∧ made.kind = kind) →
      g.Reports e ⟨e.source, e.target, some e.id, .edgeKindMismatch e.kind kind⟩

variable {g : Graph} {source target : Endpoint} {edgeId : Option String} {fresh : String} {kind : PortKind}

theorem kindBetween_eq_ok : g.kindBetween source target edgeId = .ok kind ↔ ∃ a b, g.Joins source target kind a b := by
  constructor
  · exact joins_of_kindBetween
  · rintro ⟨a, b, joins⟩
    exact joins.kindBetween edgeId

theorem kindBetween_eq_error {r : Rejection} : g.kindBetween source target edgeId = .error r ↔
    ∃ reason, g.Refuses source target reason ∧ r = ⟨source, target, edgeId, reason⟩ := by
  constructor
  · intro refused
    unfold kindBetween at refused
    dsimp only at refused
    split at refused
    · rename_i missing
      cases refused
      exact ⟨_, .source missing, rfl⟩
    · rename_i there missing
      cases refused
      exact ⟨_, .target there missing, rfl⟩
    · rename_i a b from_ to_
      split at refused
      · rename_i directions
        cases refused
        refine ⟨_, .directions from_ to_ ?_, rfl⟩
        rintro ⟨outward, inward⟩
        exact directions.elim (absurd outward) (absurd inward)
      · rename_i directions
        -- Only now are the kinds compared, so the refusal by kind comes with both directions.
        rw [not_or, Decidable.not_not, Decidable.not_not] at directions
        split at refused
        · rename_i kinds
          cases refused
          exact ⟨_, .kinds from_ to_ directions.1 directions.2 kinds, rfl⟩
        · cases refused
  · rintro ⟨reason, refuses, rfl⟩
    cases refuses with
    | source missing => simp [kindBetween, missing]
    | target there missing => simp [kindBetween, there, missing]
    | directions from_ to_ wrong =>
      have either := Decidable.not_and_iff_or_not.mp wrong
      simp [kindBetween, from_, to_, either]
    | kinds from_ to_ outward inward differ => simp [kindBetween, from_, to_, outward, inward, differ]

instance (g : Graph) : DecidablePred g.Obeys := fun e =>
  decidable_of_iff (g.kindBetween e.source e.target none = .ok e.kind) kindBetween_eq_ok

theorem connect_eq_error {r : Rejection} : g.connect source target edgeId fresh = .error r ↔
    ∃ reason, g.Refuses source target reason ∧ r = ⟨source, target, edgeId, reason⟩ := by
  rw [← kindBetween_eq_error]
  cases between : g.kindBetween source target edgeId <;> simp [connect, newEdge, between, Except.map]

theorem exists_connect (joined : g.kindBetween source target edgeId = .ok kind) (fresh : String) :
    ∃ made g', g.connect source target edgeId fresh = .ok (g', made) ∧ made.kind = kind := by
  unfold connect newEdge
  rw [joined]
  exact ⟨_, _, rfl, rfl⟩

theorem gains_connect {made : Edge} {g' : Graph} (accepted : g.connect source target edgeId fresh = .ok (g', made)) :
    g.Gains source target made g' ∧ (∀ id, edgeId = some id → id ≠ "" → made.id = id) := by
  cases between : g.kindBetween source target edgeId with
  | error r => simp [connect, newEdge, between, Except.map] at accepted
  | ok kind =>
    simp only [connect, newEdge, between, Except.map, Except.ok.injEq, Prod.mk.injEq] at accepted
    obtain ⟨rfl, rfl⟩ := accepted
    refine ⟨⟨joins_of_kindBetween between, rfl, rfl, rfl⟩, ?_⟩
    rintro id rfl given
    exact if_neg given

theorem edgeProblem?_eq_none {e : Edge} : g.edgeProblem? e = none ↔ g.Obeys e := by
  have rule : g.kindBetween e.source e.target (some e.id) = .ok e.kind ↔ g.Obeys e := kindBetween_eq_ok
  rw [← rule]
  unfold edgeProblem?
  split
  · rename_i between
    simp [between]
  · rename_i kind between
    by_cases same : kind = e.kind <;> simp [between, same]

theorem reports_edgeProblem? {e : Edge} {r : Rejection} (found : g.edgeProblem? e = some r) : g.Reports e r := by
  unfold edgeProblem? at found
  split at found
  · rename_i refused
    cases found
    exact .refused fun fresh => connect_eq_error.mpr (kindBetween_eq_error.mp refused)
  · rename_i kind joined
    split at found
    · cases found
    · rename_i differ
      cases found
      exact .declared differ (exists_connect joined)

theorem reports_problems (edges : List Edge) :
    List.Forall₂ g.Reports (edges.filter fun e => ¬ g.Obeys e) (edges.filterMap g.edgeProblem?) := by
  induction edges with
  | nil => exact .nil
  | cons e edges ih =>
    cases found : g.edgeProblem? e with
    | none =>
      have fine := edgeProblem?_eq_none.mp found
      rw [List.filter_cons_of_neg (by simpa using fine), List.filterMap_cons_none found]
      exact ih
    | some r =>
      have broken : ¬ g.Obeys e := by
        rw [← edgeProblem?_eq_none, found]
        exact Option.some_ne_none r
      rw [List.filter_cons_of_pos (by simpa using broken), List.filterMap_cons_some found]
      exact .cons (reports_edgeProblem? found) ih

theorem problems_eq_nil : g.problems = [] ↔ ∀ e ∈ g.edges, g.Obeys e := by
  simp [problems, List.filterMap_eq_nil_iff, edgeProblem?_eq_none]

end Graph

namespace CommandLine.Place

variable {p : Place} {args : List String} {file text : String} {g : Graph}

theorem call_check (asked : read args = .ok (.check file)) (there : p.files.read? file = .ok (some text))
    (parsed : Graph.parse text = .ok g) :
    p.call args = p.exit (if g.problems = [] then 0 else 1) (report Builtin.standard g) [] := by
  simp [call, asked, perform, withGraph, there, parsed]

end CommandLine.Place

namespace Graph

/-- Every part of the program gives the same verdict on an edge. What is reported of a graph are, in
their order and one for each, its edges that break the rule, and the report is the refusal of that very
connection or says that the edge is declared to be of another kind than its ports. A connection is made if
and only if both ports are there, the one an output and the other an input, and of one kind; then one edge
of that kind is added at the end, and else the first reason that applies is given and the graph stays as it
is. Only the nodes have a say in that. The command that checks a file with a graph ends with code zero if
and only if every edge obeys the rule, whatever the types of the nodes are. -/
theorem verdicts_agree (g : Graph) :
    List.Forall₂ g.Reports (g.edges.filter fun e => ¬ g.Obeys e) g.problems ∧
    (∀ source target edgeId fresh,
      ((∃ made g', g.connect source target edgeId fresh = .ok (g', made)) ↔
        ∃ a b kind, g.Joins source target kind a b) ∧
      (∀ made g', g.connect source target edgeId fresh = .ok (g', made) → g.Gains source target made g') ∧
      (∀ r, g.connect source target edgeId fresh = .error r ↔
        ∃ reason, g.Refuses source target reason ∧ r = ⟨source, target, edgeId, reason⟩) ∧
      ((¬ ∃ a b kind, g.Joins source target kind a b) → g.edit (.connect source target edgeId fresh) = g)) ∧
    (∀ g' : Graph, g'.nodes = g.nodes → ∀ source target edgeId fresh,
      (g'.connect source target edgeId fresh).map Prod.snd = (g.connect source target edgeId fresh).map Prod.snd) ∧
    ∀ (p : CommandLine.Place) args file text, CommandLine.read args = .ok (.check file) →
      p.files.read? file = .ok (some text) → parse text = .ok g →
      ∃ o, p.call args = .exits o ∧ o.code = if ∀ e ∈ g.edges, g.Obeys e then 0 else 1 := by
  refine ⟨reports_problems g.edges, fun source target edgeId fresh => ⟨?_, ?_, fun r => connect_eq_error, ?_⟩, ?_, ?_⟩
  · constructor
    · rintro ⟨made, g', accepted⟩
      obtain ⟨a, b, joins⟩ := (gains_connect accepted).1.ports
      exact ⟨a, b, _, joins⟩
    · rintro ⟨a, b, kind, joins⟩
      obtain ⟨made, g', accepted, _⟩ := exists_connect (joins.kindBetween edgeId) fresh
      exact ⟨made, g', accepted⟩
  · exact fun made g' accepted => (gains_connect accepted).1
  · intro unfit
    cases result : g.connect source target edgeId fresh with
    | error r => rw [edit, result]
    | ok added =>
      obtain ⟨a, b, joins⟩ := (gains_connect result).1.ports
      exact absurd ⟨a, b, _, joins⟩ unfit
  · intro g' same source target edgeId fresh
    have verdict : g'.kindBetween source target edgeId = g.kindBetween source target edgeId := by
      simp only [kindBetween, port?, node?, same]
    unfold connect newEdge
    rw [verdict]
    cases g.kindBetween source target edgeId <;> rfl
  · intro p args file text asked there parsed
    refine ⟨_, CommandLine.Place.call_check asked there parsed, ?_⟩
    simp only [problems_eq_nil]

/-- Two ports, of nodes of an unknown type, and the edge between them. -/
def linked : Graph where
  schemaVersion := currentSchema
  graphId := none
  name := none
  nodes := [⟨"a", "t", none, none, [], [⟨"out", .exec, .outward, none, none, false⟩]⟩,
    ⟨"b", "t", none, none, [], [⟨"in", .exec, .inward, none, none, false⟩]⟩]
  edges := [⟨"e", .exec, ⟨"a", "out"⟩, ⟨"b", "in"⟩⟩]

/-- The same with an edge that is declared to be of another kind than its ports. -/
def mislabelled : Graph := { linked with edges := [⟨"e", .data, ⟨"a", "out"⟩, ⟨"b", "in"⟩⟩] }

theorem parse_mislabelled : parse (mislabelled.render none) = .ok mislabelled := by
  have configs : ∀ n ∈ mislabelled.nodes, (Json.obj n.config).Legible (Json.documentDepth - 3) := by
    simp only [mislabelled, linked, List.forall_mem_cons]
    exact ⟨.obj (by simp) (by simp), .obj (by simp) (by simp), by simp⟩
  refine (parse_written configs none).mpr ⟨?_, rfl⟩
  simp [mislabelled, linked, Placed, Node.Placed]

def desk : CommandLine.Place := ⟨⟨[("g", mislabelled.render none)], []⟩, .steady (.int 0), 0⟩

theorem read?_desk : desk.files.read? "g" = .ok (some (mislabelled.render none)) := by
  have path : CommandLine.normalPath "g" = "g" := by cbv
  have plain : "g".contains '\x00' = false := by cbv
  simp only [CommandLine.Files.read?, path, plain]
  rfl

theorem verdicts_agree_mislabelled : mislabelled.nodes = linked.nodes ∧
    (mislabelled.connect ⟨"a", "out"⟩ ⟨"b", "in"⟩ none "f").map Prod.snd =
      (linked.connect ⟨"a", "out"⟩ ⟨"b", "in"⟩ none "f").map Prod.snd ∧
    ∃ o, desk.call ["check", "g"] = .exits o ∧ o.code = 1 := by
  have nodes := (verdicts_agree linked).2.2.1 mislabelled rfl ⟨"a", "out"⟩ ⟨"b", "in"⟩ none "f"
  have asked : CommandLine.read ["check", "g"] = .ok (.check "g") := rfl
  obtain ⟨o, ends, code⟩ := (verdicts_agree mislabelled).2.2.2 desk _ _ _ asked read?_desk parse_mislabelled
  have broken : ¬ ∀ e ∈ mislabelled.edges, mislabelled.Obeys e := by decide
  rw [if_neg broken] at code
  exact ⟨rfl, nodes, o, ends, code⟩

/-- Taking out an added edge leaves all but the edges of its id. So it undoes the addition if and only if
no edge had that id before. -/
theorem disconnect_connect {g g' : Graph} {source target : Endpoint} {id fresh : String} {made : Edge}
    (accepted : g.connect source target (some id) fresh = .ok (g', made)) :
    (id ≠ "" → made.id = id) ∧
    g'.disconnect made.id = { g with edges := g.edges.filter fun e => e.id != made.id } ∧
    (g'.disconnect made.id = g ↔ ∀ e ∈ g.edges, e.id ≠ made.id) := by
  obtain ⟨gains, named⟩ := gains_connect accepted
  have left : g'.disconnect made.id = { g with edges := g.edges.filter fun e => e.id != made.id } := by
    simp [gains.graph, disconnect]
  have spared : g'.disconnect made.id = g ↔ (g.edges.filter fun e => e.id != made.id) = g.edges := by
    rw [left]
    exact ⟨congrArg Graph.edges, fun same => by rw [same]⟩
  refine ⟨named id rfl, left, ?_⟩
  simp [spared]

theorem disconnect_connect_linked : ∃ g' made, linked.connect ⟨"a", "out"⟩ ⟨"b", "in"⟩ (some "f") "" = .ok (g', made) ∧
    g'.disconnect "f" = linked := by
  have accepted : linked.connect ⟨"a", "out"⟩ ⟨"b", "in"⟩ (some "f") "" = .ok (_, _) := rfl
  exact ⟨_, _, accepted, (disconnect_connect accepted).2.2.mpr (by decide)⟩

/-- The edge that was there has the id of the new one and is taken out with it. -/
theorem disconnect_takes_twin : ¬ ∀ (g g' : Graph) (source target : Endpoint) (id fresh : String) (made : Edge),
    g.connect source target (some id) fresh = .ok (g', made) →
      (g'.disconnect made.id).nodes = g.nodes ∧ (g'.disconnect made.id).edges = g.edges := by
  intro undoes
  have left := (undoes linked _ ⟨"a", "out"⟩ ⟨"b", "in"⟩ "e" "" _ rfl).2
  exact absurd left (by decide)

end Graph

end ActionGraph
