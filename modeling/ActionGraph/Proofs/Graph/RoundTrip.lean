import ActionGraph.Proofs.Graph.Document

/-!
Which graphs are read back from their own text, and as what. A graph whose floats are numbers and whose
integers are not too long is read back as it was. A graph that was itself read from a text may have other
floats: in its settings they become null, and in a position they make its own text one that is refused.
-/

namespace ActionGraph

open Json

namespace Graph

/-- A graph with settings that a text can hold is read back exactly if all its positions are numbers. -/
theorem parse_written {g h : Graph} (configs : ∀ n ∈ g.nodes, (Json.obj n.config).Legible (documentDepth - 3))
    (indent : Option Nat) : parse (g.render indent) = .ok h ↔ g.Placed ∧ h = g.written := by
  have legible : g.toJson.Legible documentDepth := @Graph.legible 195 g configs
  rw [parse, Json.document, render, parse?_render legible]
  exact reload

theorem configs_of_parse {g : Graph} {text : String} (parsed : parse text = .ok g) :
    ∀ n ∈ g.nodes, (Json.obj n.config).Legible (documentDepth - 3) := by
  unfold parse Json.document at parsed
  split at parsed
  · rename_i j read
    have legible : j.Legible documentDepth := legible_of_parse? read
    exact @configs_legible 195 g j legible parsed
  · cases parsed

/-- A graph is read back from its text as it was, whatever the indent: if its floats are numbers, and its
settings are such as a text can hold. -/
theorem parse_render {g : Graph} (placed : g.Placed) (finite : ∀ n ∈ g.nodes, (Json.obj n.config).Finite)
    (legible : ∀ n ∈ g.nodes, (Json.obj n.config).Legible (documentDepth - 3)) (indent : Option Nat) :
    parse (g.render indent) = .ok g := by
  rw [parse_written legible]
  exact ⟨placed, (written_of_finite finite).symm⟩

/-- A graph with texts to escape and with nested settings. -/
def annotated : Graph where
  schemaVersion := currentSchema
  graphId := none
  name := some "a \"quoted\" name \\ and a tab\t"
  nodes := [⟨"start", "trigger.onEvent", none, some ⟨1.5, -0⟩,
    [("limits", .arr [.int (-1000000007), .float 0.1, .obj []]), ("note", .null)],
    [⟨"exec_out", .exec, .outward, some "", none, true⟩]⟩]
  edges := [⟨"loop", .exec, ⟨"start", "exec_out"⟩, ⟨"start", "exec_out"⟩⟩]

theorem parse_render_annotated : annotated.Placed ∧ (∀ n ∈ annotated.nodes, (Json.obj n.config).Finite) ∧
    (∀ n ∈ annotated.nodes, (Json.obj n.config).Legible (documentDepth - 3)) ∧
    parse (annotated.render (some 3)) = .ok annotated := by
  have placed : annotated.Placed := by
    simp only [Placed, Node.Placed, annotated, List.mem_singleton, forall_eq, Option.mem_some, forall_eq', Position.Finite]
    decide
  have finite : ∀ n ∈ annotated.nodes, (Json.obj n.config).Finite := by
    simp only [annotated, List.mem_singleton, forall_eq]
    have limits : (Json.arr [.int (-1000000007), .float 0.1, .obj []]).Finite := by
      apply Json.Finite.arr
      simp only [List.forall_mem_cons]
      exact ⟨.int _, .float (by decide), .obj (by simp), by simp⟩
    apply Json.Finite.obj
    simp only [List.forall_mem_cons]
    exact ⟨limits, .null, by simp⟩
  have legible : ∀ n ∈ annotated.nodes, (Json.obj n.config).Legible (documentDepth - 3) := by
    simp only [annotated, List.mem_singleton, forall_eq]
    have limits : (Json.arr [.int (-1000000007), .float 0.1, .obj []]).Legible (194 + 2) := by
      apply Json.Legible.arr
      simp only [List.forall_mem_cons]
      exact ⟨.int (by decide), .float _, .obj (by simp) (by simp), by simp⟩
    apply @Json.Legible.obj (194 + 2)
    · simp
    · simp only [List.forall_mem_cons]
      exact ⟨limits, .null, by simp⟩
  exact ⟨placed, finite, legible, parse_render placed finite legible (some 3)⟩

/-- A graph with an integer of 4301 digits. -/
def oversized : Graph where
  schemaVersion := currentSchema
  graphId := none
  name := none
  nodes := [⟨"start", "trigger.onEvent", none, none, [("limit", .int (10 ^ 4300))], []⟩]
  edges := []

/-- Its integer is written in full and then too long to be read. And there are indents that are not accepted. -/
theorem parse_oversized : oversized.Placed ∧ (∀ n ∈ oversized.nodes, (Json.obj n.config).Finite) ∧
    parse (oversized.render Graph.indent) ≠ .ok oversized ∧ indentOf (.int (2 ^ 64)) = .error .countTooLarge := by
  refine ⟨?_, ?_, fun parsed => ?_, by rfl⟩
  · intro n listed p placed
    obtain rfl := List.mem_singleton.mp listed
    cases placed
  · intro n listed
    obtain rfl := List.mem_singleton.mp listed
    apply Json.Finite.obj
    simp only [List.forall_mem_cons]
    exact ⟨.int _, by simp⟩
  · have legible := configs_of_parse parsed _ List.mem_cons_self
    cases legible with
    | obj _ legible =>
      exact Json.not_legible_pow (by decide) (legible ("limit", .int (10 ^ 4300)) List.mem_cons_self)

/-- The graph that is read from a text is read again from its own text if its positions are numbers, and not
otherwise. It is the same then but for the other floats in its settings. -/
theorem parse_again {g : Graph} {text : String} (parsed : parse text = .ok g) (indent : Option Nat) (h : Graph) :
    parse (g.render indent) = .ok h ↔ g.Placed ∧ h = g.written :=
  parse_written (configs_of_parse parsed) indent

/-- A text with a truth value for a coordinate and with a setting that is not a number. -/
def unboundedText : String :=
  "\x7b\"nodes\":[\x7b\"id\":\"a\",\"type\":\"t\",\"position\":\x7b\"x\":true\x7d,\"config\":\x7b\"limit\":NaN\x7d\x7d]\x7d"

def unbounded : Graph where
  schemaVersion := currentSchema
  graphId := none
  name := none
  nodes := [⟨"a", "t", none, some ⟨1, 0⟩, [("limit", .float Binary64.nan)], []⟩]
  edges := []

/-- Its setting is null from then on. -/
theorem parse_again_unbounded : parse unboundedText = .ok unbounded ∧
    parse (unbounded.render Graph.indent) = .ok { unbounded with
      nodes := [⟨"a", "t", none, some ⟨1, 0⟩, [("limit", .null)], []⟩] } := by
  have parsed : parse unboundedText = .ok unbounded := by cbv
  have placed : unbounded.Placed := by
    simp only [Placed, Node.Placed, unbounded, List.mem_singleton, forall_eq, Option.mem_some, forall_eq', Position.Finite]
    decide
  have lost : unbounded.written = { unbounded with nodes := [⟨"a", "t", none, some ⟨1, 0⟩, [("limit", .null)], []⟩] } := by
    simp [written, Node.written, unbounded, writtenMembers, Json.written, writtenFloat_other (x := Binary64.nan) (by decide)]
  exact ⟨parsed, (parse_again parsed Graph.indent _).mpr ⟨placed, lost.symm⟩⟩

/-- A text with a coordinate that is not a number. -/
def adriftText : String :=
  "\x7b\"nodes\":[\x7b\"id\":\"a\",\"type\":\"t\",\"position\":\x7b\"x\":NaN\x7d\x7d]\x7d"

def adrift : Graph where
  schemaVersion := currentSchema
  graphId := none
  name := none
  nodes := [⟨"a", "t", none, some ⟨Binary64.nan, 0⟩, [], []⟩]
  edges := []

/-- It is accepted, and written as null, which is not. -/
theorem parse_adrift : parse adriftText = .ok adrift ∧ ¬ ∃ h, parse (adrift.render Graph.indent) = .ok h := by
  have parsed : parse adriftText = .ok adrift := by cbv
  refine ⟨parsed, ?_⟩
  rintro ⟨h, again⟩
  have placed := ((parse_written (configs_of_parse parsed) Graph.indent).mp again).1
  have x := (placed _ List.mem_cons_self ⟨Binary64.nan, 0⟩ rfl).1
  exact absurd x (by decide)

end Graph

end ActionGraph
