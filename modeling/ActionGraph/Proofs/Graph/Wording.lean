import ActionGraph.Graph.Document
import ActionGraph.Proofs.Validation.Wording
import Mathlib.Data.List.Permutation

/-!
The wording of a graph's document makes no difference to what it is read as. An alias and the name it
stands for, unknown fields and the order of fields may change in every object of a document; the graph
stays the same, and so do the errors, except that they are found under the names that are there.
-/

namespace ActionGraph

open Wording

variable {ms ms' : Members} {shift : Shift} {j j' j'' : Json} {text text' : String}

theorem Wording.Respects.model {α : Type} {fields : List Field} {read : Members → Validated α}
    (respects : ∀ ms ms' shift, Edit fields ms ms' shift → read ms' = (read ms).shifted shift) :
    Respects (Model fields) (Json.model read) := by
  rintro j j' shift ⟨edit⟩
  exact respects _ _ _ edit

theorem Json.readValue_nested (fuel depth : Nat) (rest : List Char) :
    readValue fuel depth (List.replicate (depth + 1) '[' ++ rest) = none := by
  induction depth generalizing fuel with
  | zero => cases fuel <;> rfl
  | succ depth ih =>
    match fuel with
    | 0 => rfl
    | 1 => rfl
    | fuel + 2 =>
      have items : readItems (fuel + 1) depth (List.replicate (depth + 1) '[' ++ rest) = none := by
        rw [readItems, ih]
        rfl
      exact congrArg (Option.map fun r => (Json.arr r.1, r.2)) items

theorem Json.parse?_nested (rest : List Char) : parse? documentDepth
    (String.ofList ("\x7b\"x\":".toList ++ (List.replicate documentDepth '[' ++ rest))) = none := by
  have unread (fuel : Nat) :
      readValue fuel documentDepth ("\x7b\"x\":".toList ++ (List.replicate documentDepth '[' ++ rest)) = none := by
    match fuel with
    | 0 => rfl
    | 1 => rfl
    | fuel + 2 =>
      have value := readValue_nested fuel 199 rest
      have members : readMembers (fuel + 1) 199 ("\"x\":".toList ++ (List.replicate 200 '[' ++ rest)) = none := by
        change (readValue fuel 199 (List.replicate 200 '[' ++ rest)).bind _ = none
        rw [value]
        rfl
      exact congrArg (Option.map fun r => (Json.obj (Keyed.ofList r.1), r.2)) members
  rw [parse?, String.toList_ofList, unread]

namespace Position

def fields : List Field := [⟨"x", [], untouched⟩, ⟨"y", [], untouched⟩]

theorem distinct_fields : Distinct fields := by
  unfold Distinct
  decide

theorem ofMembers_edited (edit : Edit fields ms ms' shift) : ofMembers ms' = (ofMembers ms).shifted shift := by
  have x : Json.optional ms' "x" [] 0 Json.number = _ :=
    edit.optional distinct_fields (by simp [fields]) (respects_untouched _) 0
  have y : Json.optional ms' "y" [] 0 Json.number = _ :=
    edit.optional distinct_fields (by simp [fields]) (respects_untouched _) 0
  rw [ofMembers, ofMembers, x, y, Validated.shifted_seq, Validated.shifted_map]

end Position

namespace Port

def fields : List Field :=
  [⟨"id", [], untouched⟩, ⟨"kind", [], untouched⟩, ⟨"direction", [], untouched⟩, ⟨"name", [], untouched⟩,
    ⟨"dataType", ["data_type"], untouched⟩, ⟨"required", [], untouched⟩]

theorem distinct_fields : Distinct fields := by
  unfold Distinct
  decide

theorem ofMembers_edited (edit : Edit fields ms ms' shift) : ofMembers ms' = (ofMembers ms).shifted shift := by
  have id : Json.required ms' "id" [] Json.text = _ :=
    edit.required distinct_fields (by simp [fields]) (respects_untouched _)
  have kind : Json.required ms' "kind" [] PortKind.ofJson = _ :=
    edit.required distinct_fields (by simp [fields]) (respects_untouched _)
  have direction : Json.required ms' "direction" [] Direction.ofJson = _ :=
    edit.required distinct_fields (by simp [fields]) (respects_untouched _)
  have name : Json.nullable ms' "name" [] Json.text = _ :=
    edit.nullable distinct_fields (by simp [fields]) (respects_untouched _)
  have dataType : Json.nullable ms' "dataType" ["data_type"] Json.text = _ :=
    edit.nullable distinct_fields (by simp [fields]) (respects_untouched _)
  have required : Json.optional ms' "required" [] false (fun j => Validated.truth j.toValue) = _ :=
    edit.optional distinct_fields (by simp [fields]) (respects_untouched _) false
  rw [ofMembers, ofMembers, id, kind, direction, name, dataType, required]
  simp only [Validated.shifted_seq, Validated.shifted_map]

end Port

namespace Node

def fields : List Field :=
  [⟨"id", [], untouched⟩, ⟨"type", [], untouched⟩, ⟨"title", [], untouched⟩, ⟨"position", [], Model Position.fields⟩,
    ⟨"config", [], untouched⟩, ⟨"ports", [], Item (Model Port.fields)⟩]

theorem distinct_fields : Distinct fields := by
  unfold Distinct
  decide

theorem ofMembers_edited (edit : Edit fields ms ms' shift) : ofMembers ms' = (ofMembers ms).shifted shift := by
  have id : Json.required ms' "id" [] Json.text = _ :=
    edit.required distinct_fields (by simp [fields]) (respects_untouched _)
  have type : Json.required ms' "type" [] Json.text = _ :=
    edit.required distinct_fields (by simp [fields]) (respects_untouched _)
  have title : Json.nullable ms' "title" [] Json.text = _ :=
    edit.nullable distinct_fields (by simp [fields]) (respects_untouched _)
  have position : Json.nullable ms' "position" [] (Json.model Position.ofMembers) = _ :=
    edit.nullable distinct_fields (by simp [fields]) (Respects.model fun _ _ _ => Position.ofMembers_edited).nullOr
  have config : Json.optional ms' "config" [] [] Json.settings = _ :=
    edit.optional distinct_fields (by simp [fields]) (respects_untouched _) []
  have ports : Json.optional ms' "ports" [] [] (Json.items (Json.model Port.ofMembers)) = _ :=
    edit.optional distinct_fields (by simp [fields]) (Respects.model fun _ _ _ => Port.ofMembers_edited).items []
  rw [ofMembers, ofMembers, id, type, title, position, config, ports]
  simp only [Validated.shifted_seq, Validated.shifted_map]

end Node

namespace Endpoint

def fields : List Field := [⟨"nodeId", ["node_id"], untouched⟩, ⟨"portId", ["port_id"], untouched⟩]

theorem distinct_fields : Distinct fields := by
  unfold Distinct
  decide

theorem ofMembers_edited (edit : Edit fields ms ms' shift) : ofMembers ms' = (ofMembers ms).shifted shift := by
  have node : Json.required ms' "nodeId" ["node_id"] Json.text = _ :=
    edit.required distinct_fields (by simp [fields]) (respects_untouched _)
  have port : Json.required ms' "portId" ["port_id"] Json.text = _ :=
    edit.required distinct_fields (by simp [fields]) (respects_untouched _)
  rw [ofMembers, ofMembers, node, port, Validated.shifted_seq, Validated.shifted_map]

end Endpoint

namespace Edge

def fields : List Field :=
  [⟨"id", [], untouched⟩, ⟨"kind", [], untouched⟩, ⟨"from", ["source"], Model Endpoint.fields⟩,
    ⟨"to", ["target"], Model Endpoint.fields⟩]

theorem distinct_fields : Distinct fields := by
  unfold Distinct
  decide

theorem ofMembers_edited (edit : Edit fields ms ms' shift) : ofMembers ms' = (ofMembers ms).shifted shift := by
  have endpoint : Respects (Model Endpoint.fields) (Json.model Endpoint.ofMembers) :=
    .model fun _ _ _ => Endpoint.ofMembers_edited
  have id : Json.required ms' "id" [] Json.text = _ :=
    edit.required distinct_fields (by simp [fields]) (respects_untouched _)
  have kind : Json.required ms' "kind" [] PortKind.ofJson = _ :=
    edit.required distinct_fields (by simp [fields]) (respects_untouched _)
  have source : Json.required ms' "from" ["source"] (Json.model Endpoint.ofMembers) = _ :=
    edit.required distinct_fields (by simp [fields]) endpoint
  have target : Json.required ms' "to" ["target"] (Json.model Endpoint.ofMembers) = _ :=
    edit.required distinct_fields (by simp [fields]) endpoint
  rw [ofMembers, ofMembers, id, kind, source, target]
  simp only [Validated.shifted_seq, Validated.shifted_map]

end Edge

namespace Graph

def fields : List Field :=
  [⟨"schemaVersion", ["schema_version"], untouched⟩, ⟨"graphId", ["graph_id"], untouched⟩, ⟨"name", [], untouched⟩,
    ⟨"nodes", [], Item (Model Node.fields)⟩, ⟨"edges", [], Item (Model Edge.fields)⟩]

theorem distinct_fields : Distinct fields := by
  unfold Distinct
  decide

theorem ofMembers_edited (edit : Edit fields ms ms' shift) : ofMembers ms' = (ofMembers ms).shifted shift := by
  have schemaVersion : Json.optional ms' "schemaVersion" ["schema_version"] currentSchema Json.text = _ :=
    edit.optional distinct_fields (by simp [fields]) (respects_untouched _) currentSchema
  have graphId : Json.nullable ms' "graphId" ["graph_id"] Json.text = _ :=
    edit.nullable distinct_fields (by simp [fields]) (respects_untouched _)
  have name : Json.nullable ms' "name" [] Json.text = _ :=
    edit.nullable distinct_fields (by simp [fields]) (respects_untouched _)
  have nodes : Json.optional ms' "nodes" [] [] (Json.items (Json.model Node.ofMembers)) = _ :=
    edit.optional distinct_fields (by simp [fields]) (Respects.model fun _ _ _ => Node.ofMembers_edited).items []
  have edges : Json.optional ms' "edges" [] [] (Json.items (Json.model Edge.ofMembers)) = _ :=
    edit.optional distinct_fields (by simp [fields]) (Respects.model fun _ _ _ => Edge.ofMembers_edited).items []
  rw [ofMembers, ofMembers, schemaVersion, graphId, name, nodes, edges]
  simp only [Validated.shifted_seq, Validated.shifted_map]

/-- A document in other words, after any number of changes to its objects, and where its errors are then. -/
inductive Reworded : Json → Json → Shift → Prop
  | same (j : Json) : Reworded j j id
  | further {j j' j'' : Json} {shift shift' : Shift} : Reworded j j' shift → Model fields j' j'' shift' →
    Reworded j j'' (shift' ∘ shift)

theorem Reworded.read (reworded : Reworded j j' shift) :
    Json.model ofMembers j' = (Json.model ofMembers j).shifted shift := by
  induction reworded with
  | same => exact (Validated.shifted_id _).symm
  | further _ change ih =>
    have respects : Respects (Model fields) (Json.model ofMembers) := .model fun _ _ _ => ofMembers_edited
    rw [respects _ _ _ change, ih, Validated.shifted_shifted]

/-- The names that fields have besides their first ones, which come after them here. -/
def otherNames : List (String × String) :=
  [("schema_version", "schemaVersion"), ("graph_id", "graphId"), ("data_type", "dataType"), ("node_id", "nodeId"),
    ("port_id", "portId"), ("source", "from"), ("target", "to")]

def firstName (name : String) : String := (Keyed.get? name otherNames).getD name

theorem nominally_model : Nominally firstName (Model fields) := by
  have untouched := nominally_untouched firstName
  have position : Nominally firstName (Model Position.fields) :=
    .model (by decide) (by simp [Position.fields, untouched])
  have port : Nominally firstName (Model Port.fields) := .model (by decide) (by simp [Port.fields, untouched])
  have node : Nominally firstName (Model Node.fields) :=
    .model (by decide) (by simp [Node.fields, untouched, position, port.item])
  have endpoint : Nominally firstName (Model Endpoint.fields) :=
    .model (by decide) (by simp [Endpoint.fields, untouched])
  have edge : Nominally firstName (Model Edge.fields) :=
    .model (by decide) (by simp [Edge.fields, untouched, endpoint])
  exact .model (by decide) (by simp [fields, untouched, node.item, edge.item])

theorem Reworded.nominal (reworded : Reworded j j' shift) : Nominal firstName shift := by
  induction reworded with
  | same => exact fun _ => rfl
  | further _ change ih =>
    intro path
    rw [Function.comp_apply, nominally_model _ _ _ change, ih]

/-- The reading of a text does not depend on its wording, provided that it can be read at all. -/
theorem parse_reworded (read : Json.parse? Json.documentDepth text = some j)
    (read' : Json.parse? Json.documentDepth text' = some j') (reworded : Reworded j j' shift) :
    parse text' = (parse text).shifted shift ∧ Nominal firstName shift := by
  refine ⟨?_, reworded.nominal⟩
  rw [parse, parse, Json.document, Json.document, read, read']
  exact reworded.read

/-- A graph with one edge that leads from no port to no port. -/
def wordedText : String := "\x7b\"edges\":[\x7b\"id\":\"e\",\"kind\":\"exec\",\"from\":5\x7d]\x7d"

/-- The same in other words. -/
def rewordedText : String :=
  "\x7b\"version\":1,\"edges\":[\x7b\"kind\":\"exec\",\"id\":\"e\",\"source\":5\x7d]\x7d"

/-- A field that nothing reads is added, two fields of the edge change places, and the third goes by its
other name. -/
theorem parse_reworded_edge : ∃ j j' shift, Json.parse? Json.documentDepth wordedText = some j ∧
    Json.parse? Json.documentDepth rewordedText = some j' ∧ Reworded j j' shift ∧
    parse rewordedText = (parse wordedText).shifted shift ∧ Nominal firstName shift := by
  let edge : Members := [("id", .str "e"), ("kind", .str "exec"), ("from", .int 5)]
  let edge' : Members := [("kind", .str "exec"), ("id", .str "e"), ("from", .int 5)]
  let edge'' : Members := [("kind", .str "exec"), ("id", .str "e"), ("source", .int 5)]
  let version : String × Json := ("version", .int 1)
  have added : Edit fields [("edges", .arr [.obj edge])] [version, ("edges", .arr [.obj edge])] id :=
    @Edit.idle fields [] [] [version] [("edges", .arr [.obj edge])]
      (List.forall_mem_singleton.mpr (.inl (by decide)))
  have within {e e' : Members} {shift : Shift} (edit : Edit Edge.fields e e' shift) :
      Edit fields [version, ("edges", .arr [.obj e])] [version, ("edges", .arr [.obj e'])]
        (under (.field "edges") (under (.item 0) shift)) :=
    @Edit.inside fields [version] [] ⟨"edges", [], Item (Model Edge.fields)⟩ "edges" _ _ _ (by simp [fields])
      List.mem_cons_self (by decide) (@Item.within _ [] [] _ _ _ (.object edit))
  have swapped : Edit Edge.fields edge edge' id := .reordered (by decide) (.swap ..)
  have renamed : Edit Edge.fields edge' edge'' (renamed "from" "source") :=
    @Edit.renamed Edge.fields [("kind", .str "exec"), ("id", .str "e")] [] ⟨"from", ["source"], Model Endpoint.fields⟩
      "from" "source" (.int 5) (by simp [Edge.fields]) (by decide) (by decide) (by decide)
  have reworded : Reworded _ (.obj [version, ("edges", .arr [.obj edge''])]) _ :=
    .further (.further (.further (.same (.obj [("edges", .arr [.obj edge])])) (.object added))
      (.object (within swapped))) (.object (within renamed))
  have read : Json.parse? Json.documentDepth wordedText = some (.obj [("edges", .arr [.obj edge])]) := by cbv
  have read' : Json.parse? Json.documentDepth rewordedText =
      some (.obj [version, ("edges", .arr [.obj edge''])]) := by cbv
  exact ⟨_, _, _, read, read', reworded, parse_reworded read read' reworded⟩

/-- A document with an unknown field that holds lists within lists. -/
def nestedText : String :=
  String.ofList ("\x7b\"x\":".toList ++ (List.replicate 300 '[' ++ (List.replicate 300 ']' ++ ['\x7d'])))

/-- An error moves with the name of the field that it is in, and a field that nothing reads is read as
JSON all the same. -/
theorem parse_worded :
    parse wordedText = .invalid
      [⟨.model, [.field "edges", .item 0, .field "from"]⟩, ⟨.required, [.field "edges", .item 0, .field "to"]⟩] ∧
    parse rewordedText = .invalid
      [⟨.model, [.field "edges", .item 0, .field "source"]⟩, ⟨.required, [.field "edges", .item 0, .field "to"]⟩] ∧
    parse "\x7b\x7d" = .ok ⟨currentSchema, none, none, [], []⟩ ∧
    parse nestedText = .invalid [⟨.wellFormed, []⟩] := by
  have unread : Json.parse? Json.documentDepth nestedText = none :=
    Json.parse?_nested (List.replicate 100 '[' ++ (List.replicate 300 ']' ++ ['\x7d']))
  refine ⟨by cbv, by cbv, by cbv, ?_⟩
  rw [parse, Json.document, unread]
  rfl

end Graph

end ActionGraph
