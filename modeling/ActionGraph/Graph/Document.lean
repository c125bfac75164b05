import ActionGraph.Fault
import ActionGraph.Graph.Basic
import ActionGraph.Validation.Field
import ActionGraph.Json.Reader
import ActionGraph.Json.Writer

/-!
Graphs as JSON documents. Reading is lenient about the spelling of field names and ignores fields
it does not know; it reports every broken rule, field by field in declaration order. Writing gives
every field, in that order, under its first name.
-/

namespace ActionGraph

def Json.text (j : Json) : Validated String := Validated.text j.toValue

def Json.number (j : Json) : Validated Float := Validated.documentNumber j.toValue

namespace PortKind

def ofJson : Json → Validated PortKind
  | .str s => match ofName? s with
    | some k => .ok k
    | none => .broken .portKind
  | _ => .broken .portKind

end PortKind

namespace Direction

def ofJson : Json → Validated Direction
  | .str s => match ofName? s with
    | some d => .ok d
    | none => .broken .portDirection
  | _ => .broken .portDirection

end Direction

namespace Position

def ofMembers (ms : List (String × Json)) : Validated Position :=
  mk <$> Json.optional ms "x" [] 0 Json.number
    <*> Json.optional ms "y" [] 0 Json.number

def toJson (p : Position) : Json := .obj [("x", .float p.x), ("y", .float p.y)]

end Position

namespace Port

def ofMembers (ms : List (String × Json)) : Validated Port :=
  mk <$> Json.required ms "id" [] Json.text
    <*> Json.required ms "kind" [] PortKind.ofJson
    <*> Json.required ms "direction" [] Direction.ofJson
    <*> Json.nullable ms "name" [] Json.text
    <*> Json.nullable ms "dataType" ["data_type"] Json.text
    <*> Json.optional ms "required" [] false (fun j => Validated.truth j.toValue)

def toJson (p : Port) : Json :=
  .obj [("id", .str p.id), ("kind", .str p.kind.name), ("direction", .str p.direction.name),
    ("name", .ofText? p.name), ("dataType", .ofText? p.dataType), ("required", .bool p.required)]

end Port

/-- Checks an object with a reader of its members; everything else is no such object. -/
def Json.model {α : Type} (read : List (String × Json) → Validated α) : Json → Validated α
  | .obj ms => read ms
  | _ => .broken .model

/-- The settings of a node: any object. -/
def Json.settings : Json → Validated (List (String × Json))
  | .obj ms => .ok ms
  | _ => .broken .object

namespace Node

def ofMembers (ms : List (String × Json)) : Validated Node :=
  mk <$> Json.required ms "id" [] Json.text
    <*> Json.required ms "type" [] Json.text
    <*> Json.nullable ms "title" [] Json.text
    <*> Json.nullable ms "position" [] (Json.model Position.ofMembers)
    <*> Json.optional ms "config" [] [] Json.settings
    <*> Json.optional ms "ports" [] [] (Json.items (Json.model Port.ofMembers))

def toJson (n : Node) : Json :=
  .obj [("id", .str n.id), ("type", .str n.type), ("title", .ofText? n.title),
    ("position", (n.position.map Position.toJson).getD .null),
    ("config", .obj n.config), ("ports", .arr (n.ports.map Port.toJson))]

end Node

namespace Endpoint

def ofMembers (ms : List (String × Json)) : Validated Endpoint :=
  mk <$> Json.required ms "nodeId" ["node_id"] Json.text
    <*> Json.required ms "portId" ["port_id"] Json.text

def toJson (e : Endpoint) : Json := .obj [("nodeId", .str e.node), ("portId", .str e.port)]

end Endpoint

namespace Edge

def ofMembers (ms : List (String × Json)) : Validated Edge :=
  mk <$> Json.required ms "id" [] Json.text
    <*> Json.required ms "kind" [] PortKind.ofJson
    <*> Json.required ms "from" ["source"] (Json.model Endpoint.ofMembers)
    <*> Json.required ms "to" ["target"] (Json.model Endpoint.ofMembers)

def toJson (e : Edge) : Json :=
  .obj [("id", .str e.id), ("kind", .str e.kind.name), ("from", e.source.toJson), ("to", e.target.toJson)]

end Edge

namespace Graph

def ofMembers (ms : List (String × Json)) : Validated Graph :=
  mk <$> Json.optional ms "schemaVersion" ["schema_version"] currentSchema Json.text
    <*> Json.nullable ms "graphId" ["graph_id"] Json.text
    <*> Json.nullable ms "name" [] Json.text
    <*> Json.optional ms "nodes" [] [] (Json.items (Json.model Node.ofMembers))
    <*> Json.optional ms "edges" [] [] (Json.items (Json.model Edge.ofMembers))

def toJson (g : Graph) : Json :=
  .obj [("schemaVersion", .str g.schemaVersion), ("graphId", .ofText? g.graphId), ("name", .ofText? g.name),
    ("nodes", .arr (g.nodes.map Node.toJson)), ("edges", .arr (g.edges.map Edge.toJson))]

end Graph

namespace Snapshot

def ofMembers (ms : List (String × Json)) : Validated Snapshot :=
  mk <$> Json.required ms "class" ["event_class"] Json.text
    <*> Json.optional ms "x" [] 0 Json.number
    <*> Json.optional ms "y" [] 0 Json.number
    <*> Json.required ms "timestamp" [] Json.number

def toJson (s : Snapshot) : Json :=
  .obj [("class", .str s.eventClass), ("x", .float s.x), ("y", .float s.y), ("timestamp", .float s.timestamp)]

end Snapshot

def Json.document {α : Type} (read : List (String × Json) → Validated α) (text : String) : Validated α :=
  match Json.parse? Json.documentDepth text with
  | some j => Json.model read j
  | none => .broken .wellFormed

def Graph.parse (text : String) : Validated Graph := Json.document Graph.ofMembers text

def Graph.render (indent : Option Nat) (g : Graph) : String := g.toJson.render indent

def Graph.indent : Option Nat := some 2

/-- The indent that an unchecked value asks for: null for none at all, and else a count of spaces. -/
def Graph.indentOf : Value → Except Fault (Option Nat)
  | .null => .ok none
  | .bool b => .ok (some (if b then 1 else 0))
  | .int n =>
    if n < 0 then .error .negativeCount
    else if Int.pow 2 64 ≤ n then .error .countTooLarge
    else .ok (some n.toNat)
  | v => .error (.notWhole v.qualifiedTypeName)

end ActionGraph
