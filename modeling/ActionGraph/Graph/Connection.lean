import ActionGraph.Graph.Basic

/-!
Connecting ports. A connection that may not be made is answered by the reason, and the graph
stays as it was. The check looks at the nodes of a graph only, never at its edges.
-/

namespace ActionGraph

inductive Reason where
  | unspecified
  | unknownPort (missing : Endpoint)
  | directionMismatch
  | kindMismatch (source target : PortKind)
  | edgeKindMismatch (declared actual : PortKind)
  deriving DecidableEq, Repr

/-- A refused connection: its ends, the edge it concerns, and the reason. -/
structure Rejection where
  source : Endpoint
  target : Endpoint
  edgeId : Option String
  reason : Reason
  deriving DecidableEq, Repr

namespace Rejection

def ends (r : Rejection) : String := r.source.text ++ " → " ++ r.target.text

def kind (r : Rejection) : String :=
  match r.reason with
  | .unspecified => "ConnectionRejected"
  | .unknownPort _ => "UnknownPort"
  | .directionMismatch => "ConnectionDirectionMismatch"
  | .kindMismatch .. => "ConnectionKindMismatch"
  | .edgeKindMismatch .. => "EdgeKindMismatch"

def message (r : Rejection) : String :=
  match r.reason with
  | .unspecified => "Invalid connection " ++ r.ends
  | .unknownPort missing => "Unknown port " ++ missing.text ++ " in " ++ r.ends
  | .directionMismatch => "Connections must go from an output to an input: " ++ r.ends
  | .kindMismatch source target =>
    "Connector kinds must match (" ++ source.name ++ " ≠ " ++ target.name ++ "): " ++ r.ends
  | .edgeKindMismatch declared actual =>
    "Edge " ++ r.edgeId.getD "None" ++ " is declared " ++ declared.name ++ " but connects " ++ actual.name ++ " ports"

end Rejection

namespace Graph

/-- The kind two ports share, or why they cannot be connected. A missing source is reported before
a missing target, then the directions, then the kinds. -/
def kindBetween (g : Graph) (source target : Endpoint) (edgeId : Option String) :
    Except Rejection PortKind :=
  let reject (reason : Reason) : Except Rejection PortKind := .error ⟨source, target, edgeId, reason⟩
  match g.port? source, g.port? target with
  | none, _ => reject (.unknownPort source)
  | some _, none => reject (.unknownPort target)
  | some a, some b =>
    if a.direction ≠ .outward ∨ b.direction ≠ .inward then reject .directionMismatch
    else if a.kind ≠ b.kind then reject (.kindMismatch a.kind b.kind)
    else .ok a.kind

/-- The edge that would connect two ports. An empty id counts as none given, and `fresh` is then
used. -/
def newEdge (g : Graph) (source target : Endpoint) (edgeId : Option String) (fresh : String) :
    Except Rejection Edge :=
  (g.kindBetween source target edgeId).map fun kind =>
    let id := match edgeId with
      | some id => if id = "" then fresh else id
      | none => fresh
    ⟨id, kind, source, target⟩

def connect (g : Graph) (source target : Endpoint) (edgeId : Option String) (fresh : String) :
    Except Rejection (Graph × Edge) :=
  (g.newEdge source target edgeId fresh).map fun edge => ({ g with edges := g.edges ++ [edge] }, edge)

def disconnect (g : Graph) (edgeId : String) : Graph :=
  { g with edges := g.edges.filter fun e => e.id != edgeId }

def edgeProblem? (g : Graph) (e : Edge) : Option Rejection :=
  match g.kindBetween e.source e.target (some e.id) with
  | .error r => some r
  | .ok kind => if kind = e.kind then none else some ⟨e.source, e.target, some e.id, .edgeKindMismatch e.kind kind⟩

def problems (g : Graph) : List Rejection := g.edges.filterMap g.edgeProblem?

end Graph

end ActionGraph
