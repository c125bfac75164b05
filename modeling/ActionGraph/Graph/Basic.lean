import ActionGraph.Value.Basic

/-!
Action graphs: nodes with typed ports, and edges from port to port, both in declaration order.
Ids need not be unique; a look-up takes the first match.
-/

namespace ActionGraph

/-- What a port carries. Only ports of one kind may be connected. -/
inductive PortKind where
  | exec
  | data
  | tool
  | resource
  | error
  deriving DecidableEq, Repr

namespace PortKind

def name : PortKind → String
  | .exec => "exec"
  | .data => "data"
  | .tool => "tool"
  | .resource => "resource"
  | .error => "error"

def all : List PortKind := [.exec, .data, .tool, .resource, .error]

def ofName? (s : String) : Option PortKind := all.find? fun k => k.name == s

end PortKind

inductive Direction where
  | inward
  | outward
  deriving DecidableEq, Repr

namespace Direction

def name : Direction → String
  | .inward => "in"
  | .outward => "out"

def ofName? (s : String) : Option Direction := [inward, outward].find? fun d => d.name == s

end Direction

structure Position where
  x : Float
  y : Float
  deriving DecidableEq

/-- A typed connector of a node. The data type is a hint for readers and is not enforced. -/
structure Port where
  id : String
  kind : PortKind
  direction : Direction
  name : Option String
  dataType : Option String
  required : Bool
  deriving DecidableEq, Repr

structure Node where
  id : String
  type : String
  title : Option String
  position : Option Position
  config : List (String × Json)
  ports : List Port

structure Endpoint where
  node : String
  port : String
  deriving DecidableEq, Repr

structure Edge where
  id : String
  kind : PortKind
  source : Endpoint
  target : Endpoint
  deriving DecidableEq, Repr

structure Graph where
  schemaVersion : String
  graphId : Option String
  name : Option String
  nodes : List Node
  edges : List Edge

def Graph.currentSchema : String := "CJ-GRAPH-0.1"

def Endpoint.text (e : Endpoint) : String := e.node ++ "." ++ e.port

namespace Node

def port? (n : Node) (id : String) : Option Port := n.ports.find? fun p => p.id == id

def setting? (n : Node) (key : String) : Option Value := (Keyed.get? key n.config).map Json.toValue

end Node

namespace Graph

def node? (g : Graph) (id : String) : Option Node := g.nodes.find? fun n => n.id == id

def port? (g : Graph) (e : Endpoint) : Option Port := (g.node? e.node).bind (·.port? e.port)

def execEdges (g : Graph) (e : Endpoint) : List Edge :=
  g.edges.filter fun edge => edge.kind == .exec && edge.source == e

/-- The edge that feeds an endpoint: the first declared, if there are more. -/
def incoming? (g : Graph) (e : Endpoint) : Option Edge := g.edges.find? fun edge => edge.target == e

end Graph

end ActionGraph
