import ActionGraph.Host.Subscription
import ActionGraph.Environment

/-!
Listeners. Every trigger node of a graph has one in each run of the graph; two listeners are the
same handler only if they belong to the same run and the same place among its nodes.
-/

namespace ActionGraph

structure Listener where
  run : Nat
  index : Nat
  origin : Endpoint
  eventPort : Endpoint
  eventClass : String
  deriving DecidableEq, Repr

structure Subscription where
  channel : Channel
  listener : Listener
  deriving DecidableEq, Repr

namespace Environment

def subscription? (env : Environment) (run : Nat) (node : Node) (index : Nat) : Option Subscription :=
  (env.repertoire.trigger? node).map fun t =>
    let eventClass := t.2.eventClassOf node
    ⟨⟨t.2.selectorOf node, eventClass⟩,
      ⟨run, index, ⟨node.id, t.1.execOut⟩, ⟨node.id, t.2.eventPort⟩, eventClass⟩⟩

/-- The subscriptions that the trigger nodes ask for, in their order. -/
def wanted (env : Environment) (run : Nat) : List Subscription :=
  env.graph.nodes.zipIdx.filterMap fun n => env.subscription? run n.1 n.2

end Environment

end ActionGraph
