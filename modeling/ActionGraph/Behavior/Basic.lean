import ActionGraph.Action

/-!
What a node type does. A behavior reads its inputs, performs an effect and gives outputs; it also
tells whether its outputs can be computed on demand and whether pulses run it.
-/

namespace ActionGraph

/-- When a node's outputs come to be: on demand, with an event, or when a pulse runs the node. -/
inductive Producer where
  | passive
  | event
  | active
  deriving DecidableEq, Repr

def Producer.name : Producer → String
  | .passive => "passive"
  | .event => "event"
  | .active => "active"

/-- How an input port is read: the wired value first, then a setting of the node, then a default. -/
structure Input where
  port : String
  setting : Option String
  default : Value
  coercion : Option Coercion

namespace Input

def wired (port : String) : Input := ⟨port, none, .null, none⟩

/-- A wired value as far as it counts: null does not when there is something to fall back to. -/
def counted (spec : Input) (wired : Value) : Value :=
  if wired.isNull && (spec.setting.isSome || !spec.default.isNull) then .absent else wired

def fallback (spec : Input) (node : Node) : Value :=
  match spec.setting.bind node.setting? with
  | none | some .null => .absent
  | some v => v

def found (spec : Input) (node : Node) (wired : Value) : Value :=
  let v := spec.counted wired
  let v := if v.isAbsent then spec.fallback node else v
  if v.isAbsent then spec.default else v

/-- The value an input has, given what is wired to it. Null is never coerced. -/
def value (spec : Input) (node : Node) (wired : Value) : Except Fault Value :=
  let v := spec.found node wired
  match spec.coercion with
  | some c => if v.isNull then .ok v else c.apply v spec.default
  | none => .ok v

end Input

abbrev Ports := List (String × Value)

def Ports.value (ports : Ports) (port : String) : Value := (Keyed.get? port ports).getD .null

/-- What behaviors know of the run they belong to: the mount to use when none is wired, and the
size of the view, in whose middle things appear when there is no event. -/
structure Settings where
  mountId : String
  width : Float
  height : Float
  deriving DecidableEq

def Settings.standard : Settings := ⟨"cj-ui-overlay", 1280, 720⟩

/-- What makes a behavior a trigger: the port its events appear on, and the selector and event
class it listens to unless its node names others. -/
structure Trigger where
  eventPort : String
  selector : String
  eventClass : String
  deriving DecidableEq, Repr

namespace Trigger

def selectorFor (t : Trigger) (setting : Option Value) : String := Value.textOr setting t.selector

def eventClassFor (t : Trigger) (setting : Option Value) : String := Value.textOr setting t.eventClass

def selectorOf (t : Trigger) (n : Node) : String := t.selectorFor (n.setting? "selector")

def eventClassOf (t : Trigger) (n : Node) : String := t.eventClassFor (n.setting? "eventType")

end Trigger

structure Behavior where
  name : String
  producer : Producer := .active
  /-- Whether pulses run nodes of this type. Finding that out may fail. -/
  executable : Except Fault Bool := .ok true
  execOut : String := "exec_out"
  inputs : List Input := []
  effect : Settings → Node → Ports → Action Ports := fun _ _ _ => .done []
  supply : Settings → Node → String → Action Value := fun _ _ _ => .done .absent
  trigger : Option Trigger := none

end ActionGraph
