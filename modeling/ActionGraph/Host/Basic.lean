import ActionGraph.Host.Tree
import ActionGraph.Host.Subscription
import ActionGraph.Value.Number

/-!
A host without a screen. It has targets to listen on, mounts and elements, and keeps a record of
the animations it was asked for. Handlers are of any type, so a host knows nothing of who listens.
-/

namespace ActionGraph

structure Animation where
  handle : Value
  keyframes : Value
  duration : Value

structure Host (η : Type) where
  /-- The factor that the time of every animation is multiplied by. If it is no number, every
  animation fails. -/
  timeScale : Value
  targets : List String
  mounts : List String
  created : List ElementRef
  tree : Tree
  animations : List Animation
  subscriptions : Subscriptions η

namespace Host

variable {η : Type}

def empty (timeScale : Value) : Host η := ⟨timeScale, [], [], [], .empty, [], .empty⟩

def addTarget (h : Host η) (selector : String) : Host η :=
  if selector ∈ h.targets then h else { h with targets := h.targets ++ [selector] }

def hasTarget (h : Host η) (selector : String) : Bool := decide (selector ∈ h.targets)

def subscribe (h : Host η) (c : Channel) (handler : η) : Host η :=
  { h with subscriptions := h.subscriptions.subscribe c handler }

def unsubscribe [DecidableEq η] (h : Host η) (c : Channel) (handler : η) : Host η :=
  { h with subscriptions := h.subscriptions.unsubscribe c handler }

/-- The handlers that an event reaches: those of its channel, if the target was added. -/
def listeners (h : Host η) (c : Channel) : List η :=
  if c.selector ∈ h.targets then h.subscriptions.handlers c else []

def payload (eventClass : String) (x y : Value) : Value :=
  .record [("type", .text eventClass), ("clientX", x), ("clientY", y)]

def mount (h : Host η) (id : String) : Host η × ElementRef :=
  (if id ∈ h.mounts then h else { h with mounts := h.mounts ++ [id] }, .mount id)

def nextElement (h : Host η) (kind : String) : ElementRef := .created (h.created.length + 1) kind

/-- The parameters of an element: all that it is made with, except its parent. -/
def ownParams (params : List (String × Value)) : List (String × Value) := params.filter fun p => p.1 != "parent"

def create (h : Host η) (kind : String) (params : List (String × Value)) : Host η × ElementRef :=
  let e := h.nextElement kind
  let tree := h.tree.set e (.detached (ownParams params))
  let tree := match Keyed.get? "parent" params with
    | some (.element p) => tree.append p e
    | _ => tree
  ({ h with tree := tree, created := h.created ++ [e] }, e)

/-- How long an animation takes, in seconds. A negative duration takes no time. -/
def seconds (h : Host η) (duration : Value) : Except Fault Float := do
  match Number.ofValue? duration with
  | some d => Value.scaled (← d.atLeastZero.div 1000) h.timeScale
  | none => .error (.notOrdered ">" "int" duration.qualifiedTypeName)

def record (h : Host η) (handle keyframes duration : Value) : Host η :=
  { h with animations := h.animations ++ [⟨handle, keyframes, duration⟩] }

/-- Why something that is no element cannot be taken out of what it names as its parent: its
parent's children, if there are any, are a list without it. -/
def strangerFault (parent : Value) : Fault :=
  let children : Option Value := match parent with
    | .element _ => some (.list [])
    | v => v.attribute? "children"
  match children with
  | none => .missingAttribute parent.qualifiedTypeName "children"
  | some (.list _) => .notListed
  | some v => .missingAttribute v.qualifiedTypeName "remove"

/-- Takes an element out of its parent. Of other things only those that name null as their parent
are taken for elements, and have none. -/
def destroy (h : Host η) : Value → Except Fault (Host η)
  | .element e => .ok { h with tree := h.tree.detach e }
  | v =>
    match v.attribute? "parent" with
    | none => .error (.missingAttribute v.qualifiedTypeName "parent")
    | some .null => .ok h
    | some parent => .error (strangerFault parent)

def append (h : Host η) : (parent child : Value) → Except Fault (Host η)
  | .element p, .element c => .ok { h with tree := h.tree.append p c }
  | .element _, v => .error (.missingAttribute v.qualifiedTypeName "parent")
  | v, _ => .error (.missingAttribute v.qualifiedTypeName "append")

def live (h : Host η) (mount : String) : List ElementRef :=
  if mount ∈ h.mounts then h.tree.children (.mount mount) else []

end Host

end ActionGraph
