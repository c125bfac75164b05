import ActionGraph.Graph.Basic
import ActionGraph.Value.Number

/-!
What a node does, as data: a tree of requests to the run it belongs to. An action decides nothing
about scheduling; whoever runs it answers one request after the other and may let other pulses go
on between a request and its answer.
-/

namespace ActionGraph

inductive Request where
  /-- Hands an observation to the log sink. -/
  | log (message : String) (data : Value)
  /-- Writes one line of diagnostics. -/
  | diagnose (line : String)
  | cached (port : Endpoint)
  | publish (port : Endpoint) (v : Value)
  | lastEvent
  /-- Reads the clock, in seconds. -/
  | clock
  | mount (id : String)
  | create (kind : String) (params : List (String × Value))
  /-- Animates and waits until the animation has settled. -/
  | animate (handle keyframes duration : Value)
  | destroy (handle : Value)
  /-- Lets everything else that is ready go on first. -/
  | pause

def Request.Answer : Request → Type
  | .log .. => Unit
  | .diagnose _ => Unit
  | .cached _ => Value
  | .publish .. => Unit
  | .lastEvent => Option Snapshot
  | .clock => Except Fault Value
  | .mount _ => Except Fault Value
  | .create .. => Except Fault Value
  | .animate .. => Except Fault Unit
  | .destroy _ => Except Fault Unit
  | .pause => Unit

inductive Action (α : Type) : Type where
  | done (result : α)
  | failed (fault : Fault)
  | ask (request : Request) (next : request.Answer → Action α)

namespace Action

variable {α β : Type}

/-- One action after the other. A fault ends both. -/
def andThen (a : Action α) (f : α → Action β) : Action β :=
  match a with
  | .done x => f x
  | .failed e => .failed e
  | .ask r next => .ask r fun x => (next x).andThen f

instance : Monad Action where
  pure := .done
  bind := andThen

/-- An action that does not fail: its fault becomes its result. -/
def attempt : Action α → Action (Except Fault α)
  | .done x => .done (.ok x)
  | .failed e => .done (.error e)
  | .ask r next => .ask r fun x => (next x).attempt

def ofExcept : Except Fault α → Action α
  | .ok x => .done x
  | .error e => .failed e

def request (r : Request) : Action r.Answer := .ask r .done

def log (message : String) (data : Value) : Action Unit := request (.log message data)

def diagnose (line : String) : Action Unit := request (.diagnose line)

def cached (port : Endpoint) : Action Value := request (.cached port)

def publish (port : Endpoint) (v : Value) : Action Unit := request (.publish port v)

def lastEvent : Action (Option Snapshot) := request .lastEvent

def mount (id : String) : Action Value :=
  .ask (.mount id) fun (r : Except Fault Value) => ofExcept r

def create (kind : String) (params : List (String × Value)) : Action Value :=
  .ask (.create kind params) fun (r : Except Fault Value) => ofExcept r

def animate (handle keyframes duration : Value) : Action (Except Fault Unit) :=
  request (.animate handle keyframes duration)

def destroy (handle : Value) : Action Unit :=
  .ask (.destroy handle) fun (r : Except Fault Unit) => ofExcept r

def pauses : Nat → Action Unit
  | 0 => .done ()
  | n + 1 => .ask .pause fun _ => pauses n

@[simp] theorem done_andThen (x : α) (f : α → Action β) : (Action.done x).andThen f = f x := rfl

@[simp] theorem failed_andThen (e : Fault) (f : α → Action β) :
    (Action.failed e : Action α).andThen f = .failed e := rfl

@[simp] theorem andThen_done (a : Action α) : a.andThen .done = a := by
  induction a with
  | done x => rfl
  | failed e => rfl
  | ask r next ih => simp only [andThen, ih]

theorem andThen_assoc {γ : Type} (a : Action α) (f : α → Action β) (g : β → Action γ) :
    (a.andThen f).andThen g = a.andThen fun x => (f x).andThen g := by
  induction a with
  | done x => rfl
  | failed e => rfl
  | ask r next ih => simp only [andThen, ih]

end Action

end ActionGraph
