import ActionGraph.Cache
import ActionGraph.Session.Outside

/-!
Performing an action as far as it goes without waiting. Most requests are answered at once. A
pause, an animation and, on a host that defers, a call for a mount or an element suspend the action,
and only there can anything else happen in between.
-/

namespace ActionGraph

/-- What a run keeps for itself: the published values and the last event. -/
structure Memory where
  cache : Cache
  lastEvent : Option Snapshot

def Memory.empty : Memory := ⟨.empty, none⟩

inductive Reply (α : Type) where
  | now (answer : α)
  /-- The answer is settled, but others go on first. -/
  | later (answer : α)
  /-- Others go on first, and then the request is met as if it were new. -/
  | again
  /-- The answer comes from outside. -/
  | atGate (gate : Nat) (answer : Except Fault Unit → α)

inductive Thread (α : Type) where
  | ready (a : Action α)
  /-- Its first request was put off, and is met when the action goes on. -/
  | due (a : Action α)
  | waiting (gate : Nat) (next : Except Fault Unit → Action α)

inductive Progress (α : Type) where
  | ended (result : Except Fault α)
  | suspended (thread : Thread α)

/-- What an action acts on: the memory of its run, and what all runs share. -/
structure Scene where
  memory : Memory
  outside : Outside

namespace Scene

def call {α : Type} (s : Scene) (due : Bool) (make : Outside → Outside × α) : Scene × Reply α :=
  if s.outside.staging.deferred && !due then (s, .again)
  else
    let (outside, answer) := make s.outside
    ({ s with outside := outside }, .now answer)

def animate (s : Scene) (handle keyframes duration : Value) : Scene × Reply (Except Fault Unit) :=
  match s.outside.animate handle keyframes duration with
  | (o, .error f) => ({ s with outside := o }, .now (.error f))
  | (o, .ok _) =>
    if o.staging.gated then ({ s with outside := { o with gates := o.gates + 1 } }, .atGate o.gates id)
    else ({ s with outside := o }, .later (.ok ()))

def publish (s : Scene) (port : Endpoint) (v : Value) : Scene :=
  ⟨{ s.memory with cache := s.memory.cache.publish port v }, s.outside.diagnose (Cache.writeLine port v)⟩

/-- Meets a request. `due` tells that it was put off before. -/
def meet (s : Scene) (due : Bool) : (r : Request) → Scene × Reply r.Answer
  | .log message data => ({ s with outside := s.outside.log message data }, .now ())
  | .diagnose line => ({ s with outside := s.outside.diagnose line }, .now ())
  | .cached port => (s, .now (s.memory.cache.value port))
  | .publish port v => (s.publish port v, .now ())
  | .lastEvent => (s, .now s.memory.lastEvent)
  | .clock =>
    let (reading, outside) := s.outside.readClock
    ({ s with outside := outside }, .now reading)
  | .mount id => s.call due (·.mount id)
  | .create kind params => s.call due (·.create kind params)
  | .animate handle keyframes duration => s.animate handle keyframes duration
  | .destroy handle => s.call due (·.destroy handle)
  | .pause => (s, .later ())

end Scene

namespace Action

variable {α : Type}

/-- Performs an action up to its end or to its next suspension. -/
def perform (due : Bool) (s : Scene) : Action α → Scene × Progress α
  | .done x => (s, .ended (.ok x))
  | .failed f => (s, .ended (.error f))
  | .ask r next =>
    match s.meet due r with
    | (s, .now x) => (next x).perform false s
    | (s, .later x) => (s, .suspended (.ready (next x)))
    | (s, .again) => (s, .suspended (.due (.ask r next)))
    | (s, .atGate gate answer) => (s, .suspended (.waiting gate fun x => next (answer x)))

end Action

namespace Thread

variable {α : Type}

def waitsAt (gate : Nat) : Thread α → Bool
  | .waiting g _ => g == gate
  | _ => false

def waits : Thread α → Bool
  | .waiting .. => true
  | _ => false

def settle (result : Except Fault Unit) : Thread α → Thread α
  | .waiting _ next => .ready (next result)
  | t => t

/-- Lets a thread go on. One that waits stays as it is. -/
def perform (s : Scene) : Thread α → Scene × Progress α
  | .ready a => a.perform false s
  | .due a => a.perform true s
  | .waiting gate next => (s, .suspended (.waiting gate next))

end Thread

end ActionGraph
