import ActionGraph.Pulse
import ActionGraph.Session.Thread

/-!
Sessions. A session holds runs of graphs that share a host, and the tasks that these runs have
begun. One task at a time goes on, until it ends or waits; the others queue for their turn.
-/

namespace ActionGraph

/-- A pulse under way: the visit it is at, and the node ids it still has to visit. -/
structure Pulse where
  visit : Thread (List String)
  pending : List String

namespace Pulse

def leaving (env : Environment) (origin : Endpoint) : Pulse := ⟨.ready (env.leave origin), []⟩

def visiting (env : Environment) (id : String) : Pulse := ⟨.ready (env.visit id), []⟩

/-- The pulse with these node ids to visit, if there are any. -/
def next? (env : Environment) : List String → Option Pulse
  | [] => none
  | id :: ids => some ⟨.ready (env.visit id), ids⟩

end Pulse

inductive Work where
  | pulse (p : Pulse)
  /-- The computation of a value. -/
  | lookup (t : Thread Value)
  | ended (result : Except Fault Value)
  /-- Given up before its end. -/
  | dropped

namespace Work

def waitsAt (gate : Nat) : Work → Bool
  | .pulse p => p.visit.waitsAt gate
  | .lookup t => t.waitsAt gate
  | _ => false

def waits : Work → Bool
  | .pulse p => p.visit.waits
  | .lookup t => t.waits
  | _ => false

def settle (result : Except Fault Unit) : Work → Work
  | .pulse p => .pulse { p with visit := p.visit.settle result }
  | .lookup t => .lookup (t.settle result)
  | w => w

def result? : Work → Option (Except Fault Value)
  | .ended r => some r
  | _ => none

end Work

structure Task where
  run : Nat
  /-- Whether it is in flight until it ends, as the pulses of events are. -/
  counted : Bool
  cancelled : Bool
  work : Work

structure GraphRun where
  environment : Environment
  memory : Memory
  armed : Bool
  subscriptions : List Subscription
  /-- The pulses that were begun by events and have not ended. -/
  inFlight : List Nat
  stopped : Bool

inductive Turn where
  /-- A task goes on. -/
  | resume (task : Nat)
  /-- The end of a task is taken note of. -/
  | complete (task : Nat)
  deriving DecidableEq, Repr

structure Session where
  outside : Outside
  runs : List GraphRun
  tasks : List Task
  queue : List Turn
  running : Option Nat

namespace Session

def empty (outside : Outside) : Session := ⟨outside, [], [], [], none⟩

def modifyRun (s : Session) (i : Nat) (f : GraphRun → GraphRun) : Session :=
  { s with runs := s.runs.modify i f }

def setWork (s : Session) (i : Nat) (w : Work) : Session :=
  { s with tasks := s.tasks.modify i fun t => { t with work := w } }

def enqueue (s : Session) (t : Turn) : Session := { s with queue := s.queue ++ [t] }

def rest (s : Session) : Session := { s with running := none }

def scene (s : Session) (r : GraphRun) : Scene := ⟨r.memory, s.outside⟩

def adopt (s : Session) (i : Nat) (scene : Scene) : Session :=
  { s.modifyRun i fun r => { r with memory := scene.memory } with outside := scene.outside }

def spawn (s : Session) (run : Nat) (counted : Bool) (w : Work) : Session × Nat :=
  let task : Task := ⟨run, counted, false, w⟩
  (({ s with tasks := s.tasks ++ [task] } : Session).enqueue (.resume s.tasks.length), s.tasks.length)

def result? (s : Session) (task : Nat) : Option (Except Fault Value) := (s.tasks[task]?).bind (·.work.result?)

/-- The observations made so far, and the session without them. -/
def takeTrace (s : Session) : List Entry × Session :=
  (s.outside.trace.toList, { s with outside := { s.outside with trace := #[] } })

end Session

end ActionGraph
