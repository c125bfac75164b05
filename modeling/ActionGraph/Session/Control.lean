import ActionGraph.Session.Schedule
import ActionGraph.Event.Position

/-!
What is done to a session from outside: runs are started and stopped, events happen, animations
are settled, pulses are cancelled. None of it lets a task go on; that is left to the schedule.
-/

namespace ActionGraph

/-- Arms subscriptions one after the other. One whose target the host does not have is reported
and left out; a host that fails to say ends it. -/
def Outside.arm (o : Outside) : List Subscription → Outside × List Subscription × Option Fault
  | [] => (o, [], none)
  | s :: rest =>
    let data : Value := .record [("node", .text s.listener.origin.node)]
    match o.resolve s.channel.selector with
    | (o, .error f) => (o, [], some f)
    | (o, .ok false) =>
      (o.log ("Listener target not found for selector: " ++ s.channel.selector) data).arm rest
    | (o, .ok true) =>
      let o := (o.subscribe s).log ("Listener armed: " ++ s.channel.eventClass ++ " on " ++ s.channel.selector) data
      let (o, armed, fault) := o.arm rest
      (o, s :: armed, fault)

/-- Disarms subscriptions one after the other. A failure is reported and goes no further. -/
def Outside.disarm (o : Outside) : List Subscription → Outside
  | [] => o
  | s :: rest =>
    match o.unsubscribe s with
    | (o, .ok _) => o.disarm rest
    | (o, .error f) => (o.diagnose ("[LISTENERS] ERROR unsubscribing: " ++ f.message)).disarm rest

namespace Session

/-- Starts a run of a graph. The result is the number of the run; one whose start failed has a
number too, and those of its listeners that were armed stay so. -/
def start (s : Session) (env : Environment) : Session × Except Fault Nat :=
  let i := s.runs.length
  let (outside, armed, fault) := s.outside.arm (env.wanted i)
  let r : GraphRun := ⟨env, .empty, true, armed, [], false⟩
  let s := { s with runs := s.runs ++ [r] }
  match fault with
  | some f => ({ s with outside := outside }, .error f)
  | none => ({ s with outside := outside.diagnose s!"[LISTENERS] Armed {armed.length} listener(s)" }, .ok i)

/-- Stops a run: its listeners are disarmed, its pulses are left alone. Only the first time counts. -/
def stop (s : Session) (run : Nat) : Session :=
  match s.runs[run]? with
  | none => s
  | some r =>
    if r.stopped then s
    else
      let outside := (s.outside.disarm r.subscriptions).diagnose "[LISTENERS] Disarmed"
      { s.modifyRun run fun r => { r with armed := false, subscriptions := [], stopped := true }
        with outside := outside }

def snapshot (s : Session) (eventClass : String) (payload : Value) : Session × Except Fault Snapshot :=
  let (reading, outside) := s.outside.readClock
  ({ s with outside := outside }, do
    Snapshot.make eventClass (Point.ofPayload payload) (← (← reading).times 1000))

/-- Begins a pulse for an event: its snapshot is kept and published, and the pulse is queued. -/
def beginPulse (s : Session) (r : GraphRun) (l : Listener) (e : Snapshot) : Session :=
  let scene := (s.scene { r with memory := { r.memory with lastEvent := some e } }).publish l.eventPort (.event e)
  let (s, task) := (s.adopt l.run scene).spawn l.run true (.pulse (.leaving r.environment l.origin))
  s.modifyRun l.run fun r => { r with inFlight := r.inFlight ++ [task] }

/-- Calls a listener. If its run is armed it begins a pulse, provided that the event makes a
snapshot; otherwise nothing happens. The result tells whether a pulse was begun. -/
def notify (s : Session) (l : Listener) (payload : Value) : Session × Except Fault Bool :=
  match s.runs[l.run]? with
  | none => (s, .ok false)
  | some r =>
    if r.armed then
      match s.snapshot l.eventClass payload with
      | (s, .error f) => (s, .error f)
      | (s, .ok e) => (s.beginPulse r l e, .ok true)
    else (s, .ok false)

def notifyAll (s : Session) (payload : Value) : List Listener → Session × Except Fault Unit
  | [] => (s, .ok ())
  | l :: rest =>
    match s.notify l payload with
    | (s, .error f) => (s, .error f)
    | (s, .ok _) => s.notifyAll payload rest

/-- Lets an event happen on the host. The result is the number of handlers that were called. -/
def happen (s : Session) (c : Channel) (x y : Value) : Session × Except Fault Nat :=
  let listeners := s.outside.host.listeners c
  let (s, result) := s.notifyAll (Host.payload c.eventClass x y) listeners
  (s, result.map fun _ => listeners.length)

def waitingAt? (s : Session) (gate : Nat) : Option Nat :=
  s.tasks.findIdx? fun t => !t.cancelled && t.work.waitsAt gate

/-- Settles an animation. The result tells whether anybody waited for it. -/
def settle (s : Session) (gate : Nat) (result : Except Fault Unit) : Session × Bool :=
  match s.waitingAt? gate with
  | none => (s, false)
  | some i =>
    let s := { s with tasks := s.tasks.modify i fun t => { t with work := t.work.settle result } }
    (s.enqueue (.resume i), true)

/-- Cancels a task. One that waits is given a turn, so that it can end. -/
def cancelTask (s : Session) (i : Nat) : Session :=
  match s.tasks[i]? with
  | none => s
  | some t =>
    let waits := !t.cancelled && t.work.waits
    let s := { s with tasks := s.tasks.modify i fun t => { t with cancelled := true } }
    if waits then s.enqueue (.resume i) else s

def cancel (s : Session) (run : Nat) : Session :=
  match s.runs[run]? with
  | none => s
  | some r => r.inFlight.foldl cancelTask s

def publish (s : Session) (run : Nat) (port : Endpoint) (v : Value) : Session :=
  match s.runs[run]? with
  | none => s
  | some r => s.adopt run ((s.scene r).publish port v)

def setLastEvent (s : Session) (run : Nat) (e : Option Snapshot) : Session :=
  s.modifyRun run fun r => { r with memory := { r.memory with lastEvent := e } }

end Session

end ActionGraph
