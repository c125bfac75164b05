import ActionGraph.Session.Basic

/-!
Whose turn it is. The task that has the turn keeps it until it ends or is suspended; then the next
turn in the queue is taken. A suspended task goes to the end of the queue, unless it waits for
something from outside.
-/

namespace ActionGraph.Session

/-- Ends a task. A task in flight stays there until its end is taken note of. -/
def conclude (s : Session) (i : Nat) (counted : Bool) (w : Work) : Session :=
  let s := (s.setWork i w).rest
  if counted then s.enqueue (.complete i) else s

def suspend (s : Session) (i : Nat) (w : Work) : Session :=
  let s := (s.setWork i w).rest
  if w.waits then s else s.enqueue (.resume i)

/-- Lets a pulse go on until its visit ends or is suspended. -/
def advancePulse (s : Session) (i : Nat) (t : Task) (r : GraphRun) (p : Pulse) : Session :=
  let (scene, progress) := p.visit.perform (s.scene r)
  let s := s.adopt t.run scene
  match progress with
  | .suspended visit => s.suspend i (.pulse { p with visit := visit })
  | .ended (.error f) => s.conclude i t.counted (.ended (.error f))
  | .ended (.ok ids) =>
    match Pulse.next? r.environment (ids ++ p.pending) with
    | some p => s.setWork i (.pulse p)
    | none => s.conclude i t.counted (.ended (.ok .null))

/-- Lets the computation of a value go on until it ends or is suspended. -/
def advanceLookup (s : Session) (i : Nat) (t : Task) (r : GraphRun) (thread : Thread Value) : Session :=
  let (scene, progress) := thread.perform (s.scene r)
  let s := s.adopt t.run scene
  match progress with
  | .suspended thread => s.suspend i (.lookup thread)
  | .ended result => s.conclude i t.counted (.ended result)

/-- Lets the task that has the turn go on. One that was cancelled ends instead. -/
def advance (s : Session) (i : Nat) : Session :=
  match s.tasks[i]? with
  | none => s.rest
  | some t =>
    if t.cancelled then s.conclude i t.counted .dropped
    else
      match s.runs[t.run]?, t.work with
      | some r, .pulse p => s.advancePulse i t r p
      | some r, .lookup thread => s.advanceLookup i t r thread
      | _, _ => s.rest

/-- Takes note of the end of a task: it is no longer in flight, and if it failed, that is reported. -/
def complete (s : Session) (i : Nat) : Session :=
  match s.tasks[i]? with
  | none => s
  | some t =>
    let s := s.modifyRun t.run fun r => { r with inFlight := r.inFlight.erase i }
    match t.work with
    | .ended (.error f) =>
      let outside := s.outside.diagnose ("[LISTENERS] Pulse raised " ++ f.line)
      { s with outside := outside.log "Pulse failed" (.record [("error", .text f.line)]) }
    | _ => s

def take (s : Session) : Turn → Session
  | .resume i => { s with running := some i }
  | .complete i => s.complete i

def step? (s : Session) : Option Session :=
  match s.running with
  | some i => some (s.advance i)
  | none =>
    match s.queue with
    | [] => none
    | turn :: queue => some (({ s with queue := queue } : Session).take turn)

/-- Goes on until nothing is left to do, for a number of steps at most. -/
def drain : (fuel : Nat) → Session → Session
  | 0, s => s
  | fuel + 1, s =>
    match s.step? with
    | some s => drain fuel s
    | none => s

def isIdle (s : Session) (run : Nat) : Bool :=
  match s.runs[run]? with
  | none => true
  | some r => r.inFlight.isEmpty

/-- Waits for the pulses of a run. The result tells whether all of them have ended; otherwise those
that are left wait for something from outside. -/
def quiesce (s : Session) (run fuel : Nat) : Session × Bool :=
  let s := s.drain fuel
  (s, s.isIdle run)

end ActionGraph.Session
