import ActionGraph.Session.Control

/-!
Every way in which a session can go on. The task that has the turn goes on alone; whenever nobody
has it, any turn in the queue may be the next one, and anything may happen from outside. This
allows more orders than the queue itself, which never prefers a turn.
-/

namespace ActionGraph

inductive Cue where
  /-- The task that has the turn goes on, or else the first turn in the queue is taken. -/
  | step
  /-- A turn comes before the others in the queue. -/
  | prefer (place : Nat)
  | addTarget (selector : String)
  | happen (channel : Channel) (x y : Value)
  /-- The handler of a trigger is called, whether or not the host still has it. -/
  | call (run place : Nat) (payload : Value)
  | settle (gate : Nat) (result : Except Fault Unit)
  | stop (run : Nat)

inductive Move where
  | cue (c : Cue)
  | start (env : Environment)
  | cancel (run : Nat)

namespace Session

def prefer (s : Session) (place : Nat) : Session :=
  match s.queue[place]? with
  | some turn => { s with queue := turn :: s.queue.eraseIdx place }
  | none => s

def addTarget (s : Session) (selector : String) : Session :=
  { s with outside := { s.outside with host := s.outside.host.addTarget selector } }

/-- The handler of the trigger at a place among the nodes of a run. -/
def handler? (s : Session) (run place : Nat) : Option Listener :=
  (s.runs[run]?).bind fun r =>
    ((r.environment.wanted run).find? fun w => w.listener.index == place).map (·.listener)

def call (s : Session) (run place : Nat) (payload : Value) : Session :=
  match s.handler? run place with
  | some l => (s.notify l payload).1
  | none => s

/-- What comes from outside while nobody has the turn. -/
def undergo (s : Session) : Move → Session
  | .cue .step => s
  | .cue (.prefer place) => s.prefer place
  | .cue (.addTarget selector) => s.addTarget selector
  | .cue (.happen channel x y) => (s.happen channel x y).1
  | .cue (.call run place payload) => s.call run place payload
  | .cue (.settle gate result) => (s.settle gate result).1
  | .cue (.stop run) => s.stop run
  | .start env => (s.start env).1
  | .cancel run => s.cancel run

/-- One move. While a task has the turn, nothing but its own step is possible, and what is not
possible changes nothing. -/
def move (s : Session) : Move → Session
  | .cue .step => s.step?.getD s
  | m => if s.running.isSome then s else s.undergo m

def follow (s : Session) : List Move → Session
  | [] => s
  | m :: moves => (s.move m).follow moves

theorem move_other {s : Session} {m : Move} (other : m ≠ .cue .step) :
    s.move m = if s.running.isSome then s else s.undergo m := by
  unfold move
  split
  · exact absurd rfl other
  · rfl

theorem move_keeps {P : Session → Prop} {s : Session} (h : P s) (step : P (s.step?.getD s)) (m : Move)
    (undergone : P (s.undergo m)) : P (s.move m) := by
  unfold move
  split
  · exact step
  · split
    · exact h
    · exact undergone

theorem follow_keeps {P : Session → Prop} (keeps : ∀ s m, P s → P (s.move m))
    {s : Session} (h : P s) (moves : List Move) : P (s.follow moves) := by
  induction moves generalizing s with
  | nil => exact h
  | cons m moves ih => exact ih (keeps s m h)

end Session

end ActionGraph
