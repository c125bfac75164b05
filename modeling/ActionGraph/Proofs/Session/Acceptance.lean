import ActionGraph.Proofs.Session.Delivery
import ActionGraph.Proofs.Validation.Fields

/-!
An event is taken in whole or not at all. Its snapshot is made first, out of what the host hands
over and what the clock says. Where that fails, nothing but the clock has changed; where it succeeds,
the run remembers the snapshot, publishes it once, and has one more pulse in flight, which waits for
its turn.
-/

namespace ActionGraph

@[simp] theorem Validated.valueNumber_number {n : Number} {x : Float} :
    valueNumber n.toValue = .ok x ↔ n.toFloat = .ok x := by
  cases n with
  | float y => simp [Number.toValue, Number.toFloat, valueNumber, number]
  | int n =>
    simp only [Number.toValue, Number.toFloat, valueNumber, number]
    cases Binary64.ofInt? n <;> simp [broken]

theorem Validated.toExcept_eq_ok {α ε : Type} {x : Validated α} {a : α} {f : List Issue → ε} :
    x.toExcept.mapError f = .ok a ↔ x = .ok a := by
  cases x <;> simp [toExcept, Except.mapError]

theorem Snapshot.make_eq_ok {eventClass : String} {p : Point} {timestamp : Value} {e : Snapshot} :
    make eventClass p timestamp = .ok e ↔ e.eventClass = eventClass ∧ p.x.toFloat = .ok e.x ∧
      p.y.toFloat = .ok e.y ∧ Validated.valueNumber timestamp = .ok e.timestamp := by
  simp only [make, Validated.toExcept_eq_ok, Validated.seq_eq_ok, Validated.map_eq_ok, Validated.within_eq_ok,
    Validated.valueNumber_number]
  constructor
  · rintro ⟨_, t, ⟨_, y, ⟨x, fitsX, rfl⟩, fitsY, rfl⟩, read, rfl⟩
    exact ⟨rfl, fitsX, fitsY, read⟩
  · rintro ⟨rfl, fitsX, fitsY, read⟩
    exact ⟨_, e.timestamp, ⟨_, e.y, ⟨e.x, fitsX, rfl⟩, fitsY, rfl⟩, read, rfl⟩

namespace Session

/-- The session after the clock has been read, which changes nothing else. -/
def clocked (s : Session) : Session :=
  { s with outside := { s.outside with clock := s.outside.clock.read.2 } }

/-- What the snapshot of an event shows: its class, the position in what the host handed over, and
the clock's seconds as milliseconds. -/
structure Shows (s : Session) (l : Listener) (payload : Value) (e : Snapshot) : Prop where
  eventClass : e.eventClass = l.eventClass
  x : (Point.ofPayload payload).x.toFloat = .ok e.x
  y : (Point.ofPayload payload).y.toFloat = .ok e.y
  time : ∃ reading milliseconds, s.outside.clock.read.1 = .ok reading ∧
    reading.times 1000 = .ok milliseconds ∧ Validated.valueNumber milliseconds = .ok e.timestamp

/-- What an accepted event comes to: the snapshot is what the run remembers as its last event, it is
published by a single write, and one pulse is in flight and queued. No task has gone on, no other run
has changed, and nothing is observed but the write. -/
structure Accepts (s : Session) (r : GraphRun) (l : Listener) (e : Snapshot) (s' : Session) : Prop where
  own : s'.runs[l.run]? = some { r with
    memory := ⟨r.memory.cache.publish l.eventPort (.event e), some e⟩
    inFlight := r.inFlight ++ [s.tasks.length] }
  others : ∀ k, k ≠ l.run → s'.runs[k]? = s.runs[k]?
  tasks : s'.tasks = s.tasks ++ [⟨l.run, true, false, .pulse (.leaving r.environment l.origin)⟩]
  queue : s'.queue = s.queue ++ [.resume s.tasks.length]
  running : s'.running = s.running
  outside : s'.outside = s.clocked.outside.diagnose (Cache.writeLine l.eventPort (.event e))

variable {s : Session} {r : GraphRun} {l : Listener} {payload : Value} {e : Snapshot}

theorem snapshot_eq_ok : (s.snapshot l.eventClass payload).2 = .ok e ↔ s.Shows l payload e := by
  have made : (s.snapshot l.eventClass payload).2 = (do
      Snapshot.make l.eventClass (Point.ofPayload payload) (← (← s.outside.clock.read.1).times 1000)) := rfl
  rw [made]
  constructor
  · intro accepted
    cases reading : s.outside.clock.read.1 with
    | error f => simp [reading, bind, Except.bind] at accepted
    | ok v =>
      cases time : v.times 1000 with
      | error f => simp [reading, time, bind, Except.bind] at accepted
      | ok t =>
        simp only [reading, time, bind, Except.bind, Snapshot.make_eq_ok] at accepted
        obtain ⟨own, fitsX, fitsY, read⟩ := accepted
        exact ⟨own, fitsX, fitsY, v, t, reading, time, read⟩
  · rintro ⟨own, fitsX, fitsY, v, t, reading, time, read⟩
    simp only [reading, time, bind, Except.bind, Snapshot.make_eq_ok]
    exact ⟨own, fitsX, fitsY, read⟩

theorem accepts_beginPulse (run : s.runs[l.run]? = some r) (e : Snapshot) :
    s.Accepts r l e (s.clocked.beginPulse r l e) where
  own := by
    rw [runs_beginPulse]
    simp [clocked, run]
  others k other := by
    rw [runs_beginPulse]
    simp [clocked, other.symm]
  tasks := rfl
  queue := rfl
  running := rfl
  outside := rfl

/-- A firing is all or nothing, whatever the host hands over, whatever the clock says and in every
session. On a run that is not armed nothing happens at all. On one that is armed, a snapshot that
cannot be made fails the call, and then nothing but the clock has changed: not what any run
remembers, what it has in flight or listens to, no task, and nothing of the host or of what was
observed. Where it can be made, the call does what `Accepts` says. It can be made if and only if the
clock's reading is a time and both coordinates fit a float. -/
theorem firing_all_or_nothing (s : Session) (l : Listener) (payload : Value) :
    (¬ s.Armed l → s.notify l payload = (s, .ok false)) ∧
    ∀ r, s.runs[l.run]? = some r → r.armed = true →
      ((∀ e, ¬ s.Shows l payload e) → ∃ f, s.notify l payload = (s.clocked, .error f)) ∧
      ∀ e, s.Shows l payload e →
        (s.notify l payload).2 = .ok true ∧ s.Accepts r l e (s.notify l payload).1 := by
  refine ⟨fun unarmed => ?_, fun r run armed => ⟨fun unseen => ?_, fun e shows => ?_⟩⟩
  · have called := notified s l payload
    generalize s.notify l payload = result at called
    cases called with
    | unarmed _ => rfl
    | refused run armed _ => exact absurd ⟨_, run, armed⟩ unarmed
    | begun run armed _ => exact absurd ⟨_, run, armed⟩ unarmed
  · cases made : (s.snapshot l.eventClass payload).2 with
    | ok e => exact absurd (snapshot_eq_ok.mp made) (unseen e)
    | error f =>
      refine ⟨f, ?_⟩
      have refused : s.snapshot l.eventClass payload = (s.clocked, .error f) := Prod.ext rfl made
      rw [notify_armed run armed, refused]
  · have accepted : s.snapshot l.eventClass payload = (s.clocked, .ok e) :=
      Prod.ext rfl (snapshot_eq_ok.mpr shows)
    rw [notify_armed run armed, accepted]
    exact ⟨rfl, accepts_beginPulse run e⟩

/-- A run of the demonstration that listens, and its listener. -/
def attentive : Session :=
  (empty .fresh).follow [.cue (.addTarget "#hoverTarget"),
    .start (Demonstration.environment none (fun _ _ _ => .ended (.ok .null)) .standard)]

def hovered : Listener := ⟨0, 0, ⟨"n_hover", "exec_out"⟩, ⟨"n_hover", "data_out_event"⟩, "mouseover"⟩

/-- What a pointer hands over that has a horizontal position only. -/
def pointed (x : Value) : Value := .dict [(.text "clientX", x)]

/-- An integer beyond all floats. -/
def beyond : Int := .ofNat (Nat.pow 10 400)

/-- A position too large for a float, one that is no number and counts as zero, and a stopped run. -/
theorem firing_all_or_nothing_hovered :
    (∃ f, attentive.notify hovered (pointed (.int beyond)) = (attentive.clocked, .error f)) ∧
    (∃ r, attentive.Accepts r hovered ⟨"mouseover", 0, 0, 0⟩ (attentive.notify hovered (pointed (.text "left"))).1) ∧
      (attentive.stop 0).notify hovered .null = (attentive.stop 0, .ok false) := by
  obtain ⟨r, run, armed⟩ : ∃ r, attentive.runs[hovered.run]? = some r ∧ r.armed = true := ⟨_, rfl, rfl⟩
  have called := fun payload => (firing_all_or_nothing attentive hovered payload).2 r run armed
  refine ⟨?_, ?_, ?_⟩
  · refine (called _).1 fun e shows => ?_
    have read : (Point.ofPayload (pointed (.int beyond))).x = .int beyond := by decide +kernel
    have large : Binary64.ofInt? beyond = none := by decide +kernel
    have fits := shows.x
    rw [read, Number.toFloat, large] at fits
    cases fits
  · have read : Point.ofPayload (pointed (.text "left")) = ⟨.int 0, .int 0⟩ := by decide +kernel
    have zero : Number.toFloat (.int 0) = .ok 0 := rfl
    refine ⟨r, ((called _).2 ⟨"mouseover", 0, 0, 0⟩ ⟨rfl, ?_, ?_, .int 0, .int 0, rfl, rfl, rfl⟩).2⟩
    · rw [read, zero]
    · rw [read, zero]
  · refine (firing_all_or_nothing (attentive.stop 0) hovered .null).1 ?_
    rintro ⟨r, run, armed⟩
    cases run
    cases armed

end Session

end ActionGraph
