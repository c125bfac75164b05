import ActionGraph.Proofs.Session.Rest
import Mathlib.Data.List.InsertIdx
import Mathlib.Data.List.Basic

/-!
Sessions with a past. A session may have tasks that are over, and may have seen and counted what they did.
It goes on like one that never had them: its new tasks have higher numbers, and what it sees comes after
what it has seen.
-/

namespace ActionGraph

/-- An outside that has seen all this before, next to one that has not. They may have counted differently. -/
structure Outside.Since (before : List Entry) (o o' : Outside) : Prop where
  host : o'.host = o.host
  clock : o'.clock = o.clock
  staging : o'.staging = o.staging
  sound : o.staging.faults = []
  ungated : o.staging.gated = false
  collects : o.sink = .collecting
  sink : o'.sink = o.sink
  trace : o'.trace.toList = before ++ o.trace.toList

structure Outside.Concur {β : Type} (before : List Entry) (x x' : Outside × β) : Prop where
  outside : x.1.Since before x'.1
  answer : x.2 = x'.2

namespace Outside.Since

variable {before : List Entry} {o o' : Outside}

theorem sound' (h : o.Since before o') : o'.staging.faults = [] := by
  rw [h.staging]
  exact h.sound

theorem record (h : o.Since before o') (e : Entry) : (o.record e).Since before (o'.record e) where
  host := h.host
  clock := h.clock
  staging := h.staging
  sound := h.sound
  ungated := h.ungated
  collects := h.collects
  sink := h.sink
  trace := by rw [Outside.record, Outside.record, Array.toList_push, Array.toList_push, h.trace, List.append_assoc]

theorem diagnose (h : o.Since before o') (line : String) : (o.diagnose line).Since before (o'.diagnose line) :=
  h.record _

theorem withHost (h : o.Since before o') (host : Host Listener) :
    ({ o with host := host } : Outside).Since before { o' with host := host } :=
  ⟨rfl, h.clock, h.staging, h.sound, h.ungated, h.collects, h.sink, h.trace⟩

theorem log (h : o.Since before o') (message : String) (data : Value) :
    (o.log message data).Since before (o'.log message data) := by
  have handed : ({ o with handed := o.handed + 1 } : Outside).Since before { o' with handed := o'.handed + 1 } :=
    ⟨h.host, h.clock, h.staging, h.sound, h.ungated, h.collects, h.sink, h.trace⟩
  have collects : o'.sink = .collecting := h.sink.trans h.collects
  unfold Outside.log
  rw [h.collects, collects]
  exact (h.collects ▸ collects ▸ handed).record _

theorem readClock (h : o.Since before o') :
    o.readClock.1 = o'.readClock.1 ∧ o.readClock.2.Since before o'.readClock.2 := by
  have read : o.clock.read = o'.clock.read := by rw [h.clock]
  exact ⟨(congrArg Prod.fst read :),
    h.host, (congrArg Prod.snd read.symm :), h.staging, h.sound, h.ungated, h.collects, h.sink, h.trace⟩

theorem call (h : o.Since before o') (c : HostCall) : (o.call c).1.Since before (o'.call c).1 :=
  ⟨h.host, h.clock, h.staging, h.sound, h.ungated, h.collects, h.sink, h.trace⟩

/-- No call is planned to fail, so all that a call comes to is what it does. -/
theorem planned {β : Type} (h : o.Since before o') (c : HostCall) {act : Outside → Outside × Except Fault β}
    (acts : ∀ p p', p.Since before p' → Concur before (act p) (act p')) :
    Concur before (o.planned c act) (o'.planned c act) := by
  rw [o.planned_sound h.sound, o'.planned_sound h.sound']
  exact acts _ _ (h.call c)

theorem mount (h : o.Since before o') (id : String) : Concur before (o.mount id) (o'.mount id) := by
  rw [mount_eq, mount_eq]
  refine (h.record _).planned .mount fun p p' since => ?_
  rw [since.host]
  exact ⟨since.withHost _, rfl⟩

theorem create (h : o.Since before o') (kind : String) (params : List (String × Value)) :
    Concur before (o.create kind params) (o'.create kind params) := by
  rw [create_eq, create_eq]
  refine (h.record _).planned .create fun p p' since => ?_
  rw [since.host]
  exact ⟨since.withHost _, rfl⟩

theorem animate (h : o.Since before o') (handle keyframes duration : Value) :
    Concur before (o.animate handle keyframes duration) (o'.animate handle keyframes duration) := by
  rw [animate_eq, animate_eq]
  refine (h.record _).planned .animate fun p p' since => ?_
  unfold fly
  dsimp only
  rw [since.host]
  split
  · exact ⟨since.withHost _, rfl⟩
  · exact ⟨(since.withHost _).record _, rfl⟩

theorem destroy (h : o.Since before o') (handle : Value) : Concur before (o.destroy handle) (o'.destroy handle) := by
  rw [destroy_eq, destroy_eq]
  refine (h.record _).planned .destroy fun p p' since => ?_
  unfold remove
  rw [since.host]
  split
  · exact ⟨since, rfl⟩
  · exact ⟨since.withHost _, rfl⟩

end Outside.Since

structure Scene.Since (before : List Entry) (s s' : Scene) : Prop where
  memory : s'.memory = s.memory
  outside : s.outside.Since before s'.outside

structure Scene.Concur {β : Type} (before : List Entry) (x x' : Scene × β) : Prop where
  scene : x.1.Since before x'.1
  result : x.2 = x'.2

namespace Scene.Since

variable {α : Type} {before : List Entry} {s s' : Scene}

theorem call (h : s.Since before s') (due : Bool) (make : Outside → Outside × α)
    (makes : Outside.Concur before (make s.outside) (make s'.outside)) :
    Scene.Concur before (s.call due make) (s'.call due make) := by
  unfold Scene.call
  rw [h.outside.staging]
  split
  · exact ⟨h, rfl⟩
  · exact ⟨⟨h.memory, makes.outside⟩, congrArg Reply.now makes.answer⟩

theorem animate (h : s.Since before s') (handle keyframes duration : Value) :
    Scene.Concur before (s.animate handle keyframes duration) (s'.animate handle keyframes duration) := by
  have animated := h.outside.animate handle keyframes duration
  unfold Scene.animate
  generalize s.outside.animate handle keyframes duration = x at animated
  generalize s'.outside.animate handle keyframes duration = x' at animated
  obtain ⟨o, answer⟩ := x
  obtain ⟨o', answer'⟩ := x'
  obtain ⟨since, rfl⟩ := animated
  cases answer with
  | error f => exact ⟨⟨h.memory, since⟩, rfl⟩
  | ok _ =>
    dsimp only
    rw [since.staging, since.ungated]
    exact ⟨⟨h.memory, since⟩, rfl⟩

theorem publish (h : s.Since before s') (port : Endpoint) (v : Value) :
    (s.publish port v).Since before (s'.publish port v) := by
  refine ⟨?_, h.outside.diagnose _⟩
  rw [Scene.publish, Scene.publish, h.memory]

theorem meet (h : s.Since before s') (due : Bool) (r : Request) :
    Scene.Concur before (s.meet due r) (s'.meet due r) := by
  cases r with
  | log message data => exact ⟨⟨h.memory, h.outside.log message data⟩, rfl⟩
  | diagnose line => exact ⟨⟨h.memory, h.outside.diagnose line⟩, rfl⟩
  | cached port => exact ⟨h, by rw [Scene.meet, Scene.meet, h.memory]⟩
  | publish port v => exact ⟨h.publish port v, rfl⟩
  | lastEvent => exact ⟨h, by rw [Scene.meet, Scene.meet, h.memory]⟩
  | clock =>
    obtain ⟨reading, outside⟩ := h.outside.readClock
    exact ⟨⟨h.memory, outside⟩, congrArg Reply.now reading⟩
  | mount id => exact h.call due (·.mount id) (h.outside.mount id)
  | create kind params => exact h.call due (·.create kind params) (h.outside.create kind params)
  | animate handle keyframes duration => exact h.animate handle keyframes duration
  | destroy handle => exact h.call due (·.destroy handle) (h.outside.destroy handle)
  | pause => exact ⟨h, rfl⟩

theorem perform (h : s.Since before s') (due : Bool) (x : Action α) :
    Scene.Concur before (x.perform due s) (x.perform due s') := by
  induction x generalizing due s s' with
  | done x => exact ⟨h, rfl⟩
  | failed f => exact ⟨h, rfl⟩
  | ask r next ih =>
    have met := h.meet due r
    simp only [Action.perform]
    generalize s.meet due r = y at met
    generalize s'.meet due r = y' at met
    obtain ⟨p, reply⟩ := y
    obtain ⟨p', reply'⟩ := y'
    obtain ⟨since, rfl⟩ := met
    cases reply with
    | now x => exact ih x since false
    | later x => exact ⟨since, rfl⟩
    | again => exact ⟨since, rfl⟩
    | atGate gate answer => exact ⟨since, rfl⟩

theorem thread (h : s.Since before s') (t : Thread α) : Scene.Concur before (t.perform s) (t.perform s') := by
  cases t with
  | ready x => exact h.perform false x
  | due x => exact h.perform true x
  | waiting gate next => exact ⟨h, rfl⟩

end Scene.Since

/-- The turn of a task when there are so many tasks before it. -/
def Turn.later (n : Nat) : Turn → Turn
  | .resume i => .resume (n + i)
  | .complete i => .complete (n + i)

/-- A run whose pulses have so many tasks before them. -/
def GraphRun.later (n : Nat) (r : GraphRun) : GraphRun := { r with inFlight := r.inFlight.map (n + ·) }

/-- A session that had these tasks, and saw this, before it went on like another one. -/
structure Session.Since (past : List Task) (before : List Entry) (s s' : Session) : Prop where
  outside : s.outside.Since before s'.outside
  runs : s'.runs = s.runs.map (GraphRun.later past.length)
  tasks : s'.tasks = past ++ s.tasks
  queue : s'.queue = s.queue.map (Turn.later past.length)
  running : s'.running = s.running.map (past.length + ·)

namespace Session.Since

variable {past : List Task} {before : List Entry} {s s' : Session}

theorem task (h : s.Since past before s') (i : Nat) : s'.tasks[past.length + i]? = s.tasks[i]? := by
  rw [h.tasks, List.getElem?_append_right (Nat.le_add_right _ _), Nat.add_sub_cancel_left]

theorem run (h : s.Since past before s') (k : Nat) : s'.runs[k]? = (s.runs[k]?).map (GraphRun.later past.length) := by
  rw [h.runs, List.getElem?_map]

theorem modifyRun (h : s.Since past before s') (k : Nat) {f f' : GraphRun → GraphRun}
    (same : ∀ r, f' (r.later past.length) = (f r).later past.length) :
    (s.modifyRun k f).Since past before (s'.modifyRun k f') := by
  refine ⟨h.outside, List.ext_getElem? fun j => ?_, h.tasks, h.queue, h.running⟩
  simp only [Session.modifyRun, List.getElem?_map, List.getElem?_modify, h.run]
  cases s.runs[j]? with
  | none => rfl
  | some r => by_cases own : k = j <;> simp [own, same]

theorem withOutside (h : s.Since past before s') {o o' : Outside} (outside : o.Since before o') :
    ({ s with outside := o } : Session).Since past before { s' with outside := o' } :=
  ⟨outside, h.runs, h.tasks, h.queue, h.running⟩

theorem adopt (h : s.Since past before s') (k : Nat) {x x' : Scene} (scene : x.Since before x') :
    (s.adopt k x).Since past before (s'.adopt k x') := by
  refine (h.modifyRun k fun r => ?_).withOutside scene.outside
  rw [scene.memory]
  rfl

theorem setWork (h : s.Since past before s') (i : Nat) (w : Work) :
    (s.setWork i w).Since past before (s'.setWork (past.length + i) w) := by
  have among : ∀ past ts : List Task, (past ++ ts).modify (past.length + i) (fun t => { t with work := w }) =
      past ++ ts.modify i fun t => { t with work := w } := by
    intro past ts
    induction past with
    | nil => simp
    | cons t past ih => simp [Nat.add_right_comm, ih]
  exact ⟨h.outside, h.runs, by rw [Session.setWork, h.tasks, among]; rfl, h.queue, h.running⟩

theorem enqueue (h : s.Since past before s') (t : Turn) :
    (s.enqueue t).Since past before (s'.enqueue (t.later past.length)) :=
  ⟨h.outside, h.runs, h.tasks, by rw [Session.enqueue, Session.enqueue, h.queue, List.map_append]; rfl, h.running⟩

theorem rest (h : s.Since past before s') : s.rest.Since past before s'.rest :=
  ⟨h.outside, h.runs, h.tasks, h.queue, rfl⟩

theorem conclude (h : s.Since past before s') (i : Nat) (counted : Bool) (w : Work) :
    (s.conclude i counted w).Since past before (s'.conclude (past.length + i) counted w) := by
  cases counted with
  | true => exact (h.setWork i w).rest.enqueue (.complete i)
  | false => exact (h.setWork i w).rest

theorem suspend (h : s.Since past before s') (i : Nat) (w : Work) :
    (s.suspend i w).Since past before (s'.suspend (past.length + i) w) := by
  unfold Session.suspend
  dsimp only
  split
  · exact (h.setWork i w).rest
  · exact (h.setWork i w).rest.enqueue (.resume i)

theorem scene (h : s.Since past before s') (r : GraphRun) :
    (s.scene r).Since before (s'.scene (r.later past.length)) :=
  ⟨rfl, h.outside⟩

theorem advancePulse (h : s.Since past before s') (i : Nat) (t : Task) (r : GraphRun) (p : Pulse) :
    (s.advancePulse i t r p).Since past before (s'.advancePulse (past.length + i) t (r.later past.length) p) := by
  have performed := (h.scene r).thread p.visit
  have environment : (r.later past.length).environment = r.environment := rfl
  unfold Session.advancePulse
  rw [environment]
  generalize p.visit.perform (s.scene r) = x at performed
  generalize p.visit.perform (s'.scene (r.later past.length)) = x' at performed
  obtain ⟨scene, progress⟩ := x
  obtain ⟨scene', progress'⟩ := x'
  obtain ⟨since, rfl⟩ := performed
  have adopted := h.adopt t.run since
  cases progress with
  | suspended visit => exact adopted.suspend i _
  | ended result =>
    cases result with
    | error f => exact adopted.conclude i t.counted _
    | ok ids =>
      dsimp only
      split
      · exact adopted.setWork i _
      · exact adopted.conclude i t.counted _

theorem advanceLookup (h : s.Since past before s') (i : Nat) (t : Task) (r : GraphRun) (thread : Thread Value) :
    (s.advanceLookup i t r thread).Since past before
      (s'.advanceLookup (past.length + i) t (r.later past.length) thread) := by
  have performed := (h.scene r).thread thread
  unfold Session.advanceLookup
  generalize thread.perform (s.scene r) = x at performed
  generalize thread.perform (s'.scene (r.later past.length)) = x' at performed
  obtain ⟨scene, progress⟩ := x
  obtain ⟨scene', progress'⟩ := x'
  obtain ⟨since, rfl⟩ := performed
  have adopted := h.adopt t.run since
  cases progress with
  | suspended thread => exact adopted.suspend i _
  | ended result => exact adopted.conclude i t.counted _

theorem advance (h : s.Since past before s') (i : Nat) :
    (s.advance i).Since past before (s'.advance (past.length + i)) := by
  unfold Session.advance
  rw [h.task]
  cases s.tasks[i]? with
  | none => exact h.rest
  | some t =>
    dsimp only
    split
    · exact h.conclude i t.counted .dropped
    · rw [h.run]
      cases s.runs[t.run]? with
      | none => exact h.rest
      | some r =>
        cases t.work with
        | pulse p => exact h.advancePulse i t r p
        | lookup thread => exact h.advanceLookup i t r thread
        | ended result => exact h.rest
        | dropped => exact h.rest

theorem complete (h : s.Since past before s') (i : Nat) :
    (s.complete i).Since past before (s'.complete (past.length + i)) := by
  unfold Session.complete
  rw [h.task]
  cases s.tasks[i]? with
  | none => exact h
  | some t =>
    have landed : (s.modifyRun t.run fun r => { r with inFlight := r.inFlight.erase i }).Since past before
        (s'.modifyRun t.run fun r => { r with inFlight := r.inFlight.erase (past.length + i) }) :=
      h.modifyRun t.run fun r => congrArg (fun ids => ({ r with inFlight := ids } : GraphRun))
        (List.map_erase (fun _ _ => Nat.add_left_cancel) r.inFlight).symm
    dsimp only
    split
    · exact landed.withOutside ((landed.outside.diagnose _).log _ _)
    · exact landed

theorem step (h : s.Since past before s') : (s.step?.getD s).Since past before (s'.step?.getD s') := by
  have running := h.running
  have queue := h.queue
  cases turned : s.running with
  | some i =>
    rw [turned] at running
    rw [step_running turned, step_running running]
    exact h.advance i
  | none =>
    rw [turned] at running
    cases queued : s.queue with
    | nil =>
      rw [queued] at queue
      rw [step_idle turned queued, step_idle running queue]
      exact h
    | cons turn rest =>
      rw [queued] at queue
      rw [step_turn turned queued, step_turn running queue]
      have shorter : ({ s with queue := rest } : Session).Since past before
          { s' with queue := rest.map (Turn.later past.length) } :=
        ⟨h.outside, h.runs, h.tasks, rfl, h.running⟩
      cases turn with
      | resume i => exact ⟨h.outside, h.runs, h.tasks, rfl, rfl⟩
      | complete i => exact shorter.complete i

theorem prefer (h : s.Since past before s') (place : Nat) : (s.prefer place).Since past before (s'.prefer place) := by
  unfold Session.prefer
  rw [h.queue, List.getElem?_map]
  cases s.queue[place]? with
  | none => exact h
  | some turn =>
    have others : (s.queue.map (Turn.later past.length)).eraseIdx place =
        (s.queue.eraseIdx place).map (Turn.later past.length) := List.eraseIdx_map ..
    exact ⟨h.outside, h.runs, h.tasks, congrArg (turn.later past.length :: ·) others, h.running⟩

theorem spawn (h : s.Since past before s') (run : Nat) (counted : Bool) (w : Work) :
    (s.spawn run counted w).1.Since past before (s'.spawn run counted w).1 ∧
      (s'.spawn run counted w).2 = past.length + (s.spawn run counted w).2 := by
  have number : s'.tasks.length = past.length + s.tasks.length := by rw [h.tasks, List.length_append]
  have listed : ({ s with tasks := s.tasks ++ [⟨run, counted, false, w⟩] } : Session).Since past before
      { s' with tasks := s'.tasks ++ [⟨run, counted, false, w⟩] } :=
    ⟨h.outside, h.runs, by rw [h.tasks, List.append_assoc], h.queue, h.running⟩
  have queued := listed.enqueue (.resume s.tasks.length)
  refine ⟨?_, number⟩
  rw [Session.spawn, Session.spawn, number]
  exact queued

theorem beginPulse (h : s.Since past before s') (r : GraphRun) (l : Listener) (e : Snapshot) :
    (s.beginPulse r l e).Since past before (s'.beginPulse (r.later past.length) l e) := by
  have published := (h.scene { r with memory := { r.memory with lastEvent := some e } }).publish l.eventPort (.event e)
  obtain ⟨begun, number⟩ := (h.adopt l.run published).spawn l.run true (.pulse (.leaving r.environment l.origin))
  refine begun.modifyRun l.run fun k => ?_
  refine congrArg (fun ids => ({ k with inFlight := ids } : GraphRun)) ?_
  rw [List.map_append]
  exact congrArg (fun i => k.inFlight.map (past.length + ·) ++ [i]) number

theorem snapshot (h : s.Since past before s') (eventClass : String) (payload : Value) :
    (s.snapshot eventClass payload).1.Since past before (s'.snapshot eventClass payload).1 ∧
      (s.snapshot eventClass payload).2 = (s'.snapshot eventClass payload).2 := by
  obtain ⟨reading, outside⟩ := h.outside.readClock
  unfold Session.snapshot
  dsimp only
  rw [reading]
  exact ⟨h.withOutside outside, rfl⟩

theorem notify (h : s.Since past before s') (l : Listener) (payload : Value) :
    (s.notify l payload).1.Since past before (s'.notify l payload).1 ∧
      (s.notify l payload).2 = (s'.notify l payload).2 := by
  unfold Session.notify
  rw [h.run]
  cases s.runs[l.run]? with
  | none => exact ⟨h, rfl⟩
  | some r =>
    have armed : (r.later past.length).armed = r.armed := rfl
    simp only [Option.map_some, armed]
    split
    · obtain ⟨read, same⟩ := h.snapshot l.eventClass payload
      generalize s.snapshot l.eventClass payload = x at read same
      generalize s'.snapshot l.eventClass payload = x' at read same
      obtain ⟨shown, result⟩ := x
      obtain ⟨shown', result'⟩ := x'
      obtain rfl : result = result' := same
      cases result with
      | error f => exact ⟨read, rfl⟩
      | ok e => exact ⟨read.beginPulse r l e, rfl⟩
    · exact ⟨h, rfl⟩

theorem notifyAll (h : s.Since past before s') (payload : Value) (ls : List Listener) :
    (s.notifyAll payload ls).1.Since past before (s'.notifyAll payload ls).1 ∧
      (s.notifyAll payload ls).2 = (s'.notifyAll payload ls).2 := by
  induction ls generalizing s s' with
  | nil => exact ⟨h, rfl⟩
  | cons l rest ih =>
    obtain ⟨called, same⟩ := h.notify l payload
    simp only [Session.notifyAll]
    generalize s.notify l payload = x at called same
    generalize s'.notify l payload = x' at called same
    obtain ⟨next, result⟩ := x
    obtain ⟨next', result'⟩ := x'
    obtain rfl : result = result' := same
    cases result with
    | error f => exact ⟨called, rfl⟩
    | ok _ => exact ih called

theorem happen (h : s.Since past before s') (c : Channel) (x y : Value) :
    (s.happen c x y).1.Since past before (s'.happen c x y).1 ∧ (s.happen c x y).2 = (s'.happen c x y).2 := by
  have listeners : s'.outside.host.listeners c = s.outside.host.listeners c := by rw [h.outside.host]
  obtain ⟨called, same⟩ := h.notifyAll (Host.payload c.eventClass x y) (s.outside.host.listeners c)
  unfold Session.happen
  rw [listeners]
  exact ⟨called, congrArg (Except.map fun _ => (s.outside.host.listeners c).length) same⟩

theorem turnBy (h : s.Since past before s') (place : Nat) : (s.turnBy place).Since past before (s'.turnBy place) := by
  unfold Session.turnBy
  rw [move_prefer, move_prefer, h.running, Option.isSome_map]
  split
  · exact h.step
  · exact (h.prefer place).step

theorem drainBy (h : s.Since past before s') (order : Nat → Nat) (fuel : Nat) :
    (s.drainBy order fuel).Since past before (s'.drainBy order fuel) := by
  induction fuel generalizing s s' order with
  | zero => exact h
  | succ fuel ih => exact ih (h.turnBy (order 0)) _

end Session.Since

end ActionGraph
