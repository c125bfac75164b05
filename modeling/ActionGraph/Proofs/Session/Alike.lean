import ActionGraph.Proofs.Session.Calls
import ActionGraph.Proofs.Session.Evolution

/-!
Sessions that differ in their triggers only: in who listens to the host, in whether runs are armed
or stopped, and in what was observed before. Their tasks go on alike, because no request and no
turn reads any of it.
-/

namespace ActionGraph

theorem Host.destroy_resubscribed {η : Type} (h : Host η) (subscriptions : Subscriptions η) (v : Value) :
    ({ h with subscriptions := subscriptions } : Host η).destroy v =
      (h.destroy v).map fun host => { host with subscriptions := subscriptions } := by
  unfold destroy
  split
  · rfl
  · split <;> rfl

/-- An outside next to one that differs from it at most in its subscriptions, in how often one was
ended, and in its observations. -/
inductive Outside.Kin (o : Outside) : Outside → Prop
  | intro (subscriptions : Subscriptions Listener) (calls : List (HostCall × Nat)) (trace : Array Entry) :
      (∀ c, c ≠ .unsubscribe → Keyed.get? c calls = Keyed.get? c o.calls) →
      Kin o { o with host := { o.host with subscriptions := subscriptions }, calls := calls, trace := trace }

/-- The two outsides have observed the same since they had observed `a` and `b`. -/
structure Outside.Alike (a b : List Entry) (o o' : Outside) : Prop where
  kin : o.Kin o'
  trace : ∃ since, o.trace.toList = a ++ since ∧ o'.trace.toList = b ++ since

structure Outside.Agree {β : Type} (a b : List Entry) (x x' : Outside × β) : Prop where
  outside : x.1.Alike a b x'.1
  answer : x.2 = x'.2

namespace Outside

theorem Kin.refl (o : Outside) : o.Kin o := .intro o.host.subscriptions o.calls o.trace fun _ _ => rfl

theorem Kin.trans {o p q : Outside} (h : o.Kin p) (k : p.Kin q) : o.Kin q := by
  obtain ⟨_, _, _, first⟩ := h
  obtain ⟨subscriptions, calls, trace, second⟩ := k
  exact .intro subscriptions calls trace fun c hc => (second c hc).trans (first c hc)

theorem Kin.staging {o o' : Outside} (h : o.Kin o') : o'.staging = o.staging := by
  cases h
  rfl

theorem Kin.sink {o o' : Outside} (h : o.Kin o') : o'.sink = o.sink := by
  cases h
  rfl

theorem Kin.handed {o o' : Outside} (h : o.Kin o') : o'.handed = o.handed := by
  cases h
  rfl

namespace Alike

variable {a b : List Entry} {o o' : Outside}

theorem record (h : o.Alike a b o') (e : Entry) : (o.record e).Alike a b (o'.record e) := by
  obtain ⟨⟨subscriptions, calls, trace, same⟩, since, eq, eq'⟩ := h
  refine ⟨.intro subscriptions calls (trace.push e) same, since ++ [e], ?_, ?_⟩
  · rw [Outside.record, Array.toList_push, eq, List.append_assoc]
  · rw [Outside.record, Array.toList_push, eq', List.append_assoc]

theorem diagnose (h : o.Alike a b o') (line : String) : (o.diagnose line).Alike a b (o'.diagnose line) :=
  h.record _

theorem log (h : o.Alike a b o') (message : String) (data : Value) :
    (o.log message data).Alike a b (o'.log message data) := by
  have counted : ({ o with handed := o.handed + 1 } : Outside).Alike a b { o' with handed := o'.handed + 1 } := by
    obtain ⟨⟨subscriptions, calls, trace, same⟩, since⟩ := h
    exact ⟨.intro subscriptions calls trace same, since⟩
  unfold Outside.log
  rw [h.kin.sink]
  split
  · exact h
  · dsimp only
    rw [h.kin.handed]
    rw [h.kin.sink, h.kin.handed] at counted
    split
    · exact counted.record _
    · exact counted.diagnose _

theorem withHost (h : o.Alike a b o') {f : Host Listener → Host Listener}
    (blind : ∀ host subscriptions, f { host with subscriptions := subscriptions } =
      { f host with subscriptions := subscriptions }) :
    ({ o with host := f o.host } : Outside).Alike a b { o' with host := f o'.host } := by
  obtain ⟨⟨subscriptions, calls, trace, same⟩, since⟩ := h
  have acted := Kin.intro (o := { o with host := f o.host }) subscriptions calls trace same
  dsimp only at acted
  rw [← blind o.host subscriptions] at acted
  exact ⟨acted, since⟩

theorem readClock (h : o.Alike a b o') :
    o.readClock.1 = o'.readClock.1 ∧ o.readClock.2.Alike a b o'.readClock.2 := by
  obtain ⟨⟨subscriptions, calls, trace, same⟩, since⟩ := h
  exact ⟨rfl, .intro subscriptions calls trace same, since⟩

theorem call (h : o.Alike a b o') {c : HostCall} (other : c ≠ .unsubscribe) :
    Agree a b (o.call c) (o'.call c) := by
  obtain ⟨⟨subscriptions, calls, trace, same⟩, since⟩ := h
  refine ⟨⟨.intro subscriptions _ trace fun d hd => ?_, since⟩, ?_⟩
  · rw [same c other, Keyed.get?_put, Outside.call, Keyed.get?_put, same d hd]
  · simp only [Outside.call, same c other]

theorem planned {β : Type} (h : o.Alike a b o') {c : HostCall} (other : c ≠ .unsubscribe)
    {act : Outside → Outside × Except Fault β}
    (acts : ∀ p p', p.Alike a b p' → Agree a b (act p) (act p')) :
    Agree a b (o.planned c act) (o'.planned c act) := by
  obtain ⟨alike, answer⟩ := h.call other
  unfold Outside.planned
  rw [← answer]
  split
  · exact ⟨alike, rfl⟩
  · exact acts _ _ alike

theorem mount (h : o.Alike a b o') (id : String) : Agree a b (o.mount id) (o'.mount id) := by
  rw [mount_eq, mount_eq]
  refine (h.record _).planned (c := .mount) nofun fun p p' alike =>
    ⟨alike.withHost (f := fun host => (host.mount id).1) ?_, rfl⟩
  intro host subscriptions
  dsimp only [Host.mount]
  split <;> rfl

theorem create (h : o.Alike a b o') (kind : String) (params : List (String × Value)) :
    Agree a b (o.create kind params) (o'.create kind params) := by
  rw [create_eq, create_eq]
  refine (h.record _).planned (c := .create) nofun fun p p' alike => ?_
  have element : (p'.host.create kind params).2 = (p.host.create kind params).2 := by
    obtain ⟨⟨_, _, _, _⟩, _⟩ := alike
    rfl
  exact ⟨alike.withHost (f := fun host => (host.create kind params).1) fun _ _ => rfl,
    congrArg (fun e => Except.ok (Value.element e)) element.symm⟩

theorem fly (h : o.Alike a b o') (handle keyframes duration : Value) :
    Agree a b (o.fly handle keyframes duration) (o'.fly handle keyframes duration) := by
  have recorded := h.withHost (f := fun host => host.record handle keyframes duration) fun _ _ => rfl
  have seconds : (o'.host.record handle keyframes duration).seconds duration =
      (o.host.record handle keyframes duration).seconds duration := by
    obtain ⟨⟨_, _, _, _⟩, _⟩ := h
    rfl
  unfold Outside.fly
  dsimp only
  rw [seconds]
  split
  · exact ⟨recorded, rfl⟩
  · exact ⟨recorded.record _, rfl⟩

theorem animate (h : o.Alike a b o') (handle keyframes duration : Value) :
    Agree a b (o.animate handle keyframes duration) (o'.animate handle keyframes duration) := by
  rw [animate_eq, animate_eq]
  exact (h.record _).planned (c := .animate) nofun fun p p' alike => alike.fly handle keyframes duration

theorem remove (h : o.Alike a b o') (handle : Value) : Agree a b (o.remove handle) (o'.remove handle) := by
  obtain ⟨⟨subscriptions, calls, trace, same⟩, since⟩ := h
  have resubscribed := o.host.destroy_resubscribed subscriptions handle
  unfold Outside.remove
  dsimp only at resubscribed ⊢
  rw [resubscribed]
  cases o.host.destroy handle with
  | error f => exact ⟨⟨.intro subscriptions calls trace same, since⟩, rfl⟩
  | ok host =>
    have removed := Kin.intro (o := { o with host := host }) subscriptions calls trace same
    exact ⟨⟨removed, since⟩, rfl⟩

theorem destroy (h : o.Alike a b o') (handle : Value) : Agree a b (o.destroy handle) (o'.destroy handle) := by
  rw [destroy_eq, destroy_eq]
  exact (h.record _).planned (c := .destroy) nofun fun p p' alike => alike.remove handle

end Alike

end Outside

structure Scene.Alike (a b : List Entry) (s s' : Scene) : Prop where
  memory : s.memory = s'.memory
  outside : s.outside.Alike a b s'.outside

structure Scene.Agree {β : Type} (a b : List Entry) (x x' : Scene × β) : Prop where
  scene : x.1.Alike a b x'.1
  result : x.2 = x'.2

section

variable {α : Type} {a b : List Entry} {s s' : Scene}

theorem Scene.Alike.call (h : s.Alike a b s') (due : Bool) (make : Outside → Outside × α)
    (makes : Outside.Agree a b (make s.outside) (make s'.outside)) :
    Scene.Agree a b (s.call due make) (s'.call due make) := by
  unfold Scene.call
  rw [h.outside.kin.staging]
  split
  · exact ⟨h, rfl⟩
  · exact ⟨⟨h.memory, makes.outside⟩, congrArg Reply.now makes.answer⟩

theorem Scene.Alike.animate (h : s.Alike a b s') (handle keyframes duration : Value) :
    Scene.Agree a b (s.animate handle keyframes duration) (s'.animate handle keyframes duration) := by
  have animated := h.outside.animate handle keyframes duration
  unfold Scene.animate
  generalize s.outside.animate handle keyframes duration = x at animated
  generalize s'.outside.animate handle keyframes duration = x' at animated
  obtain ⟨o, answer⟩ := x
  obtain ⟨o', answer'⟩ := x'
  obtain ⟨alike, rfl⟩ := animated
  cases answer with
  | error f => exact ⟨⟨h.memory, alike⟩, rfl⟩
  | ok _ =>
    obtain ⟨⟨subscriptions, calls, trace, same⟩, since⟩ := alike
    dsimp only
    split
    · have gate := Outside.Kin.intro (o := { o with gates := o.gates + 1 }) subscriptions calls trace same
      exact ⟨⟨h.memory, ⟨gate, since⟩⟩, rfl⟩
    · exact ⟨⟨h.memory, ⟨.intro subscriptions calls trace same, since⟩⟩, rfl⟩

theorem Scene.Alike.publish (h : s.Alike a b s') (port : Endpoint) (v : Value) :
    (s.publish port v).Alike a b (s'.publish port v) := by
  refine ⟨?_, h.outside.diagnose _⟩
  rw [Scene.publish, Scene.publish, h.memory]

theorem Scene.Alike.meet (h : s.Alike a b s') (due : Bool) (r : Request) :
    Scene.Agree a b (s.meet due r) (s'.meet due r) := by
  cases r with
  | log message data => exact ⟨⟨h.memory, h.outside.log message data⟩, rfl⟩
  | diagnose line => exact ⟨⟨h.memory, h.outside.diagnose line⟩, rfl⟩
  | cached port => exact ⟨h, by rw [Scene.meet, Scene.meet, h.memory]⟩
  | publish port v => exact ⟨h.publish port v, rfl⟩
  | lastEvent => exact ⟨h, by rw [Scene.meet, Scene.meet, h.memory]⟩
  | clock =>
    obtain ⟨reading, outside⟩ := h.outside.readClock
    exact ⟨⟨h.memory, outside⟩, congrArg Reply.now reading⟩
  | mount id => exact h.call due (·.mount id) (h.outside.mount id)
  | create kind params => exact h.call due (·.create kind params) (h.outside.create kind params)
  | animate handle keyframes duration => exact h.animate handle keyframes duration
  | destroy handle => exact h.call due (·.destroy handle) (h.outside.destroy handle)
  | pause => exact ⟨h, rfl⟩

theorem Scene.Alike.perform (h : s.Alike a b s') (due : Bool) (x : Action α) :
    Scene.Agree a b (x.perform due s) (x.perform due s') ∧ x.deeds due s = x.deeds due s' := by
  induction x generalizing due s s' with
  | done x => exact ⟨⟨h, rfl⟩, rfl⟩
  | failed f => exact ⟨⟨h, rfl⟩, rfl⟩
  | ask r next ih =>
    have met := h.meet due r
    simp only [Action.perform, Action.deeds]
    generalize s.meet due r = y at met
    generalize s'.meet due r = y' at met
    obtain ⟨p, reply⟩ := y
    obtain ⟨p', reply'⟩ := y'
    obtain ⟨alike, rfl⟩ := met
    cases reply with
    | now x =>
      obtain ⟨agree, deeds⟩ := ih x alike false
      exact ⟨agree, congrArg _ deeds⟩
    | later x => exact ⟨⟨alike, rfl⟩, rfl⟩
    | again => exact ⟨⟨alike, rfl⟩, rfl⟩
    | atGate gate answer => exact ⟨⟨alike, rfl⟩, rfl⟩

theorem Scene.Alike.thread (h : s.Alike a b s') (t : Thread α) :
    Scene.Agree a b (t.perform s) (t.perform s') ∧ t.deeds s = t.deeds s' := by
  cases t with
  | ready x => exact h.perform false x
  | due x => exact h.perform true x
  | waiting gate next => exact ⟨⟨h, rfl⟩, rfl⟩

end

/-- A run without what its triggers change. -/
def GraphRun.paced (r : GraphRun) : GraphRun := { r with armed := false, subscriptions := [], stopped := false }

/-- The same tasks and turns, and runs that differ in their triggers only. -/
structure Session.Alike (a b : List Entry) (s s' : Session) : Prop where
  outside : s.outside.Alike a b s'.outside
  runs : s.runs.map GraphRun.paced = s'.runs.map GraphRun.paced
  tasks : s.tasks = s'.tasks
  queue : s.queue = s'.queue
  running : s.running = s'.running

namespace Session.Alike

variable {a b : List Entry} {s s' : Session}

theorem run (h : s.Alike a b s') (k : Nat) :
    (s.runs[k]?).map GraphRun.paced = (s'.runs[k]?).map GraphRun.paced := by
  have item := congrArg (fun l => l[k]?) h.runs
  simpa only [List.getElem?_map] using item

theorem modifyRun (h : s.Alike a b s') (k : Nat) {f f' : GraphRun → GraphRun}
    (same : ∀ r r', r.paced = r'.paced → (f r).paced = (f' r').paced) :
    (s.modifyRun k f).Alike a b (s'.modifyRun k f') := by
  refine ⟨h.outside, List.ext_getElem? fun j => ?_, h.tasks, h.queue, h.running⟩
  have item := h.run j
  simp only [Session.modifyRun, List.getElem?_map, List.getElem?_modify]
  cases left : s.runs[j]? with
  | none =>
    cases right : s'.runs[j]? with
    | none => rfl
    | some r' => simp [left, right] at item
  | some r =>
    cases right : s'.runs[j]? with
    | none => simp [left, right] at item
    | some r' =>
      have paced : r.paced = r'.paced := by simpa [left, right] using item
      by_cases hk : k = j <;> simp [hk, paced, same r r' paced]

theorem withOutside (h : s.Alike a b s') {o o' : Outside} (outside : o.Alike a b o') :
    ({ s with outside := o } : Session).Alike a b { s' with outside := o' } :=
  ⟨outside, h.runs, h.tasks, h.queue, h.running⟩

theorem adopt (h : s.Alike a b s') (k : Nat) {x x' : Scene} (scene : x.Alike a b x') :
    (s.adopt k x).Alike a b (s'.adopt k x') := by
  refine (h.modifyRun k fun r r' paced => ?_).withOutside scene.outside
  have kept := congrArg (fun r : GraphRun => { r with memory := x.memory }) paced
  rw [← scene.memory]
  exact kept

theorem setWork (h : s.Alike a b s') (i : Nat) (w : Work) : (s.setWork i w).Alike a b (s'.setWork i w) :=
  ⟨h.outside, h.runs, by rw [Session.setWork, Session.setWork, h.tasks], h.queue, h.running⟩

theorem enqueue (h : s.Alike a b s') (t : Turn) : (s.enqueue t).Alike a b (s'.enqueue t) :=
  ⟨h.outside, h.runs, h.tasks, by rw [Session.enqueue, Session.enqueue, h.queue], h.running⟩

theorem rest (h : s.Alike a b s') : s.rest.Alike a b s'.rest :=
  ⟨h.outside, h.runs, h.tasks, h.queue, rfl⟩

theorem conclude (h : s.Alike a b s') (i : Nat) (counted : Bool) (w : Work) :
    (s.conclude i counted w).Alike a b (s'.conclude i counted w) := by
  cases counted with
  | true => exact (h.setWork i w).rest.enqueue _
  | false => exact (h.setWork i w).rest

theorem suspend (h : s.Alike a b s') (i : Nat) (w : Work) : (s.suspend i w).Alike a b (s'.suspend i w) := by
  unfold Session.suspend
  dsimp only
  split
  · exact (h.setWork i w).rest
  · exact (h.setWork i w).rest.enqueue _

theorem scene (h : s.Alike a b s') {r r' : GraphRun} (paced : r.paced = r'.paced) :
    (s.scene r).Alike a b (s'.scene r') :=
  ⟨(congrArg GraphRun.memory paced :), h.outside⟩

variable {r r' : GraphRun} (paced : r.paced = r'.paced)

include paced

theorem advancePulse (h : s.Alike a b s') (i : Nat) (t : Task) (p : Pulse) :
    (s.advancePulse i t r p).Alike a b (s'.advancePulse i t r' p) := by
  have performed := ((h.scene paced).thread p.visit).1
  have environment : r.environment = r'.environment := (congrArg GraphRun.environment paced :)
  unfold Session.advancePulse
  generalize p.visit.perform (s.scene r) = x at performed
  generalize p.visit.perform (s'.scene r') = x' at performed
  obtain ⟨scene, progress⟩ := x
  obtain ⟨scene', progress'⟩ := x'
  obtain ⟨alike, rfl⟩ := performed
  have adopted := h.adopt t.run alike
  cases progress with
  | suspended visit => exact adopted.suspend i _
  | ended result =>
    cases result with
    | error f => exact adopted.conclude i t.counted _
    | ok ids =>
      dsimp only
      rw [environment]
      split
      · exact adopted.setWork i _
      · exact adopted.conclude i t.counted _

theorem advanceLookup (h : s.Alike a b s') (i : Nat) (t : Task) (thread : Thread Value) :
    (s.advanceLookup i t r thread).Alike a b (s'.advanceLookup i t r' thread) := by
  have performed := ((h.scene paced).thread thread).1
  unfold Session.advanceLookup
  generalize thread.perform (s.scene r) = x at performed
  generalize thread.perform (s'.scene r') = x' at performed
  obtain ⟨scene, progress⟩ := x
  obtain ⟨scene', progress'⟩ := x'
  obtain ⟨alike, rfl⟩ := performed
  have adopted := h.adopt t.run alike
  cases progress with
  | suspended thread => exact adopted.suspend i _
  | ended result => exact adopted.conclude i t.counted _

omit paced

theorem found (h : s.Alike a b s') (k : Nat) :
    (s.runs[k]? = none ∧ s'.runs[k]? = none) ∨
      ∃ r r', s.runs[k]? = some r ∧ s'.runs[k]? = some r' ∧ r.paced = r'.paced := by
  have item := h.run k
  cases left : s.runs[k]? with
  | none =>
    cases right : s'.runs[k]? with
    | none => exact .inl ⟨rfl, rfl⟩
    | some r' => simp [left, right] at item
  | some r =>
    cases right : s'.runs[k]? with
    | none => simp [left, right] at item
    | some r' => exact .inr ⟨r, r', rfl, rfl, by simpa [left, right] using item⟩

theorem advance (h : s.Alike a b s') (i : Nat) : (s.advance i).Alike a b (s'.advance i) := by
  unfold Session.advance
  rw [← h.tasks]
  cases s.tasks[i]? with
  | none => exact h.rest
  | some t =>
    dsimp only
    split
    · exact h.conclude i t.counted .dropped
    · rcases h.found t.run with ⟨left, right⟩ | ⟨r, r', left, right, paced⟩
      · rw [left, right]
        exact h.rest
      · rw [left, right]
        cases t.work with
        | pulse p => exact h.advancePulse paced i t p
        | lookup thread => exact h.advanceLookup paced i t thread
        | ended result => exact h.rest
        | dropped => exact h.rest

theorem deeds (h : s.Alike a b s') (i : Nat) : s.deeds i = s'.deeds i := by
  unfold Session.deeds
  rw [← h.tasks]
  cases s.tasks[i]? with
  | none => rfl
  | some t =>
    dsimp only
    split
    · rfl
    · rcases h.found t.run with ⟨left, right⟩ | ⟨r, r', left, right, paced⟩
      · rw [left, right]
      · rw [left, right]
        cases t.work with
        | pulse p =>
          obtain ⟨performed, same⟩ := (h.scene paced).thread p.visit
          dsimp only
          rw [same, performed.result]
        | lookup thread => exact ((h.scene paced).thread thread).2
        | ended result => rfl
        | dropped => rfl

theorem complete (h : s.Alike a b s') (i : Nat) : (s.complete i).Alike a b (s'.complete i) := by
  unfold Session.complete
  rw [← h.tasks]
  cases s.tasks[i]? with
  | none => exact h
  | some t =>
    have erased : ∀ r r' : GraphRun, r.paced = r'.paced → GraphRun.paced { r with inFlight := r.inFlight.erase i } =
        GraphRun.paced { r' with inFlight := r'.inFlight.erase i } := fun r r' paced =>
      (congrArg (fun r : GraphRun => { r with inFlight := r.inFlight.erase i }) paced :)
    have landed := h.modifyRun t.run erased
    dsimp only
    split
    · exact landed.withOutside ((landed.outside.diagnose _).log _ _)
    · exact landed

theorem step (h : s.Alike a b s') : (s.step?.getD s).Alike a b (s'.step?.getD s') := by
  have running := h.running
  have queue := h.queue
  cases turned : s.running with
  | some i =>
    rw [turned] at running
    rw [step_running turned, step_running running.symm]
    exact h.advance i
  | none =>
    rw [turned] at running
    cases queued : s.queue with
    | nil =>
      rw [queued] at queue
      rw [step_idle turned queued, step_idle running.symm queue.symm]
      exact h
    | cons turn rest =>
      rw [queued] at queue
      rw [step_turn turned queued, step_turn running.symm queue.symm]
      have shorter : ({ s with queue := rest } : Session).Alike a b { s' with queue := rest } :=
        ⟨h.outside, h.runs, h.tasks, rfl, h.running⟩
      cases turn with
      | resume i => exact ⟨h.outside, h.runs, h.tasks, rfl, rfl⟩
      | complete i => exact shorter.complete i

theorem prefer (h : s.Alike a b s') (place : Nat) : (s.prefer place).Alike a b (s'.prefer place) := by
  unfold Session.prefer
  rw [← h.queue]
  split
  · exact ⟨h.outside, h.runs, h.tasks, rfl, h.running⟩
  · exact h

theorem addTarget (h : s.Alike a b s') (selector : String) :
    (s.addTarget selector).Alike a b (s'.addTarget selector) := by
  refine h.withOutside (h.outside.withHost (f := fun host => host.addTarget selector) fun host subscriptions => ?_)
  dsimp only [Host.addTarget]
  split <;> rfl

theorem settle (h : s.Alike a b s') (gate : Nat) (result : Except Fault Unit) :
    (s.settle gate result).1.Alike a b (s'.settle gate result).1 := by
  unfold Session.settle waitingAt?
  rw [← h.tasks]
  split
  · exact h
  · have settled : ∀ i, ({ s with tasks := s.tasks.modify i fun t => { t with work := t.work.settle result } } :
        Session).Alike a b { s' with tasks := s.tasks.modify i fun t => { t with work := t.work.settle result } } :=
      fun _ => ⟨h.outside, h.runs, rfl, h.queue, h.running⟩
    exact (settled _).enqueue _

end Session.Alike

end ActionGraph
