import ActionGraph.Proofs.Session.Frame

/-!
What lasts. Requests reach the outside in a few ways only, so what each of these keeps is kept by
every turn of a task, however it goes on.
-/

namespace ActionGraph

/-- What none of the ways in which requests reach the outside makes false. -/
structure Outside.Lasting (P : Outside → Prop) : Prop where
  recorded : ∀ {o} (e : Entry), P o → P (o.record e)
  handed : ∀ {o}, P o → P { o with handed := o.handed + 1 }
  timed : ∀ {o}, P o → P { o with clock := o.clock.read.2 }
  counted : ∀ {o} (c : HostCall), P o → P (o.call c).1
  gated : ∀ {o}, P o → P { o with gates := o.gates + 1 }
  mounted : ∀ {o} (id : String), P o → P { o with host := (o.host.mount id).1 }
  created : ∀ {o} (kind : String) (params : List (String × Value)), P o →
    P { o with host := (o.host.create kind params).1 }
  animated : ∀ {o} (handle keyframes duration : Value), P o →
    P { o with host := o.host.record handle keyframes duration }
  destroyed : ∀ {o} {handle : Value} {host : Host Listener}, o.host.destroy handle = .ok host → P o →
    P { o with host := host }

/-- What a host and its circumstances are for those who listen: no request changes any of it. -/
structure Fittings where
  staging : Staging
  sink : Sink
  targets : List String
  subscriptions : Subscriptions Listener

def Outside.fittings (o : Outside) : Fittings := ⟨o.staging, o.sink, o.host.targets, o.host.subscriptions⟩

theorem Scene.call_keeps {P : Outside → Prop} {s : Scene} {α : Type} (due : Bool) (make : Outside → Outside × α)
    (h : P s.outside) (made : P (make s.outside).1) : P (s.call due make).1.outside := by
  unfold call
  split
  · exact h
  · exact made

namespace Outside.Lasting

variable {P : Outside → Prop} (lasting : Lasting P)

theorem fittings (f : Fittings) : Lasting fun o => o.fittings = f where
  recorded _ h := h
  handed h := h
  timed h := h
  counted _ h := h
  gated h := h
  mounted {o} id h := by
    rw [← h]
    unfold Outside.fittings Host.mount
    dsimp only
    split <;> rfl
  created _ _ h := h
  animated _ _ _ h := h
  destroyed removed h := by
    obtain ⟨_, rfl⟩ := Host.destroy_tree removed
    exact h

include lasting

theorem log {o : Outside} (message : String) (data : Value) (h : P o) : P (o.log message data) :=
  o.log_keeps (P := P) message data h (lasting.handed h) fun _ e held => lasting.recorded e held

theorem animate {o : Outside} (handle keyframes duration : Value) (h : P o) :
    P (o.animate handle keyframes duration).1 := by
  rw [animate_eq]
  refine Outside.planned_keeps (P := P) _ .animate (lasting.counted .animate (lasting.recorded _ h)) fun p held => ?_
  have flown := lasting.animated handle keyframes duration held
  unfold fly
  dsimp only
  split
  · exact flown
  · exact lasting.recorded _ flown

theorem destroy {o : Outside} (handle : Value) (h : P o) : P (o.destroy handle).1 := by
  rw [destroy_eq]
  refine Outside.planned_keeps (P := P) _ .destroy (lasting.counted .destroy (lasting.recorded _ h)) fun p held => ?_
  unfold remove
  split
  · exact held
  · rename_i removed
    exact lasting.destroyed removed held

theorem meet {s : Scene} (due : Bool) (r : Request) (h : P s.outside) : P (s.meet due r).1.outside := by
  cases r with
  | log message data => exact lasting.log message data h
  | diagnose line => exact lasting.recorded _ h
  | publish port v => exact lasting.recorded _ h
  | clock => exact lasting.timed h
  | cached port => exact h
  | lastEvent => exact h
  | pause => exact h
  | mount id =>
    refine Scene.call_keeps due (·.mount id) h ?_
    rw [Outside.mount_eq]
    exact Outside.planned_keeps (P := P) _ .mount (lasting.counted .mount (lasting.recorded _ h)) fun _ =>
      lasting.mounted id
  | create kind params =>
    refine Scene.call_keeps due (·.create kind params) h ?_
    rw [Outside.create_eq]
    exact Outside.planned_keeps (P := P) _ .create (lasting.counted .create (lasting.recorded _ h)) fun _ =>
      lasting.created kind params
  | destroy handle => exact Scene.call_keeps due (·.destroy handle) h (lasting.destroy handle h)
  | animate handle keyframes duration =>
    have animated := lasting.animate handle keyframes duration h
    unfold Scene.meet Scene.animate
    dsimp only
    split
    · rename_i called
      rwa [called] at animated
    · rename_i called
      rw [called] at animated
      split
      · exact lasting.gated animated
      · exact animated

theorem perform {α : Type} (a : Action α) (due : Bool) {s : Scene} (h : P s.outside) :
    P (a.perform due s).1.outside := by
  induction a generalizing due s with
  | done x => exact h
  | failed f => exact h
  | ask r next ih =>
    have met := lasting.meet due r h
    rw [Action.perform]
    generalize s.meet due r = x at met
    obtain ⟨s', x | x | _ | ⟨gate, answer⟩⟩ := x
    · exact ih x false met
    · exact met
    · exact met
    · exact met

theorem thread {α : Type} (t : Thread α) {s : Scene} (h : P s.outside) : P (t.perform s).1.outside := by
  cases t with
  | ready a => exact lasting.perform a false h
  | due a => exact lasting.perform a true h
  | waiting gate next => exact h

theorem advance {s : Session} (h : P s.outside) (i : Nat) : P (s.advance i).outside := by
  cases task : s.tasks[i]? with
  | none => simpa [Session.advance, Session.rest, task] using h
  | some t =>
    cases s.goes i task with
    | rests _ _ outside _ => exact outside ▸ h
    | @pulses r p _ _ _ _ outside _ => exact outside ▸ lasting.thread p.visit (s := s.scene r) h
    | @looks r thread _ _ _ _ outside _ => exact outside ▸ lasting.thread thread (s := s.scene r) h

theorem complete {s : Session} (h : P s.outside) (i : Nat) : P (s.complete i).outside := by
  unfold Session.complete
  split
  · exact h
  · dsimp only
    split
    · exact lasting.log _ _ (lasting.recorded _ h)
    · exact h

theorem step {s : Session} (h : P s.outside) : P (s.step?.getD s).outside :=
  Session.step_keeps (P := fun s => P s.outside) s h (fun i _ => lasting.advance h i) (fun _ _ _ _ => h)
    fun i rest _ _ => lasting.complete (s := { s with queue := rest }) h i

theorem notify {s : Session} (h : P s.outside) (l : Listener) (payload : Value) :
    P (s.notify l payload).1.outside := by
  have called := s.notified l payload
  generalize s.notify l payload = result at called
  cases called with
  | unarmed _ => exact h
  | refused _ _ _ => exact lasting.timed h
  | begun _ _ _ => exact lasting.recorded _ (lasting.timed h)

theorem notifyAll {s : Session} (h : P s.outside) (payload : Value) (ls : List Listener) :
    P (s.notifyAll payload ls).1.outside :=
  Session.notifyAll_keeps (P := fun s => P s.outside) payload (fun _ l _ h => lasting.notify h l payload) h

end Outside.Lasting

end ActionGraph
