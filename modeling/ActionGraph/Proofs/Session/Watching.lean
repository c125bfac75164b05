import ActionGraph.Proofs.Session.Calls
import ActionGraph.Proofs.Session.History

/-!
Nothing that is done depends on who watches. Where log entries go, how many went there and what was
observed are written all the time and read by nothing but the log, so every operation comes to the
same whatever they are, and adds the same observations to them.
-/

namespace ActionGraph

/-- Where log entries go, how many have gone there, and what was observed. -/
structure Watch where
  sink : Sink
  handed : Nat
  trace : Array Entry

namespace Watch

def record (w : Watch) (e : Entry) : Watch := { w with trace := w.trace.push e }

/-- Takes note of what happens. A log entry is handed to the sink. -/
def note (w : Watch) : Entry → Watch
  | .logged message data =>
    match w.sink with
    | .nowhere => w
    | .present fault? =>
      let handed : Watch := { w with handed := w.handed + 1 }
      match fault? w.handed message data with
      | none => handed.record (.logged message data)
      | some f => handed.record (.diagnostic ("[ENGINE] log sink raised " ++ f.line))
  | e => w.record e

def notes (w : Watch) (es : List Entry) : Watch := es.foldl note w

theorem notes_append (w : Watch) (es more : List Entry) : w.notes (es ++ more) = (w.notes es).notes more :=
  List.foldl_append

end Watch

/-- What is observed of these entries with a sink that has been handed `n` entries before. Without a
sink there are no log entries, and an entry that the sink fails at is reported instead. -/
def Sink.shown (k : Sink) (n : Nat) : List Entry → List Entry
  | [] => []
  | .logged message data :: es =>
    match k with
    | .nowhere => k.shown n es
    | .present fault? =>
      (match fault? n message data with
        | none => .logged message data
        | some f => .diagnostic ("[ENGINE] log sink raised " ++ f.line)) :: k.shown (n + 1) es
  | e :: es => e :: k.shown n es

/-- The message and the data of a log entry. -/
def Entry.call? : Entry → Option (String × Value)
  | .logged message data => some (message, data)
  | _ => none

/-- There is a sink, and it fails at none of the log entries among these, the first of which is the
one after `n` others. -/
def Sink.Takes (k : Sink) (n : Nat) (es : List Entry) : Prop :=
  ∃ fault?, k = .present fault? ∧
    ∀ i message data, (es.filterMap Entry.call?)[i]? = some (message, data) → fault? (n + i) message data = none

def Outside.watch (o : Outside) : Watch := ⟨o.sink, o.handed, o.trace⟩

/-- What is watched, and could be watched differently. -/
class Watched (σ : Type) where
  watch : σ → Watch
  watched : σ → Watch → σ
  watch_watched : ∀ s w, watch (watched s w) = w
  watched_watch : ∀ s, watched s (watch s) = s

export Watched (watch watched watch_watched watched_watch)

instance : Watched Outside where
  watch o := o.watch
  watched o w := { o with sink := w.sink, handed := w.handed, trace := w.trace }
  watch_watched _ _ := rfl
  watched_watch _ := rfl

instance : Watched Scene where
  watch s := s.outside.watch
  watched s w := { s with outside := watched s.outside w }
  watch_watched _ _ := rfl
  watched_watch _ := rfl

instance {σ β : Type} [Watched σ] : Watched (σ × β) where
  watch x := watch x.1
  watched x w := (watched x.1 w, x.2)
  watch_watched x w := watch_watched x.1 w
  watched_watch x := Prod.ext (watched_watch x.1) rfl

section

variable {σ τ υ β γ : Type} [Watched σ] [Watched τ] [Watched υ]

/-- Whoever watches, the same happens, and the same observations are added. -/
def Unaware (f : σ → τ) : Prop :=
  ∀ s, ∃ since : List Entry, ∀ w, f (watched s w) = watched (f s) (w.notes since)

/-- Does not tell who watches. -/
def Blind (f : σ → β) : Prop := ∀ s w, f (watched s w) = f s

theorem unaware_of_silent {f : σ → τ} (silent : ∀ s w, f (watched s w) = watched (f s) w) : Unaware f :=
  fun s => ⟨[], silent s⟩

theorem unaware_of_noted {f : σ → τ} (e : Entry) (noted : ∀ s w, f (watched s w) = watched (f s) (w.note e)) : Unaware f :=
  fun s => ⟨[e], noted s⟩

theorem unaware_id : Unaware fun s : σ => s := unaware_of_silent fun _ _ => rfl

theorem Unaware.since {f : σ → τ} (unaware : Unaware f) (s : σ) (since : List Entry) :
    ∃ all : List Entry, ∀ w : Watch, f (watched s (w.notes since)) = watched (f s) (w.notes all) := by
  obtain ⟨more, same⟩ := unaware s
  refine ⟨since ++ more, fun w => ?_⟩
  rw [same, Watch.notes_append]

theorem Unaware.andThen {f : σ → τ} {g : τ → υ} (first : Unaware f) (rest : Unaware g) : Unaware fun s => g (f s) := by
  intro s
  obtain ⟨since, same⟩ := first s
  obtain ⟨all, further⟩ := rest.since (f s) since
  refine ⟨all, fun w => ?_⟩
  dsimp only
  rw [same, further]

theorem Unaware.result {f : σ → τ × β} (unaware : Unaware f) : Blind fun s => (f s).2 := by
  intro s w
  obtain ⟨since, same⟩ := unaware s
  dsimp only
  rw [same]
  rfl

theorem Unaware.leads {f : σ → τ × β} (unaware : Unaware f) {s : σ} {t : τ} {b : β} (led : f s = (t, b)) :
    ∃ since : List Entry, ∀ w, f (watched s w) = (watched t (w.notes since), b) := by
  obtain ⟨since, same⟩ := unaware s
  rw [led] at same
  exact ⟨since, same⟩

/-- What was observed, whoever watches, is also what has been observed since. -/
theorem Unaware.observes {f : σ → τ} (unaware : Unaware f) (s : σ) : ∃ since : List Entry,
    watch (f s) = (watch s).notes since ∧ ∀ w, f (watched s w) = watched (f s) (w.notes since) := by
  obtain ⟨since, same⟩ := unaware s
  have own := congrArg watch (same (watch s))
  rw [watched_watch, watch_watched] at own
  exact ⟨since, own, same⟩

theorem Unaware.state {f : σ → τ × β} (unaware : Unaware f) : Unaware fun s => (f s).1 :=
  unaware.andThen (unaware_of_silent fun _ _ => rfl)

end

namespace Outside

variable {β : Type}

theorem unaware_record {e : Entry} (plain : ∀ w : Watch, w.note e = w.record e) : Unaware fun o : Outside => o.record e :=
  unaware_of_noted e fun o w => by
    rw [plain]
    rfl

theorem unaware_diagnose (line : String) : Unaware fun o : Outside => o.diagnose line :=
  unaware_record fun _ => rfl

theorem log_eq (o : Outside) (message : String) (data : Value) :
    o.log message data = watched o (o.watch.note (.logged message data)) := by
  obtain ⟨host, staging, calls, clock, sink, handed, gates, trace⟩ := o
  cases sink with
  | nowhere => rfl
  | present fault? =>
    simp only [Outside.log, Watch.note, watch]
    cases fault? handed message data <;> rfl

theorem unaware_log (message : String) (data : Value) : Unaware fun o : Outside => o.log message data := by
  refine unaware_of_noted (.logged message data) fun o w => ?_
  rw [log_eq, log_eq]
  rfl

theorem unaware_planned (c : HostCall) {act : Outside → Outside × Except Fault β} (acts : Unaware act) :
    Unaware fun o : Outside => o.planned c act := by
  intro o
  have counted : ∀ w, (watched o w).call c = (watched (o.call c).1 w, (o.call c).2) := fun _ => rfl
  simp only [planned, counted]
  cases (o.call c).2 with
  | some f => exact ⟨[], fun _ => rfl⟩
  | none => exact acts _

theorem unaware_mount (id : String) : Unaware fun o : Outside => o.mount id := by
  simp only [mount_eq]
  exact (unaware_record fun _ => rfl).andThen (unaware_planned .mount (unaware_of_silent fun _ _ => rfl))

theorem unaware_create (kind : String) (params : List (String × Value)) :
    Unaware fun o : Outside => o.create kind params := by
  simp only [create_eq]
  exact (unaware_record fun _ => rfl).andThen (unaware_planned .create (unaware_of_silent fun _ _ => rfl))

theorem unaware_fly (handle keyframes duration : Value) :
    Unaware fun o : Outside => o.fly handle keyframes duration := by
  intro o
  have timed : ∀ w, ((watched o w).host.record handle keyframes duration).seconds duration =
      (o.host.record handle keyframes duration).seconds duration := fun _ => rfl
  simp only [fly, timed]
  cases (o.host.record handle keyframes duration).seconds duration with
  | error f => exact ⟨[], fun _ => rfl⟩
  | ok seconds => exact ⟨[.slept seconds], fun _ => rfl⟩

theorem unaware_animate (handle keyframes duration : Value) :
    Unaware fun o : Outside => o.animate handle keyframes duration := by
  simp only [animate_eq]
  exact (unaware_record fun _ => rfl).andThen (unaware_planned .animate (unaware_fly handle keyframes duration))

theorem unaware_remove (handle : Value) : Unaware fun o : Outside => o.remove handle := by
  intro o
  have removed : ∀ w, (watched o w).host.destroy handle = o.host.destroy handle := fun _ => rfl
  simp only [remove, removed]
  cases o.host.destroy handle with
  | error f => exact ⟨[], fun _ => rfl⟩
  | ok host => exact ⟨[], fun _ => rfl⟩

theorem unaware_destroy (handle : Value) : Unaware fun o : Outside => o.destroy handle := by
  simp only [destroy_eq]
  exact (unaware_record fun _ => rfl).andThen (unaware_planned .destroy (unaware_remove handle))

theorem unaware_recordPlanned (c : HostCall) {e : Entry} (plain : ∀ w : Watch, w.note e = w.record e) :
    Unaware fun o : Outside => o.recordPlanned c e := by
  intro o
  have planned : ∀ w, (watched o w).staging.plans c = o.staging.plans c := fun _ => rfl
  simp only [recordPlanned, planned]
  cases o.staging.plans c with
  | true => exact unaware_record plain o
  | false => exact ⟨[], fun _ => rfl⟩

theorem unaware_resolve (selector : String) : Unaware fun o : Outside => o.resolve selector := by
  simp only [resolve_eq]
  exact (unaware_recordPlanned .resolve fun _ => rfl).andThen
    (unaware_planned .resolve (unaware_of_silent fun _ _ => rfl))

theorem unaware_subscribe (s : Subscription) : Unaware fun o : Outside => o.subscribe s :=
  unaware_of_silent fun _ _ => rfl

theorem unaware_unsubscribe (s : Subscription) : Unaware fun o : Outside => o.unsubscribe s := by
  intro o
  have kept : ∀ w, (watched o w).staging.sticky = o.staging.sticky := fun _ => rfl
  cases sticky : o.staging.sticky with
  | true =>
    simp only [unsubscribe, kept, sticky]
    exact ⟨[], fun _ => rfl⟩
  | false =>
    have ends : Unaware fun p : Outside => (p.recordPlanned .unsubscribe .unsubscribe).planned .unsubscribe fun q =>
        ({ q with host := q.host.unsubscribe s.channel s.listener }, Except.ok ()) :=
      (unaware_recordPlanned .unsubscribe fun _ => rfl).andThen
        (unaware_planned .unsubscribe (unaware_of_silent fun _ _ => rfl))
    obtain ⟨since, same⟩ := ends o
    refine ⟨since, fun w => ?_⟩
    dsimp only
    rw [o.unsubscribe_eq s sticky, (watched o w).unsubscribe_eq s ((kept w).trans sticky)]
    exact same w

end Outside

namespace Scene

variable {α : Type}

theorem unaware_call (due : Bool) {make : Outside → Outside × α} (makes : Unaware make) :
    Unaware fun s : Scene => s.call due make := by
  intro s
  have staged : ∀ w, (watched s w).outside.staging = s.outside.staging := fun _ => rfl
  simp only [call, staged]
  cases s.outside.staging.deferred && !due with
  | true => exact ⟨[], fun _ => rfl⟩
  | false =>
    obtain ⟨since, same⟩ := makes s.outside
    refine ⟨since, fun w => ?_⟩
    have made : make (watched s w).outside = watched (make s.outside) (w.notes since) := same w
    rw [made]
    rfl

theorem unaware_animate (handle keyframes duration : Value) :
    Unaware fun s : Scene => s.animate handle keyframes duration := by
  intro s
  obtain ⟨since, same⟩ := Outside.unaware_animate handle keyframes duration s.outside
  refine ⟨since, fun w => ?_⟩
  have animated : (watched s w).outside.animate handle keyframes duration =
      watched (s.outside.animate handle keyframes duration) (w.notes since) := same w
  simp only [animate, animated]
  rcases s.outside.animate handle keyframes duration with ⟨o, f | _⟩
  · rfl
  · simp only [watched]
    cases o.staging.gated <;> rfl

theorem unaware_meet (due : Bool) (r : Request) : Unaware fun s : Scene => s.meet due r := by
  cases r with
  | log message data =>
    intro s
    obtain ⟨since, same⟩ := Outside.unaware_log message data s.outside
    exact ⟨since, fun w => congrArg (fun o => ((⟨s.memory, o⟩ : Scene), Reply.now ())) (same w)⟩
  | diagnose line => exact unaware_of_noted (.diagnostic line) fun _ _ => rfl
  | cached port => exact unaware_of_silent fun _ _ => rfl
  | publish port v => exact unaware_of_noted (.diagnostic (Cache.writeLine port v)) fun _ _ => rfl
  | lastEvent => exact unaware_of_silent fun _ _ => rfl
  | clock => exact unaware_of_silent fun _ _ => rfl
  | mount id => exact unaware_call due (Outside.unaware_mount id)
  | create kind params => exact unaware_call due (Outside.unaware_create kind params)
  | animate handle keyframes duration => exact unaware_animate handle keyframes duration
  | destroy handle => exact unaware_call due (Outside.unaware_destroy handle)
  | pause => exact unaware_of_silent fun _ _ => rfl

end Scene

section

variable {α : Type}

theorem Action.unaware_perform (due : Bool) (a : Action α) : Unaware fun s => a.perform due s := by
  induction a generalizing due with
  | done x => exact unaware_of_silent fun _ _ => rfl
  | failed f => exact unaware_of_silent fun _ _ => rfl
  | ask r next ih =>
    intro s
    rcases met : s.meet due r with ⟨s', reply⟩
    obtain ⟨since, same⟩ := (Scene.unaware_meet due r).leads met
    simp only [Action.perform, met]
    cases reply with
    | now x =>
      obtain ⟨all, further⟩ := (ih x false).since s' since
      refine ⟨all, fun w => ?_⟩
      rw [same]
      exact further w
    | later x => exact ⟨since, fun w => by rw [same]; rfl⟩
    | again => exact ⟨since, fun w => by rw [same]; rfl⟩
    | atGate gate answer => exact ⟨since, fun w => by rw [same]; rfl⟩

theorem Action.blind_deeds (due : Bool) (a : Action α) : Blind fun s => a.deeds due s := by
  induction a generalizing due with
  | done x => exact fun _ _ => rfl
  | failed f => exact fun _ _ => rfl
  | ask r next ih =>
    intro s w
    rcases met : s.meet due r with ⟨s', reply⟩
    obtain ⟨since, same⟩ := (Scene.unaware_meet due r).leads met
    simp only [Action.deeds, met, same]
    cases reply with
    | now x => exact congrArg _ (ih x false s' (w.notes since))
    | later x => rfl
    | again => rfl
    | atGate gate answer => rfl

theorem Thread.unaware_perform (t : Thread α) : Unaware fun s => t.perform s := by
  cases t with
  | ready a => exact a.unaware_perform false
  | due a => exact a.unaware_perform true
  | waiting gate next => exact unaware_of_silent fun _ _ => rfl

theorem Thread.blind_deeds (t : Thread α) : Blind fun s => t.deeds s := by
  cases t with
  | ready a => exact a.blind_deeds false
  | due a => exact a.blind_deeds true
  | waiting gate next => exact fun _ _ => rfl

end

end ActionGraph
