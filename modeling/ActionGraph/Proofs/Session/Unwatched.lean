import ActionGraph.Proofs.Demonstration.Environment
import ActionGraph.Proofs.Session.Chronicle
import ActionGraph.Proofs.Session.Turn
import ActionGraph.Proofs.Session.Watching

/-!
Sessions that are watched in different ways: without a log, with one that takes every entry, or with
one that fails at some. They go on alike in everything but what was observed.
-/

namespace ActionGraph

instance : Watched Session where
  watch s := s.outside.watch
  watched s w := { s with outside := watched s.outside w }
  watch_watched _ _ := rfl
  watched_watch _ := rfl

namespace Outside

theorem unaware_arm (wanted : List Subscription) : Unaware fun o : Outside => o.arm wanted := by
  induction wanted with
  | nil => exact unaware_of_silent fun _ _ => rfl
  | cons s rest ih =>
    intro o
    rcases resolved : o.resolve s.channel.selector with ⟨o', answer⟩
    obtain ⟨since, same⟩ := (unaware_resolve s.channel.selector).leads resolved
    simp only [arm, resolved]
    cases answer with
    | error f => exact ⟨since, fun w => by rw [same]; rfl⟩
    | ok found =>
      cases found with
      | false =>
        obtain ⟨all, further⟩ := ((unaware_log _ _).andThen ih).since o' since
        refine ⟨all, fun w => ?_⟩
        rw [same]
        exact further w
      | true =>
        have armed := ((unaware_subscribe s).andThen (unaware_log ("Listener armed: " ++ s.channel.eventClass ++ " on " ++
          s.channel.selector) (.record [("node", .text s.listener.origin.node)]))).andThen ih
        obtain ⟨all, further⟩ := armed.since o' since
        refine ⟨all, fun w => ?_⟩
        rw [same]
        exact congrArg (fun x : Outside × List Subscription × Option Fault => (x.1, s :: x.2.1, x.2.2)) (further w)

theorem unaware_disarm (armed : List Subscription) : Unaware fun o : Outside => o.disarm armed := by
  induction armed with
  | nil => exact unaware_id
  | cons s rest ih =>
    intro o
    rcases ended : o.unsubscribe s with ⟨o', answer⟩
    obtain ⟨since, same⟩ := (unaware_unsubscribe s).leads ended
    simp only [disarm, ended]
    cases answer with
    | ok _ =>
      obtain ⟨all, further⟩ := ih.since o' since
      refine ⟨all, fun w => ?_⟩
      rw [same]
      exact further w
    | error f =>
      obtain ⟨all, further⟩ := ((unaware_diagnose ("[LISTENERS] ERROR unsubscribing: " ++ f.message)).andThen ih).since o' since
      refine ⟨all, fun w => ?_⟩
      rw [same]
      exact further w

end Outside

namespace Session

variable (s : Session) (w : Watch)

@[simp] theorem outside_watched : (watched s w).outside = watched s.outside w := rfl

@[simp] theorem runs_watched : (watched s w).runs = s.runs := rfl

@[simp] theorem tasks_watched : (watched s w).tasks = s.tasks := rfl

@[simp] theorem queue_watched : (watched s w).queue = s.queue := rfl

@[simp] theorem running_watched : (watched s w).running = s.running := rfl

theorem scene_watched (r : GraphRun) : (watched s w).scene r = watched (s.scene r) w := rfl

theorem adopt_watched (v : Watch) (k : Nat) (x : Scene) : (watched s v).adopt k (watched x w) = watched (s.adopt k x) w := rfl

theorem conclude_watched (i : Nat) (counted : Bool) (k : Work) :
    (watched s w).conclude i counted k = watched (s.conclude i counted k) w := by
  cases counted <;> rfl

theorem suspend_watched (i : Nat) (k : Work) : (watched s w).suspend i k = watched (s.suspend i k) w := by
  unfold suspend
  split <;> rfl

theorem unaware_advancePulse (i : Nat) (t : Task) (r : GraphRun) (p : Pulse) :
    Unaware fun s : Session => s.advancePulse i t r p := by
  intro s
  rcases performed : p.visit.perform (s.scene r) with ⟨x, progress⟩
  obtain ⟨since, same⟩ := p.visit.unaware_perform.leads performed
  refine ⟨since, fun w => ?_⟩
  simp only [advancePulse, scene_watched, same, performed, adopt_watched]
  match progress with
  | .suspended visit => exact suspend_watched _ _ _ _
  | .ended (.error f) => exact conclude_watched _ _ _ _ _
  | .ended (.ok ids) =>
    cases followed : Pulse.next? r.environment (ids ++ p.pending) with
    | none =>
      simp only [followed]
      exact conclude_watched _ _ _ _ _
    | some p =>
      simp only [followed]
      rfl

theorem unaware_advanceLookup (i : Nat) (t : Task) (r : GraphRun) (thread : Thread Value) :
    Unaware fun s : Session => s.advanceLookup i t r thread := by
  intro s
  rcases performed : thread.perform (s.scene r) with ⟨x, progress⟩
  obtain ⟨since, same⟩ := thread.unaware_perform.leads performed
  refine ⟨since, fun w => ?_⟩
  simp only [advanceLookup, scene_watched, same, performed, adopt_watched]
  cases progress with
  | suspended thread => exact suspend_watched _ _ _ _
  | ended result => exact conclude_watched _ _ _ _ _

theorem unaware_advance (i : Nat) : Unaware fun s : Session => s.advance i := by
  intro s
  simp only [advance, tasks_watched, runs_watched]
  cases s.tasks[i]? with
  | none => exact ⟨[], fun _ => rfl⟩
  | some t =>
    dsimp only
    cases t.cancelled with
    | true => exact ⟨[], fun _ => conclude_watched _ _ _ _ _⟩
    | false =>
      cases s.runs[t.run]? with
      | none => exact ⟨[], fun _ => rfl⟩
      | some r =>
        cases t.work with
        | pulse p => exact unaware_advancePulse i t r p s
        | lookup thread => exact unaware_advanceLookup i t r thread s
        | ended result => exact ⟨[], fun _ => rfl⟩
        | dropped => exact ⟨[], fun _ => rfl⟩

theorem unaware_onOutside {f : Outside → Outside} (unaware : Unaware f) :
    Unaware fun s : Session => { s with outside := f s.outside } := by
  intro s
  obtain ⟨since, same⟩ := unaware s.outside
  exact ⟨since, fun w => congrArg (fun o => ({ s with outside := o } : Session)) (same w)⟩

theorem unaware_complete (i : Nat) : Unaware fun s : Session => s.complete i := by
  intro s
  simp only [complete, tasks_watched]
  cases s.tasks[i]? with
  | none => exact ⟨[], fun _ => rfl⟩
  | some t =>
    have landed : ∀ w, (watched s w).modifyRun t.run (fun r => { r with inFlight := r.inFlight.erase i }) =
        watched (s.modifyRun t.run fun r => { r with inFlight := r.inFlight.erase i }) w := fun _ => rfl
    simp only [landed]
    match t.work with
    | .ended (.error f) =>
      exact unaware_onOutside ((Outside.unaware_diagnose _).andThen (Outside.unaware_log _ _)) _
    | .ended (.ok v) => exact ⟨[], fun _ => rfl⟩
    | .pulse p => exact ⟨[], fun _ => rfl⟩
    | .lookup thread => exact ⟨[], fun _ => rfl⟩
    | .dropped => exact ⟨[], fun _ => rfl⟩

theorem unaware_step : Unaware fun s : Session => s.step?.getD s := by
  intro s
  cases turned : s.running with
  | some i =>
    have steps : ∀ w, (watched s w).step?.getD (watched s w) = (watched s w).advance i := fun w => step_running turned
    simp only [steps, step_running turned]
    exact unaware_advance i s
  | none =>
    cases queued : s.queue with
    | nil => exact ⟨[], fun w => (step_idle (s := watched s w) turned queued).trans
        (congrArg (watched · w) (step_idle turned queued).symm)⟩
    | cons turn rest =>
      have steps : ∀ w, (watched s w).step?.getD (watched s w) =
          (watched ({ s with queue := rest } : Session) w).take turn := fun w => step_turn turned queued
      simp only [steps, step_turn turned queued]
      cases turn with
      | resume i => exact ⟨[], fun _ => rfl⟩
      | complete i => exact unaware_complete i _

theorem unaware_prefer (place : Nat) : Unaware fun s : Session => s.prefer place := by
  intro s
  simp only [prefer, queue_watched]
  cases s.queue[place]? with
  | none => exact ⟨[], fun _ => rfl⟩
  | some turn => exact ⟨[], fun _ => rfl⟩

theorem unaware_snapshot (eventClass : String) (payload : Value) :
    Unaware fun s : Session => s.snapshot eventClass payload := unaware_of_silent fun _ _ => rfl

theorem unaware_notify (l : Listener) (payload : Value) : Unaware fun s : Session => s.notify l payload := by
  intro s
  simp only [notify, runs_watched]
  cases s.runs[l.run]? with
  | none => exact ⟨[], fun _ => rfl⟩
  | some r =>
    dsimp only
    cases r.armed with
    | false => exact ⟨[], fun _ => rfl⟩
    | true =>
      rcases shot : s.snapshot l.eventClass payload with ⟨s', answer⟩
      obtain ⟨since, same⟩ := (unaware_snapshot l.eventClass payload).leads shot
      cases answer with
      | error f => exact ⟨since, fun w => by simp only [same, if_true]; rfl⟩
      | ok e =>
        refine ⟨since ++ [.diagnostic (Cache.writeLine l.eventPort (.event e))], fun w => ?_⟩
        simp only [same, if_true, Watch.notes_append]
        rfl

theorem unaware_notifyAll (payload : Value) (listeners : List Listener) :
    Unaware fun s : Session => s.notifyAll payload listeners := by
  induction listeners with
  | nil => exact unaware_of_silent fun _ _ => rfl
  | cons l rest ih =>
    intro s
    rcases notified : s.notify l payload with ⟨s', answer⟩
    obtain ⟨since, same⟩ := (unaware_notify l payload).leads notified
    simp only [notifyAll, notified]
    cases answer with
    | error f => exact ⟨since, fun w => by rw [same]; rfl⟩
    | ok _ =>
      obtain ⟨all, further⟩ := ih.since s' since
      refine ⟨all, fun w => ?_⟩
      rw [same]
      exact further w

theorem unaware_happen (c : Channel) (x y : Value) : Unaware fun s : Session => s.happen c x y := by
  intro s
  have heard : ∀ w, (watched s w).outside.host.listeners c = s.outside.host.listeners c := fun _ => rfl
  obtain ⟨since, same⟩ := unaware_notifyAll (Host.payload c.eventClass x y) (s.outside.host.listeners c) s
  refine ⟨since, fun w => ?_⟩
  simp only [happen, heard]
  exact congrArg (fun x : Session × Except Fault Unit => (x.1, x.2.map fun _ => (s.outside.host.listeners c).length))
    (same w)

theorem unaware_call (run place : Nat) (payload : Value) : Unaware fun s : Session => s.call run place payload := by
  intro s
  have found : ∀ w, (watched s w).handler? run place = s.handler? run place := fun _ => rfl
  simp only [call, found]
  cases s.handler? run place with
  | none => exact ⟨[], fun _ => rfl⟩
  | some l => exact (unaware_notify l payload).state s

theorem unaware_settle (gate : Nat) (result : Except Fault Unit) : Unaware fun s : Session => s.settle gate result := by
  intro s
  have found : ∀ w, (watched s w).waitingAt? gate = s.waitingAt? gate := fun _ => rfl
  simp only [settle, found]
  cases s.waitingAt? gate with
  | none => exact ⟨[], fun _ => rfl⟩
  | some i => exact ⟨[], fun _ => rfl⟩

theorem unaware_stop (run : Nat) : Unaware fun s : Session => s.stop run := by
  intro s
  simp only [stop, runs_watched]
  cases s.runs[run]? with
  | none => exact ⟨[], fun _ => rfl⟩
  | some r =>
    dsimp only
    cases r.stopped with
    | true => exact ⟨[], fun _ => rfl⟩
    | false =>
      obtain ⟨since, same⟩ :=
        ((Outside.unaware_disarm r.subscriptions).andThen (Outside.unaware_diagnose "[LISTENERS] Disarmed")) s.outside
      refine ⟨since, fun w => ?_⟩
      have disarmed : ((watched s w).outside.disarm r.subscriptions).diagnose "[LISTENERS] Disarmed" =
          watched ((s.outside.disarm r.subscriptions).diagnose "[LISTENERS] Disarmed") (w.notes since) := same w
      rw [disarmed]
      rfl

theorem unaware_start (env : Environment) : Unaware fun s : Session => s.start env := by
  intro s
  rcases armed : s.outside.arm (env.wanted s.runs.length) with ⟨o, subscriptions, fault⟩
  obtain ⟨since, same⟩ := (Outside.unaware_arm (env.wanted s.runs.length)).leads armed
  simp only [start, runs_watched, outside_watched, same, armed]
  cases fault with
  | some f => exact ⟨since, fun _ => rfl⟩
  | none =>
    refine ⟨since ++ [.diagnostic s!"[LISTENERS] Armed {subscriptions.length} listener(s)"], fun w => ?_⟩
    rw [Watch.notes_append]
    rfl

theorem cancelTask_watched (i : Nat) : (watched s w).cancelTask i = watched (s.cancelTask i) w := by
  simp only [cancelTask, tasks_watched]
  cases s.tasks[i]? with
  | none => rfl
  | some t =>
    dsimp only
    split <;> rfl

theorem unaware_cancel (run : Nat) : Unaware fun s : Session => s.cancel run := by
  refine unaware_of_silent fun s w => ?_
  simp only [cancel, runs_watched]
  cases s.runs[run]? with
  | none => rfl
  | some r =>
    dsimp only
    generalize r.inFlight = tasks
    induction tasks generalizing s with
    | nil => rfl
    | cons i tasks ih => rw [List.foldl_cons, List.foldl_cons, cancelTask_watched, ih]

theorem unaware_undergo (m : Move) : Unaware fun s : Session => s.undergo m := by
  match m with
  | .cue .step => exact unaware_id
  | .cue (.prefer place) => exact unaware_prefer place
  | .cue (.addTarget selector) => exact unaware_of_silent fun _ _ => rfl
  | .cue (.happen channel x y) => exact (unaware_happen channel x y).state
  | .cue (.call run place payload) => exact unaware_call run place payload
  | .cue (.settle gate result) => exact (unaware_settle gate result).state
  | .cue (.stop run) => exact unaware_stop run
  | .start env => exact (unaware_start env).state
  | .cancel run => exact unaware_cancel run

theorem unaware_move (m : Move) : Unaware fun s : Session => s.move m := by
  by_cases steps : m = .cue .step
  · subst steps
    exact unaware_step
  · intro s
    simp only [move_other steps, running_watched]
    by_cases busy : s.running.isSome
    · simp only [if_pos busy]
      exact ⟨[], fun _ => rfl⟩
    · simp only [if_neg busy]
      exact unaware_undergo m s

theorem unaware_follow (moves : List Move) : Unaware fun s : Session => s.follow moves := by
  induction moves with
  | nil => exact unaware_id
  | cons m moves ih => exact (unaware_move m).andThen ih

theorem blind_deeds (i : Nat) : Blind fun s : Session => s.deeds i := by
  intro s w
  simp only [deeds, tasks_watched, runs_watched, scene_watched]
  cases s.tasks[i]? with
  | none => rfl
  | some t =>
    dsimp only
    cases s.runs[t.run]? with
    | none => rfl
    | some r =>
      cases t.work with
      | pulse p =>
        have performed : (p.visit.perform (watched (s.scene r) w)).2 = (p.visit.perform (s.scene r)).2 :=
          p.visit.unaware_perform.result (s.scene r) w
        have done : p.visit.deeds (watched (s.scene r) w) = p.visit.deeds (s.scene r) :=
          p.visit.blind_deeds (s.scene r) w
        simp only [performed, done]
      | lookup thread =>
        have done : thread.deeds (watched (s.scene r) w) = thread.deeds (s.scene r) :=
          thread.blind_deeds (s.scene r) w
        simp only [done]
      | ended result => rfl
      | dropped => rfl

theorem blind_firing? (l : Listener) (payload : Value) : Blind fun s : Session => s.firing? l payload := by
  intro s w
  have notified : ((watched s w).notify l payload).2 = (s.notify l payload).2 :=
    (unaware_notify l payload).result s w
  have shot : ((watched s w).snapshot l.eventClass payload).2 = (s.snapshot l.eventClass payload).2 := rfl
  simp only [firing?, notified, shot, tasks_watched]

theorem blind_firings (payload : Value) (listeners : List Listener) :
    Blind fun s : Session => s.firings payload listeners := by
  induction listeners with
  | nil => exact fun _ _ => rfl
  | cons l rest ih =>
    intro s w
    have fired : (watched s w).firing? l payload = s.firing? l payload := blind_firing? l payload s w
    rcases notified : s.notify l payload with ⟨s', answer⟩
    obtain ⟨since, same⟩ := (unaware_notify l payload).leads notified
    simp only [firings, fired, notified, same]
    cases answer with
    | error f => rfl
    | ok _ => exact congrArg _ (ih s' (w.notes since))

theorem blind_happenings (m : Move) : Blind fun s : Session => s.happenings m := by
  intro s w
  have fired : (watched s w).firingsOf m = s.firingsOf m := by
    unfold firingsOf
    rw [running_watched]
    split
    · rfl
    · split
      · exact blind_firings _ _ s w
      · have found : ∀ run place, (watched s w).handler? run place = s.handler? run place := fun _ _ => rfl
        rw [found]
        exact congrArg (List.flatMap · _) (funext fun l => congrArg Option.toList (blind_firing? l _ s w))
      · rfl
  have turned : (watched s w).turnOf m = s.turnOf m := by
    have done : ∀ i, (watched s w).deeds i = s.deeds i := fun i => blind_deeds i s w
    unfold turnOf
    simp only [running_watched, tasks_watched, done]
  simp only [happenings, fired, turned]

end Session

namespace Demonstration

end Demonstration

end ActionGraph
