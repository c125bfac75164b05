import ActionGraph.Proofs.Session.Calls
import ActionGraph.Proofs.Session.Evolution

/-!
What stays the same. No request of an action changes the circumstances of a session or who listens
to its host, and nothing but requests changes what is on the host.
-/

namespace ActionGraph

/-- What is on a host, and the circumstances. -/
structure Stock where
  staging : Staging
  mounts : List String
  created : List ElementRef
  tree : Tree
  timeScale : Value

namespace Outside

/-- What requests leave as it is. -/
def premises (o : Outside) : Staging × Subscriptions Listener := (o.staging, o.host.subscriptions)

/-- What nothing but requests changes. -/
def stock (o : Outside) : Stock := ⟨o.staging, o.host.mounts, o.host.created, o.host.tree, o.host.timeScale⟩

variable (o : Outside)

theorem log_keeps {P : Outside → Prop} (message : String) (data : Value) (h : P o)
    (handed : P { o with handed := o.handed + 1 }) (recorded : ∀ p e, P p → P (p.record e)) :
    P (o.log message data) := by
  unfold log
  split
  · exact h
  · dsimp only
    split
    · exact recorded _ _ handed
    · exact recorded _ _ handed

theorem premises_log (message : String) (data : Value) : (o.log message data).premises = o.premises :=
  o.log_keeps (P := fun p => p.premises = o.premises) message data rfl rfl fun _ _ h => h

theorem stock_log (message : String) (data : Value) : (o.log message data).stock = o.stock :=
  o.log_keeps (P := fun p => p.stock = o.stock) message data rfl rfl fun _ _ h => h

theorem premises_planned {β : Type} (c : HostCall) {act : Outside → Outside × Except Fault β}
    (acts : ∀ p, (act p).1.premises = p.premises) : (o.planned c act).1.premises = o.premises :=
  o.planned_keeps (P := fun p => p.premises = o.premises) c rfl fun p h => (acts p).trans h

theorem stock_planned {β : Type} (c : HostCall) {act : Outside → Outside × Except Fault β}
    (acts : ∀ p, (act p).1.stock = p.stock) : (o.planned c act).1.stock = o.stock :=
  o.planned_keeps (P := fun p => p.stock = o.stock) c rfl fun p h => (acts p).trans h

theorem premises_mount (id : String) : (o.mount id).1.premises = o.premises := by
  rw [mount_eq]
  refine premises_planned _ .mount fun p => ?_
  unfold premises
  dsimp only [Host.mount]
  split <;> rfl

theorem premises_create (kind : String) (params : List (String × Value)) :
    (o.create kind params).1.premises = o.premises := by
  rw [create_eq]
  exact premises_planned _ .create fun _ => rfl

theorem premises_animate (handle keyframes duration : Value) :
    (o.animate handle keyframes duration).1.premises = o.premises := by
  rw [animate_eq]
  refine premises_planned _ .animate fun p => ?_
  unfold fly
  dsimp only
  split <;> rfl

theorem premises_destroy (handle : Value) : (o.destroy handle).1.premises = o.premises := by
  rw [destroy_eq]
  refine premises_planned _ .destroy fun p => ?_
  unfold remove
  split
  · rfl
  · rename_i destroyed
    obtain ⟨_, rfl⟩ := Host.destroy_tree destroyed
    rfl

theorem stock_recordPlanned (c : HostCall) (e : Entry) : (o.recordPlanned c e).stock = o.stock := by
  unfold recordPlanned
  split <;> rfl

theorem stock_resolve (selector : String) : (o.resolve selector).1.stock = o.stock := by
  rw [resolve_eq]
  exact (stock_planned _ .resolve fun _ => rfl).trans (o.stock_recordPlanned _ _)

theorem stock_unsubscribe (w : Subscription) : (o.unsubscribe w).1.stock = o.stock := by
  cases sticky : o.staging.sticky with
  | true => rw [unsubscribe, if_pos sticky]
  | false =>
    rw [unsubscribe_eq o w sticky]
    exact (stock_planned _ .unsubscribe fun _ => rfl).trans (o.stock_recordPlanned _ _)

theorem stock_arm (ws : List Subscription) : (o.arm ws).1.stock = o.stock := by
  induction ws generalizing o with
  | nil => rfl
  | cons w ws ih =>
    have asked := o.stock_resolve w.channel.selector
    unfold arm
    dsimp only
    generalize o.resolve w.channel.selector = x at asked
    obtain ⟨p, found⟩ := x
    cases found with
    | error f => exact asked
    | ok found =>
      cases found with
      | false => exact (ih _).trans ((stock_log p _ _).trans asked)
      | true => exact (ih _).trans ((stock_log (p.subscribe w) _ _).trans asked)

theorem stock_disarm (ws : List Subscription) : (o.disarm ws).stock = o.stock := by
  induction ws generalizing o with
  | nil => rfl
  | cons w ws ih =>
    have ended := o.stock_unsubscribe w
    unfold disarm
    generalize o.unsubscribe w = x at ended
    obtain ⟨p, done⟩ := x
    cases done with
    | ok _ => exact (ih p).trans ended
    | error f => exact (ih _).trans ended

end Outside

namespace Scene

variable (s : Scene)

theorem premises_call {α : Type} (due : Bool) (make : Outside → Outside × α)
    (makes : (make s.outside).1.premises = s.outside.premises) :
    (s.call due make).1.outside.premises = s.outside.premises := by
  unfold call
  split
  · rfl
  · exact makes

theorem premises_animate (handle keyframes duration : Value) :
    (s.animate handle keyframes duration).1.outside.premises = s.outside.premises := by
  have animated := s.outside.premises_animate handle keyframes duration
  unfold animate
  generalize s.outside.animate handle keyframes duration = x at animated
  obtain ⟨o, answer⟩ := x
  cases answer with
  | error f => exact animated
  | ok _ =>
    dsimp only
    split <;> exact animated

theorem premises_meet (due : Bool) (r : Request) : (s.meet due r).1.outside.premises = s.outside.premises := by
  cases r with
  | log message data => exact s.outside.premises_log message data
  | mount id => exact s.premises_call due _ (s.outside.premises_mount id)
  | create kind params => exact s.premises_call due _ (s.outside.premises_create kind params)
  | animate handle keyframes duration => exact s.premises_animate handle keyframes duration
  | destroy handle => exact s.premises_call due _ (s.outside.premises_destroy handle)
  | _ => rfl

end Scene

theorem Action.premises_perform {α : Type} (a : Action α) (due : Bool) (s : Scene) :
    (a.perform due s).1.outside.premises = s.outside.premises := by
  induction a generalizing due s with
  | done x => rfl
  | failed f => rfl
  | ask r next ih =>
    have met := s.premises_meet due r
    rw [perform]
    generalize s.meet due r = x at met
    obtain ⟨p, reply⟩ := x
    cases reply with
    | now x => exact (ih x false p).trans met
    | _ => exact met

theorem Thread.premises_perform {α : Type} (t : Thread α) (s : Scene) :
    (t.perform s).1.outside.premises = s.outside.premises := by
  cases t with
  | ready a => exact a.premises_perform false s
  | due a => exact a.premises_perform true s
  | waiting gate next => rfl

namespace Session

variable (s : Session)

theorem premises_advance (i : Nat) : (s.advance i).outside.premises = s.outside.premises := by
  unfold advance
  split
  · rfl
  · rename_i t _
    split
    · rw [outside_conclude]
    · split
      · rename_i r p _ _
        rw [(advancePulse_spec s i t r p).2.2.1]
        exact p.visit.premises_perform (s.scene r)
      · rename_i r thread _ _
        rw [(advanceLookup_spec s i t r thread).2.2.1]
        exact thread.premises_perform (s.scene r)
      · rfl

theorem stock_complete (i : Nat) : (s.complete i).outside.stock = s.outside.stock := by
  unfold complete
  split
  · rfl
  · dsimp only
    split
    · exact Outside.stock_log _ _ _
    · rfl

theorem premises_complete (i : Nat) : (s.complete i).outside.premises = s.outside.premises := by
  unfold complete
  split
  · rfl
  · dsimp only
    split
    · exact Outside.premises_log _ _ _
    · rfl

theorem stock_notify (l : Listener) (payload : Value) :
    (s.notify l payload).1.outside.stock = s.outside.stock := by
  have h := notified s l payload
  generalize s.notify l payload = result at h
  cases h with
  | unarmed _ => rfl
  | refused _ _ _ => rfl
  | begun _ _ _ => rfl

theorem stock_notifyAll (payload : Value) (ls : List Listener) :
    (s.notifyAll payload ls).1.outside.stock = s.outside.stock :=
  notifyAll_keeps (P := fun s' => s'.outside.stock = s.outside.stock) payload
    (fun s' l _ h => (s'.stock_notify l payload).trans h) rfl

theorem stock_call (run place : Nat) (payload : Value) :
    (s.call run place payload).outside.stock = s.outside.stock := by
  unfold call
  split
  · exact s.stock_notify _ payload
  · rfl

theorem stock_start (env : Environment) : (s.start env).1.outside.stock = s.outside.stock := by
  have armed := s.outside.stock_arm (env.wanted s.runs.length)
  unfold start
  dsimp only
  split <;> exact armed

theorem stock_stop (run : Nat) : (s.stop run).outside.stock = s.outside.stock :=
  stop_keeps (P := fun s' => s'.outside.stock = s.outside.stock) rfl run fun ws => s.outside.stock_disarm ws

theorem stock_cancel (run : Nat) : (s.cancel run).outside.stock = s.outside.stock := by
  refine cancel_keeps (P := fun s' => s'.outside.stock = s.outside.stock) (fun s' i h => ?_) rfl run
  unfold cancelTask
  split
  · exact h
  · dsimp only
    split <;> exact h

theorem stock_prefer (place : Nat) : (s.prefer place).outside.stock = s.outside.stock := by
  unfold prefer
  split <;> rfl

theorem stock_addTarget (selector : String) : (s.addTarget selector).outside.stock = s.outside.stock := by
  unfold addTarget Outside.stock
  dsimp only [Host.addTarget]
  split <;> rfl

theorem stock_settle (gate : Nat) (result : Except Fault Unit) :
    (s.settle gate result).1.outside.stock = s.outside.stock := by
  unfold settle
  split <;> rfl

theorem stock_undergo (m : Move) : (s.undergo m).outside.stock = s.outside.stock := by
  cases m with
  | cue c =>
    cases c with
    | step => rfl
    | prefer place => exact s.stock_prefer place
    | addTarget selector => exact s.stock_addTarget selector
    | happen channel x y => exact s.stock_notifyAll _ _
    | call run place payload => exact s.stock_call run place payload
    | settle gate result => exact s.stock_settle gate result
    | stop run => exact s.stock_stop run
  | start env => exact s.stock_start env
  | cancel run => exact s.stock_cancel run

theorem staging_advance (i : Nat) : (s.advance i).outside.staging = s.outside.staging :=
  congrArg Prod.fst (s.premises_advance i)

theorem staging_step : (s.step?.getD s).outside.staging = s.outside.staging :=
  step_keeps (P := fun s' => s'.outside.staging = s.outside.staging) s rfl (fun i _ => s.staging_advance i)
    (fun _ _ _ _ => rfl) fun i _ _ _ => congrArg Stock.staging (stock_complete _ i)

theorem staging_follow (moves : List Move) : (s.follow moves).outside.staging = s.outside.staging := by
  refine follow_keeps (P := fun s' => s'.outside.staging = s.outside.staging) (fun s' m h => ?_) rfl moves
  refine Eq.trans ?_ h
  exact move_keeps (P := fun p => p.outside.staging = s'.outside.staging) rfl s'.staging_step m
    (congrArg Stock.staging (s'.stock_undergo m))

end Session

end ActionGraph
