import ActionGraph.Proofs.Session.Frame

/-!
Who listens to a host. A run adds its own triggers when it is started, and nothing else adds any.
-/

namespace ActionGraph

namespace Outside

/-- Nobody listens to the host but listeners of this kind. -/
def HeardBy (A : Listener → Prop) (o : Outside) : Prop := ∀ c, ∀ k ∈ o.host.subscriptions.handlers c, A k

/-- Nobody but this listener listens to the host. -/
def Heard (l : Listener) (o : Outside) : Prop := ∀ c, ∀ k ∈ o.host.subscriptions.handlers c, k = l

variable {A : Listener → Prop} {l : Listener} {o : Outside}

theorem HeardBy.of_premises {p : Outside} (h : o.HeardBy A) (same : p.premises = o.premises) : p.HeardBy A := by
  have subscriptions : p.host.subscriptions = o.host.subscriptions := congrArg Prod.snd same
  intro c k listed
  exact h c k (subscriptions ▸ listed)

theorem HeardBy.subscribe (h : o.HeardBy A) {w : Subscription} (own : A w.listener) : (o.subscribe w).HeardBy A := by
  intro c k listed
  have listed : k ∈ (o.host.subscriptions.subscribe w.channel w.listener).handlers c := listed
  rw [Subscriptions.handlers_subscribe] at listed
  split at listed
  · rcases List.mem_append.mp listed with listed | last
    · exact h _ k listed
    · exact (List.mem_singleton.mp last) ▸ own
  · exact h c k listed

theorem HeardBy.unsubscribe (h : o.HeardBy A) (w : Subscription) : (o.unsubscribe w).1.HeardBy A := by
  cases sticky : o.staging.sticky with
  | true =>
    rw [Outside.unsubscribe, if_pos sticky]
    exact h
  | false =>
    rw [unsubscribe_eq o w sticky]
    have recorded : (o.recordPlanned .unsubscribe .unsubscribe).HeardBy A := by
      unfold recordPlanned
      split <;> exact h
    refine planned_keeps (P := HeardBy A) _ .unsubscribe recorded fun p heard c k listed => ?_
    have listed : k ∈ (p.host.subscriptions.unsubscribe w.channel w.listener).handlers c := listed
    rw [Subscriptions.handlers_unsubscribe] at listed
    split at listed
    · exact heard _ k (List.mem_of_mem_erase listed)
    · exact heard c k listed

theorem HeardBy.disarm (h : o.HeardBy A) (ws : List Subscription) : (o.disarm ws).HeardBy A := by
  induction ws generalizing o with
  | nil => exact h
  | cons w ws ih =>
    have ended := h.unsubscribe w
    unfold Outside.disarm
    generalize o.unsubscribe w = x at ended
    obtain ⟨p, done⟩ := x
    cases done with
    | ok _ => exact ih ended
    | error f => exact ih ended

theorem HeardBy.resolve (h : o.HeardBy A) (selector : String) : (o.resolve selector).1.HeardBy A := by
  rw [resolve_eq]
  have recorded : (o.recordPlanned .resolve (.resolve selector)).HeardBy A := by
    unfold recordPlanned
    split <;> exact h
  exact planned_keeps (P := HeardBy A) _ .resolve recorded fun _ heard => heard

theorem HeardBy.arm (h : o.HeardBy A) {ws : List Subscription} (own : ∀ w ∈ ws, A w.listener) :
    (o.arm ws).1.HeardBy A := by
  induction ws generalizing o with
  | nil => exact h
  | cons w ws ih =>
    have asked := h.resolve w.channel.selector
    have rest := fun w' listed => own w' (List.mem_cons_of_mem w listed)
    unfold Outside.arm
    dsimp only
    generalize o.resolve w.channel.selector = x at asked
    obtain ⟨p, found⟩ := x
    cases found with
    | error f => exact asked
    | ok found =>
      cases found with
      | false => exact ih (asked.of_premises (premises_log _ _ _)) rest
      | true =>
        have subscribed := asked.subscribe (own w List.mem_cons_self)
        exact ih (subscribed.of_premises (premises_log _ _ _)) rest

theorem Heard.of_premises {p : Outside} (h : o.Heard l) (same : p.premises = o.premises) : p.Heard l :=
  HeardBy.of_premises h same

theorem Heard.disarm (h : o.Heard l) (ws : List Subscription) : (o.disarm ws).Heard l := HeardBy.disarm h ws

end Outside

namespace Session

variable {s : Session} {env : Environment}

theorem heardBy_start {A : Listener → Prop} (h : s.outside.HeardBy A)
    (own : ∀ w ∈ env.wanted s.runs.length, A w.listener) : (s.start env).1.outside.HeardBy A := by
  have armed := h.arm own
  unfold Session.start
  dsimp only
  split <;> exact armed

theorem heard_start {l : Listener} (h : s.outside.Heard l)
    (own : ∀ w ∈ env.wanted s.runs.length, w.listener = l) : (s.start env).1.outside.Heard l :=
  heardBy_start h own

end Session

end ActionGraph
