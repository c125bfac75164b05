import ActionGraph.Proofs.Session.Lasting

/-!
Arming and disarming on a host that does not fail. What a run asks for is accepted where the host has
the target, in order and each after those that were there; what it takes out goes by the handler.
-/

namespace ActionGraph

/-- A host that lets go of a handler when it is told to. -/
structure Outside.Loose (o : Outside) : Prop where
  sound : o.staging.faults = []
  loose : o.staging.sticky = false

namespace Subscription

/-- What a run has to say about one of its triggers when it is started on a host with these targets. -/
def verdict (targets : List String) (w : Subscription) : String :=
  if w.channel.selector ∈ targets then "Listener armed: " ++ w.channel.eventClass ++ " on " ++ w.channel.selector
  else "Listener target not found for selector: " ++ w.channel.selector

def label (w : Subscription) : Value := .record [("node", .text w.listener.origin.node)]

def notice (targets : List String) (w : Subscription) : Entry := .logged (w.verdict targets) w.label

/-- Those subscriptions that a host with these targets accepts. -/
def reached (targets : List String) (ws : List Subscription) : List Subscription :=
  ws.filter fun w => w.channel.selector ∈ targets

/-- The listeners among subscriptions to a channel. -/
def on (c : Channel) (ws : List Subscription) : List Listener := (ws.filter fun w => w.channel = c).map (·.listener)

@[simp] theorem reached_append (targets : List String) (ws more : List Subscription) :
    reached targets (ws ++ more) = reached targets ws ++ reached targets more := List.filter_append ..

@[simp] theorem on_append (c : Channel) (ws more : List Subscription) : on c (ws ++ more) = on c ws ++ on c more := by
  simp [on]

theorem mem_on {c : Channel} {ws : List Subscription} {l : Listener} : l ∈ on c ws ↔ ⟨c, l⟩ ∈ ws := by
  simp only [on, List.mem_map, List.mem_filter, decide_eq_true_eq]
  constructor
  · rintro ⟨w, ⟨listed, rfl⟩, rfl⟩
    exact listed
  · intro listed
    exact ⟨_, ⟨listed, rfl⟩, rfl⟩

end Subscription

namespace Outside

variable {o : Outside}

theorem fittings_log (o : Outside) (message : String) (data : Value) :
    (o.log message data).fittings = o.fittings :=
  (Lasting.fittings o.fittings).log message data rfl

theorem trace_log (collects : o.sink = .collecting) (message : String) (data : Value) :
    (o.log message data).trace.toList = o.trace.toList ++ [.logged message data] := by
  unfold log
  rw [collects]
  simp [Sink.collecting, record]

theorem recordPlanned_sound (sound : o.staging.faults = []) (c : HostCall) (e : Entry) : o.recordPlanned c e = o := by
  have none : o.staging.plans c = false := by
    rw [Staging.plans, sound]
    rfl
  rw [recordPlanned, none]
  rfl

theorem resolve_sound (sound : o.staging.faults = []) (selector : String) :
    o.resolve selector = ((o.call .resolve).1, .ok (o.host.hasTarget selector)) := by
  rw [resolve_eq, recordPlanned_sound sound, o.planned_sound sound]
  rfl

theorem unsubscribe_sound (h : o.Loose) (w : Subscription) :
    o.unsubscribe w = ({ (o.call .unsubscribe).1 with host := o.host.unsubscribe w.channel w.listener }, .ok ()) := by
  rw [unsubscribe_eq o w h.loose, recordPlanned_sound h.sound, o.planned_sound h.sound]
  rfl

/-- What arming subscriptions one after the other does to a host that does not fail. -/
structure Arms (o : Outside) (ws : List Subscription) (p : Outside) : Prop where
  staging : p.staging = o.staging
  sink : p.sink = o.sink
  targets : p.host.targets = o.host.targets
  handlers : ∀ c, p.host.subscriptions.handlers c =
    o.host.subscriptions.handlers c ++ Subscription.on c (Subscription.reached o.host.targets ws)
  trace : o.sink = .collecting → p.trace.toList = o.trace.toList ++ ws.map (Subscription.notice o.host.targets)

theorem Arms.append {q p : Outside} {ws more : List Subscription} (first : o.Arms ws q) (rest : q.Arms more p) :
    o.Arms (ws ++ more) p where
  staging := rest.staging.trans first.staging
  sink := rest.sink.trans first.sink
  targets := rest.targets.trans first.targets
  handlers c := by
    rw [rest.handlers, first.handlers, first.targets, Subscription.reached_append, Subscription.on_append,
      List.append_assoc]
  trace collects := by
    rw [rest.trace (first.sink.trans collects), first.trace collects, first.targets, List.map_append, List.append_assoc]

/-- The host after it was asked for one subscription, and this was told. -/
def offered (o : Outside) (w : Subscription) : Outside :=
  (if w.channel.selector ∈ o.host.targets then (o.call .resolve).1.subscribe w else (o.call .resolve).1).log
    (w.verdict o.host.targets) w.label

theorem arms_offered (o : Outside) (w : Subscription) : o.Arms [w] (o.offered w) := by
  have same := fittings_log (if w.channel.selector ∈ o.host.targets then (o.call .resolve).1.subscribe w
    else (o.call .resolve).1) (w.verdict o.host.targets) w.label
  have kept : (o.offered w).fittings = { o.fittings with
      subscriptions := if w.channel.selector ∈ o.host.targets then
        o.host.subscriptions.subscribe w.channel w.listener else o.host.subscriptions } := by
    refine same.trans ?_
    split <;> rfl
  refine ⟨congrArg Fittings.staging kept, congrArg Fittings.sink kept, congrArg Fittings.targets kept, fun c => ?_,
    fun collects => ?_⟩
  · refine (congrArg (fun f => f.subscriptions.handlers c) kept).trans ?_
    by_cases own : w.channel = c
    · subst own
      by_cases known : w.channel.selector ∈ o.host.targets <;> simp [Subscription.on, Subscription.reached, known]
    · by_cases known : w.channel.selector ∈ o.host.targets <;>
        simp [Subscription.on, Subscription.reached, known, own]
  · rw [offered, trace_log]
    · split <;> rfl
    · split <;> exact collects

theorem arm_cons (sound : o.staging.faults = []) (w : Subscription) (ws : List Subscription) :
    o.arm (w :: ws) = (((o.offered w).arm ws).1,
      Subscription.reached o.host.targets [w] ++ ((o.offered w).arm ws).2.1, ((o.offered w).arm ws).2.2) := by
  rw [arm, resolve_sound sound, Host.hasTarget]
  by_cases known : w.channel.selector ∈ o.host.targets <;>
    simp [known, offered, Subscription.verdict, Subscription.label, Subscription.reached]

theorem arm_sound (sound : o.staging.faults = []) (ws : List Subscription) :
    ∃ p, o.arm ws = (p, Subscription.reached o.host.targets ws, none) ∧ o.Arms ws p := by
  induction ws generalizing o with
  | nil => exact ⟨o, rfl, rfl, rfl, rfl, fun c => by simp [Subscription.reached, Subscription.on], by simp⟩
  | cons w ws ih =>
    have first := o.arms_offered w
    obtain ⟨p, armed, rest⟩ := ih (o := o.offered w) (by rw [first.staging]; exact sound)
    refine ⟨p, ?_, first.append rest⟩
    rw [arm_cons sound, armed, first.targets, ← Subscription.reached_append]
    rfl

/-- What disarming subscriptions one after the other does to a host that lets go of them. -/
structure Disarms (o : Outside) (ws : List Subscription) (p : Outside) : Prop where
  staging : p.staging = o.staging
  sink : p.sink = o.sink
  targets : p.host.targets = o.host.targets
  handlers : ∀ c, p.host.subscriptions.handlers c =
    (Subscription.on c ws).foldl List.erase (o.host.subscriptions.handlers c)

theorem disarm_sound (h : o.Loose) (ws : List Subscription) : o.Disarms ws (o.disarm ws) := by
  induction ws generalizing o with
  | nil => exact ⟨rfl, rfl, rfl, fun c => by simp [Subscription.on, disarm]⟩
  | cons w ws ih =>
    obtain ⟨staging, sink, targets, handlers⟩ := ih
      (o := { (o.call .unsubscribe).1 with host := o.host.unsubscribe w.channel w.listener }) ⟨h.sound, h.loose⟩
    rw [disarm, unsubscribe_sound h]
    refine ⟨staging, sink, targets, fun c => (handlers c).trans ?_⟩
    have taken : (o.host.unsubscribe w.channel w.listener).subscriptions.handlers c =
        if w.channel = c then (o.host.subscriptions.handlers c).erase w.listener
        else o.host.subscriptions.handlers c := by
      rw [Host.unsubscribe, Subscriptions.handlers_unsubscribe]
      split
      · rename_i own
        rw [own]
      · rfl
    rw [taken]
    by_cases own : w.channel = c
    · simp [Subscription.on, own]
    · simp [Subscription.on, own]

end Outside

end ActionGraph
