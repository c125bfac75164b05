import ActionGraph.Proofs.Session.Acceptance
import ActionGraph.Proofs.Session.Rest

/-!
What a rehearsal comes to. A graph is read twice for its triggers, once to set up the host and to choose
the class of each event and once to listen; the two readings agree. So every trigger is armed, a cue begins
the pulses of the triggers that it is for, and these end before the next cue.
-/

namespace ActionGraph

/-- Seconds that make a time stamp. -/
def Value.Timely (v : Value) : Prop :=
  ∃ milliseconds t, v.times 1000 = .ok milliseconds ∧ Validated.valueNumber milliseconds = .ok t

namespace Clock

def Timely : Clock → Prop
  | .steady v => v.Timely
  | .readings rest => ∀ v ∈ rest, v.Timely

/-- What is left of a clock after it has been read some times. -/
def Leaves : Clock → Clock → Prop
  | .steady v, left => left = .steady v
  | .readings all, left => ∃ rest, left = .readings rest ∧ rest <:+ all

variable {c left : Clock}

theorem leaves_self (c : Clock) : c.Leaves c := by
  cases c with
  | steady v => rfl
  | readings all => exact ⟨all, rfl, List.suffix_refl all⟩

theorem Leaves.read (h : c.Leaves left) : c.Leaves left.read.2 := by
  cases c with
  | steady v =>
    cases h
    rfl
  | readings all =>
    obtain ⟨rest, rfl, suffix⟩ := h
    cases rest with
    | nil => exact ⟨[], rfl, suffix⟩
    | cons v rest => exact ⟨rest, rfl, (List.suffix_cons v rest).trans suffix⟩

theorem Leaves.shows (h : c.Leaves left) (timely : c.Timely) : (∃ v, left.read.1 = .ok v ∧ v.Timely) ∨
    left.read.1 = .error .clockExhausted ∧ ∃ all, c = .readings all := by
  cases c with
  | steady v =>
    cases h
    exact .inl ⟨v, rfl, timely⟩
  | readings all =>
    obtain ⟨rest, rfl, suffix⟩ := h
    cases rest with
    | nil => exact .inr ⟨rfl, all, rfl⟩
    | cons v rest => exact .inl ⟨v, rfl, timely v (suffix.subset List.mem_cons_self)⟩

end Clock

theorem Outside.lasting_leaves (c : Clock) : Lasting fun o => c.Leaves o.clock where
  recorded _ h := h
  handed h := h
  timed h := h.read
  counted _ h := h
  gated h := h
  mounted _ h := h
  created _ _ h := h
  animated _ _ _ h := h
  destroyed _ h := h

namespace Outside

theorem clock_log (o : Outside) (message : String) (data : Value) : (o.log message data).clock = o.clock :=
  o.log_keeps (P := fun p => p.clock = o.clock) message data rfl rfl fun _ _ h => h

theorem clock_arm {o : Outside} (sound : o.staging.faults = []) (ws : List Subscription) : (o.arm ws).1.clock = o.clock := by
  induction ws generalizing o with
  | nil => rfl
  | cons w ws ih =>
    have offered : (o.offered w).clock = o.clock := by
      rw [Outside.offered, clock_log]
      split <;> rfl
    rw [arm_cons sound, ← offered]
    exact ih (by rw [(o.arms_offered w).staging]; exact sound)

theorem trace_disarm {o : Outside} (h : o.Loose) (ws : List Subscription) : (o.disarm ws).trace = o.trace := by
  induction ws generalizing o with
  | nil => rfl
  | cons w ws ih =>
    rw [disarm, unsubscribe_sound h]
    exact ih ⟨h.sound, h.loose⟩

end Outside

theorem Session.clock_start {s : Session} (sound : s.outside.staging.faults = []) (env : Environment) :
    (s.start env).1.outside.clock = s.outside.clock := by
  rw [← Outside.clock_arm sound (env.wanted s.runs.length)]
  unfold Session.start
  dsimp only
  split <;> rfl

namespace Rehearsal

theorem logged_append (trace more : List Entry) : logged (trace ++ more) = logged trace ++ logged more :=
  List.filterMap_append

theorem lasting_logged (es : List (String × Value)) : Outside.Lasting fun o => es <+: logged o.trace.toList where
  recorded {o} e h := by
    have more : logged (o.record e).trace.toList = logged o.trace.toList ++ logged [e] := by
      rw [← logged_append, Outside.record, Array.toList_push]
    rw [more]
    exact h.trans (List.prefix_append _ _)
  handed h := h
  timed h := h
  counted _ h := h
  gated h := h
  mounted _ h := h
  created _ _ h := h
  animated _ _ _ h := h
  destroyed _ h := h

/-- The triggers of a graph as they are declared: what each listens to, and where its pulses begin. -/
def triggers (g : Graph) : List (Channel × Endpoint) :=
  g.nodes.filterMap fun node => (Builtin.standard.trigger? node).map fun t =>
    (⟨t.2.selectorOf node, t.2.eventClassOf node⟩, ⟨node.id, t.1.execOut⟩)

def first? (g : Graph) (selector : String) : Option (Channel × Endpoint) :=
  (triggers g).find? fun t => t.1.selector == selector

def log (s : Session) : List (String × Value) := logged s.outside.trace.toList

def armed (t : Channel × Endpoint) : String × Value :=
  ("Listener armed: " ++ t.1.eventClass ++ " on " ++ t.1.selector, .record [("node", .text t.2.node)])

def pulse (g : Graph) (t : Channel × Endpoint) : Task := ⟨0, true, false, .pulse (.leaving (environment g) t.2)⟩

/-- A rehearsal that has started: all triggers are armed, and nothing else has been told. -/
structure Opens (g : Graph) (p : Plan) (s : Session) : Prop where
  started : (session (environment g) p).start (environment g) = (s, .ok 0)
  armed : ∃ r, s.runs = [r] ∧ r.armed = true ∧
    r.subscriptions.map (fun w => (w.channel, w.listener.origin)) = triggers g
  tasks : s.tasks = []
  log : log s = (triggers g).map Rehearsal.armed

/-- What a cue begins: nothing but a complaint where no trigger listens on its selector, and otherwise one
pulse for each trigger there that listens to the event class of the first one. -/
inductive Fires (g : Graph) (selector : String) (s s' : Session) : Prop
  | unheard : (∀ t ∈ triggers g, t.1.selector ≠ selector) → s'.tasks = s.tasks →
      log s' = log s ++ [("No listener for selector: " ++ selector, .null)] → Fires g selector s s'
  | heard {t : Channel × Endpoint} : first? g selector = some t →
      s'.tasks = s.tasks ++ ((triggers g).filter fun u => u.1 = ⟨selector, t.1.eventClass⟩).map (pulse g) →
      log s' = log s → Fires g selector s s'

/-- All pulses of a session go on until they have ended, and none is begun meanwhile. -/
structure Ends (s s' : Session) : Prop where
  drained : ∃ n, s' = s.drain n
  rests : s'.Resting
  tasks : s'.tasks.length = s.tasks.length
  ended : ∀ t ∈ s'.tasks, ∃ v, t.work = .ended (.ok v)
  idle : s'.isIdle 0 = true
  log : log s <+: log s'

/-- One cue after the other is given and comes to its end. -/
inductive Rehearses (g : Graph) (p : Plan) : Session → List String → Session → Prop
  | done {s : Session} : Rehearses g p s [] s
  | cue {s fired ended last : Session} {selector : String} {rest : List String} : Fires g selector s fired →
      Ends fired ended → cue (environment g) p 0 s selector = (ended, .ok ()) → Rehearses g p ended rest last →
      Rehearses g p s (selector :: rest) last

/-- A fault that a rehearsal may fail with: a clock in order has run out of readings, and another one may do
anything. -/
def Plan.Excuses (p : Plan) (f : Fault) : Prop :=
  p.clock.Timely → (∃ all, p.clock = .readings all) ∧ f = .clockExhausted

variable {g : Graph} {p : Plan} {s : Session} {selector : String}

theorem wanted_triggers (k : Nat) :
    ((environment g).wanted k).map (fun w => (w.channel, w.listener.origin)) = triggers g := by
  rw [Environment.wanted, triggers, List.map_filterMap]
  have same : (fun n : Node × Nat => ((environment g).subscription? k n.1 n.2).map fun w => (w.channel, w.listener.origin)) =
      (fun node => (Builtin.standard.trigger? node).map fun t => ((⟨t.2.selectorOf node, t.2.eventClassOf node⟩ : Channel),
        (⟨node.id, t.1.execOut⟩ : Endpoint))) ∘ Prod.fst := by
    funext n
    rw [Environment.subscription?, Option.map_map]
    rfl
  rw [same, ← List.filterMap_map, List.zipIdx_map_fst]
  rfl

theorem eventClass_first (t : Channel × Endpoint) (first : first? g selector = some t) :
    eventClass (environment g) selector = t.1.eventClass ∧ t ∈ triggers g ∧ t.1.selector = selector := by
  have found := first
  rw [first?, ← wanted_triggers 0, List.find?_map] at found
  obtain ⟨w, there, same⟩ := Option.map_eq_some_iff.mp found
  refine ⟨?_, List.mem_of_find?_eq_some first, by simpa using List.find?_some first⟩
  have asked : ((environment g).wanted 0).find? (fun s => s.channel.selector == selector) = some w := there
  rw [eventClass, asked, ← same]

/-- What setting up the targets of a host leaves as it is, and what it does not. -/
structure Sets (ws : List Subscription) (h h' : Host Listener) : Prop where
  subscriptions : h'.subscriptions = h.subscriptions
  timeScale : h'.timeScale = h.timeScale
  kept : ∀ selector ∈ h.targets, selector ∈ h'.targets
  added : ∀ w ∈ ws, w.channel.selector ∈ h'.targets

theorem sets (ws : List Subscription) (h : Host Listener) :
    Sets ws h (ws.foldl (fun h w => h.addTarget w.channel.selector) h) := by
  induction ws generalizing h with
  | nil => exact ⟨rfl, rfl, fun _ listed => listed, nofun⟩
  | cons w ws ih =>
    obtain ⟨subscriptions, timeScale, kept, added⟩ := ih (h.addTarget w.channel.selector)
    have one : (h.addTarget w.channel.selector).subscriptions = h.subscriptions ∧
        (h.addTarget w.channel.selector).timeScale = h.timeScale ∧
        w.channel.selector ∈ (h.addTarget w.channel.selector).targets ∧
        ∀ selector ∈ h.targets, selector ∈ (h.addTarget w.channel.selector).targets := by
      unfold Host.addTarget
      split
      · rename_i known
        exact ⟨rfl, rfl, known, fun _ listed => listed⟩
      · exact ⟨rfl, rfl, by simp, fun _ listed => List.mem_append_left _ listed⟩
    refine ⟨subscriptions.trans one.1, timeScale.trans one.2.1, fun x listed => kept x (one.2.2.2 x listed), ?_⟩
    rw [List.forall_mem_cons]
    exact ⟨kept _ one.2.2.1, added⟩

/-- What holds of a rehearsal between its cues: its one run listens with all its triggers, and every pulse
is on a finite way. -/
structure Tuned (g : Graph) (p : Plan) (s : Session) : Prop where
  free : s.Unhindered p.timeScale (environment g)
  enlisted : s.Enlisted
  plain : s.outside.staging = .plain
  collects : s.outside.sink = .collecting
  clock : p.clock.Leaves s.outside.clock
  run : s.runs.map GraphRun.fixed = [⟨environment g, .empty, true, (environment g).wanted 0, [], false⟩]

theorem Tuned.runs (tuned : Tuned g p s) : ∃ r, s.runs = [r] ∧ r.environment = environment g ∧ r.armed = true ∧
    r.stopped = false ∧ r.subscriptions = (environment g).wanted 0 := by
  obtain ⟨r, runs, fixed⟩ := List.map_eq_singleton_iff.mp tuned.run
  exact ⟨r, runs, (congrArg GraphRun.environment fixed :), (congrArg GraphRun.armed fixed :),
    (congrArg GraphRun.stopped fixed :), (congrArg GraphRun.subscriptions fixed :)⟩

theorem logged_diagnose (o : Outside) (line : String) : logged (o.diagnose line).trace.toList = logged o.trace.toList := by
  simp [Outside.diagnose, Outside.record, logged]

theorem logged_log {o : Outside} (collects : o.sink = .collecting) (message : String) (data : Value) :
    logged (o.log message data).trace.toList = logged o.trace.toList ++ [(message, data)] := by
  rw [Outside.trace_log collects]
  simp [logged]

theorem logged_notices {targets : List String} {ws : List Subscription} (known : ∀ w ∈ ws, w.channel.selector ∈ targets) :
    logged (ws.map (Subscription.notice targets)) = ws.map fun w => armed (w.channel, w.listener.origin) := by
  induction ws with
  | nil => rfl
  | cons w ws ih =>
    rw [List.forall_mem_cons] at known
    have first : logged [w.notice targets] = [armed (w.channel, w.listener.origin)] := by
      rw [Subscription.notice, Subscription.verdict, if_pos known.1]
      rfl
    rw [List.map_cons, ← List.singleton_append, logged_append, first, ih known.2]
    rfl

theorem opens (g : Graph) (p : Plan) : ∃ s, Opens g p s ∧ Tuned g p s := by
  have targets : Sets ((environment g).wanted 0) (.empty p.timeScale) (session (environment g) p).outside.host := sets _ _
  have loose : (session (environment g) p).outside.Loose := ⟨rfl, rfl⟩
  have silent : (session (environment g) p).outside.Unheard := by
    intro c
    have same : (session (environment g) p).outside.host.subscriptions = .empty := targets.subscriptions
    rw [same]
    rfl
  have reached : Subscription.reached (session (environment g) p).outside.host.targets ((environment g).wanted 0) =
      (environment g).wanted 0 := by
    refine List.filter_eq_self.mpr fun w listed => ?_
    exact decide_eq_true (targets.added w listed)
  obtain ⟨o, outside, arms, result, runs⟩ := Session.start_sound loose.sound (environment g)
  have own : (session (environment g) p).runs.length = 0 := rfl
  rw [own, reached] at runs
  have told := arms.trace rfl
  have empty : (session (environment g) p).outside.trace.toList = [] := rfl
  rw [empty, List.nil_append, own] at told
  refine ⟨((session (environment g) p).start (environment g)).1, ⟨Prod.ext rfl result, ?_, Session.tasks_start _, ?_⟩,
    ⟨⟨?_, ?_, ?_⟩, ?_, ?_, ?_, ?_, ?_⟩⟩
  · exact ⟨_, runs, rfl, wanted_triggers 0⟩
  · rw [log, outside, logged_diagnose, told, logged_notices targets.added, ← wanted_triggers 0, List.map_map]
    rfl
  · exact ⟨_, (Session.landing_follow (session (environment g) p).outside []).start (environment g)⟩
  · exact Outside.Usual.of_stock ⟨rfl, rfl, targets.timeScale⟩ (Session.stock_start _ _)
  · rw [Session.tasks_start]
    nofun
  · exact (Session.enlisted_follow loose silent []).start (environment g)
  · rw [outside]
    exact arms.staging
  · rw [outside]
    exact arms.sink
  · have same : ((session (environment g) p).start (environment g)).1.outside.clock = p.clock :=
      Session.clock_start loose.sound (environment g)
    rw [same]
    exact p.clock.leaves_self
  · rw [runs]
    rfl

theorem Tuned.listening (tuned : Tuned g p s) (c : Channel) :
    (s.listening c).map (·.origin) = ((triggers g).filter fun t => t.1 = c).map Prod.snd := by
  obtain ⟨r, runs, _, _, _, subscriptions⟩ := tuned.runs
  rw [Session.listening, runs, List.flatMap_singleton, subscriptions, Subscription.on, ← wanted_triggers 0,
    List.filter_map, List.map_map, List.map_map]
  rfl

theorem Tuned.own (tuned : Tuned g p s) : s.environment? 0 = some (environment g) := by
  obtain ⟨r, runs, environment, _⟩ := tuned.runs
  rw [Session.environment?, runs, ← environment]
  rfl

theorem Tuned.trigger (tuned : Tuned g p s) {c : Channel} {l : Listener} (listed : l ∈ s.listening c) :
    s.Armed l ∧ l.run = 0 := by
  obtain ⟨r, run, ready, _⟩ := tuned.enlisted.trigger listed
  obtain ⟨_, runs, _⟩ := tuned.runs
  have bound := (List.getElem?_eq_some_iff.mp run).1
  rw [runs, List.length_singleton] at bound
  exact ⟨⟨r, run, ready⟩, by omega⟩

theorem Tuned.begun (tuned : Tuned g p s) {c : Channel} {begun : List Task}
    (starts : List.Forall₂ s.Starts (s.listening c) begun) :
    begun = ((triggers g).filter fun t => t.1 = c).map (pulse g) := by
  have own : ∀ {ls : List Listener} {ts : List Task}, (∀ l ∈ ls, l ∈ s.listening c) → List.Forall₂ s.Starts ls ts →
      ts = (ls.map (·.origin)).map fun origin => ⟨0, true, false, .pulse (.leaving (environment g) origin)⟩ := by
    intro ls ts listed all
    induction all with
    | nil => rfl
    | @cons l t ls ts starts _ ih =>
      obtain ⟨env, environment, rfl⟩ := starts
      have run := (tuned.trigger (listed l List.mem_cons_self)).2
      rw [run, tuned.own] at environment
      cases environment
      rw [run, ih fun k more => listed k (List.mem_cons_of_mem l more)]
      rfl
  rw [own (fun _ listed => listed) starts, tuned.listening, List.map_map]
  rfl

theorem shown (clock : p.clock.Leaves s.outside.clock) (timely : p.clock.Timely) (l : Listener) (c : String) (x y : Float) :
    (∃ e, (s.snapshot l.eventClass (Host.payload c (.float x) (.float y))).2 = .ok e) ∨
      (s.snapshot l.eventClass (Host.payload c (.float x) (.float y))).2 = .error .clockExhausted ∧
        ∃ all, p.clock = .readings all := by
  rcases clock.shows timely with ⟨v, read, milliseconds, t, times, value⟩ | ⟨read, used⟩
  · exact .inl ⟨⟨l.eventClass, x, y, t⟩, Session.snapshot_eq_ok.mpr ⟨rfl, rfl, rfl, v, milliseconds, read, times, value⟩⟩
  · refine .inr ⟨?_, used⟩
    have made : (s.snapshot l.eventClass (Host.payload c (.float x) (.float y))).2 = (do
        Snapshot.make l.eventClass (Point.ofPayload (Host.payload c (.float x) (.float y)))
          (← (← s.outside.clock.read.1).times 1000)) := rfl
    rw [made, read]
    rfl

theorem log_notify (l : Listener) (payload : Value) : log (s.notify l payload).1 = log s := by
  have called := s.notified l payload
  generalize s.notify l payload = result at called
  cases called with
  | unarmed _ => rfl
  | refused _ _ _ => rfl
  | begun _ _ _ => exact logged_diagnose _ _

theorem log_happen (c : Channel) (x y : Value) : log (s.happen c x y).1 = log s :=
  Session.notifyAll_keeps (P := fun s' => log s' = log s) _ (fun _ l _ h => (log_notify l _).trans h) rfl

theorem Tuned.happen (tuned : Tuned g p s) {c : Channel} {x y : Value} {ts : List (Channel × Endpoint)}
    (tasks : (s.happen c x y).1.tasks = s.tasks ++ ts.map (pulse g))
    (finite : ∀ t ∈ ts, ¬ (environment g).Circular t.2) : Tuned g p (s.happen c x y).1 := by
  have fixed := (Session.grows_happen (s := s) c x y).runs
  have fittings := (Outside.Lasting.fittings s.outside.fittings).notifyAll (s := s) rfl (Host.payload c.eventClass x y)
    (s.outside.host.listeners c)
  obtain ⟨noted, landing⟩ := tuned.free.landing
  refine ⟨⟨⟨noted, landing.undergo (.cue (.happen c x y))⟩, ?_, fun t listed => ?_⟩, ?_,
    (congrArg Fittings.staging fittings).trans tuned.plain, (congrArg Fittings.sink fittings).trans tuned.collects, ?_,
    fixed.trans tuned.run⟩
  · exact (Outside.lasting_usual p.timeScale).notifyAll tuned.free.usual _ _
  · rw [Session.environment?_of_fixed fixed]
    rcases List.mem_append.mp (tasks ▸ listed) with old | new
    · exact tuned.free.tasks t old
    · obtain ⟨u, begins, rfl⟩ := List.mem_map.mp new
      exact ⟨Task.unhindered_leaving (finite u begins) 0, tuned.own⟩
  · exact tuned.enlisted.undergo (.cue (.happen c x y))
  · exact (Outside.lasting_leaves p.clock).notifyAll tuned.clock _ _

theorem Tuned.told (tuned : Tuned g p s) (message : String) (data : Value) :
    Tuned g p { s with outside := s.outside.log message data } := by
  obtain ⟨noted, landing⟩ := tuned.free.landing
  have fittings := Outside.fittings_log s.outside message data
  refine ⟨⟨⟨noted, landing.of_same rfl (.refl _) rfl rfl⟩, ?_, tuned.free.tasks⟩, ?_,
    (congrArg Fittings.staging fittings).trans tuned.plain, (congrArg Fittings.sink fittings).trans tuned.collects, ?_,
    tuned.run⟩
  · exact tuned.free.usual.of_stock (Outside.stock_log _ _ _)
  · exact tuned.enlisted.of_fixed rfl fittings
  · have clock := Outside.clock_log s.outside message data
    dsimp only
    rw [clock]
    exact tuned.clock

/-- What happens on a selector: the pulses of its triggers begin, unless the clock is to blame. -/
theorem Tuned.delivers (tuned : Tuned g p s) (finite : ∀ t ∈ triggers g, ¬ (environment g).Circular t.2) (c : Channel) :
    (∃ s' f, s.happen c (.float p.x) (.float p.y) = (s', .error f) ∧ p.Excuses f) ∨
    ∃ s', s.happen c (.float p.x) (.float p.y) = (s', .ok ((triggers g).filter fun t => t.1 = c).length) ∧
      Tuned g p s' ∧ log s' = log s ∧ s'.tasks = s.tasks ++ ((triggers g).filter fun t => t.1 = c).map (pulse g) := by
  have armed : ∀ l ∈ s.listening c, s.Armed l := fun l listed => (tuned.trigger listed).1
  obtain ⟨heard, rest, all, ⟨begun, tasks, pulses⟩, result⟩ :=
    Session.delivers (Host.payload c.eventClass (.float p.x) (.float p.y)) armed
  have happened : s.happen c (.float p.x) (.float p.y) =
      ((s.notifyAll (Host.payload c.eventClass (.float p.x) (.float p.y)) (s.listening c)).1,
        (s.notifyAll (Host.payload c.eventClass (.float p.x) (.float p.y)) (s.listening c)).2.map
          fun _ => (s.listening c).length) := by
    rw [Session.happen, tuned.enlisted.listeners]
  have quiet := log_happen (s := s) c (.float p.x) (.float p.y)
  rcases result with ⟨rfl, done⟩ | ⟨l, more, f, rfl, failed, refused⟩
  · -- Nobody has refused the event, so the pulses begun are those of all that listen.
    right
    rw [List.append_nil] at all
    subst all
    have begins := tuned.begun pulses
    have called : (s.listening c).length = ((triggers g).filter fun t => t.1 = c).length := by
      simpa using congrArg List.length (tuned.listening c)
    have event : (s.happen c (.float p.x) (.float p.y)).1.tasks =
        s.tasks ++ ((triggers g).filter fun t => t.1 = c).map (pulse g) := by
      rw [happened, ← begins]
      exact tasks
    have next := tuned.happen event fun t listed => finite t (List.mem_of_mem_filter listed)
    refine ⟨_, Prod.ext rfl ?_, next, quiet, event⟩
    rw [happened, done, called]
    rfl
  · -- The first to refuse it finds no reading left, as there is nothing else to refuse it for.
    left
    have left_ := (Outside.lasting_leaves p.clock).notifyAll tuned.clock
      (Host.payload c.eventClass (.float p.x) (.float p.y)) heard
    refine ⟨_, f, Prod.ext rfl ?_, fun timely => ?_⟩
    · rw [happened, failed]
      rfl
    · rcases shown left_ timely l c.eventClass p.x p.y with ⟨e, made⟩ | ⟨exhausted, used⟩
      · cases refused.symm.trans made
      · cases refused.symm.trans exhausted
        exact ⟨used, rfl⟩

theorem Tuned.fires (tuned : Tuned g p s) (finite : ∀ t ∈ triggers g, ¬ (environment g).Circular t.2)
    (selector : String) :
    (∃ f, p.Excuses f ∧ ∀ patience, (cue (environment g) { p with patience := patience } 0 s selector).2 = .error f) ∨
    ∃ fired, Fires g selector s fired ∧ Tuned g p fired ∧
      ∀ patience, cue (environment g) { p with patience := patience } 0 s selector = (fired.drain patience, .ok ()) := by
  rcases tuned.delivers finite ⟨selector, eventClass (environment g) selector⟩ with
    ⟨s', f, happened, excused⟩ | ⟨s', happened, next, quiet, tasks⟩
  · refine .inl ⟨f, excused, fun patience => ?_⟩
    rw [cue]
    dsimp only
    rw [happened]
  · right
    cases first : first? g selector with
    | none =>
      have unheard : ∀ t ∈ triggers g, t.1.selector ≠ selector := by simpa [first?] using first
      have nobody : (triggers g).filter (fun t => t.1 = ⟨selector, eventClass (environment g) selector⟩) = [] := by
        refine List.filter_eq_nil_iff.mpr fun t listed same => unheard t listed ?_
        rw [of_decide_eq_true same]
      rw [nobody] at happened tasks
      refine ⟨_, .unheard unheard ?_ ?_, next.told ("No listener for selector: " ++ selector) .null, fun patience => ?_⟩
      · simpa using tasks
      · rw [← quiet]
        exact logged_log next.collects _ _
      · rw [cue]
        dsimp only
        rw [happened]
        rfl
    | some t =>
      obtain ⟨named, listed, on⟩ := eventClass_first t first
      rw [named] at happened tasks
      refine ⟨s', .heard first tasks quiet, next, fun patience => ?_⟩
      have some_ : ((triggers g).filter fun u => u.1 = ⟨selector, t.1.eventClass⟩).length ≠ 0 := by
        have own : t.1 = ⟨selector, t.1.eventClass⟩ := by rw [← on]
        exact (List.length_pos_of_mem (List.mem_filter.mpr ⟨listed, decide_eq_true own⟩)).ne'
      rw [cue]
      dsimp only
      rw [named, happened]
      dsimp only
      rw [if_neg some_]
      rfl

theorem Tuned.step (tuned : Tuned g p s) : Tuned g p (s.step?.getD s) where
  free := tuned.free.step
  enlisted := tuned.enlisted.step
  plain := (congrArg Fittings.staging ((Outside.Lasting.fittings s.outside.fittings).step rfl)).trans tuned.plain
  collects := (congrArg Fittings.sink ((Outside.Lasting.fittings s.outside.fittings).step rfl)).trans tuned.collects
  clock := (Outside.lasting_leaves p.clock).step tuned.clock
  run := Session.fixed_step.trans tuned.run

theorem length_step (s : Session) : (s.step?.getD s).tasks.length = s.tasks.length := by
  have moved : s.move (.cue .step) = s.step?.getD s := rfl
  rw [← moved]
  exact Session.tasks_move nofun nofun

theorem Tuned.prefer (tuned : Tuned g p s) (place : Nat) : Tuned g p (s.prefer place) := by
  refine ⟨tuned.free.prefer place, tuned.enlisted.undergo (.cue (.prefer place)), ?_, ?_, ?_, ?_⟩
  all_goals rw [Session.prefer_queue]
  · exact tuned.plain
  · exact tuned.collects
  · exact tuned.clock
  · exact tuned.run

theorem Tuned.ended (tuned : Tuned g p s) (rests : s.Resting) :
    (∀ t ∈ s.tasks, ∃ v, t.work = .ended (.ok v)) ∧ s.isIdle 0 = true := by
  obtain ⟨all, idle⟩ := tuned.free.over rests (Environment.not_unclear ⟨_, rfl⟩)
  exact ⟨all, idle 0⟩

/-- All pulses come to their end in this order, and in no more steps than it takes. -/
theorem Tuned.endsBy (tuned : Tuned g p s) (order : Nat → Nat) :
    ∃ enough ended, Tuned g p ended ∧ ended.Resting ∧
      ∀ patience, enough ≤ patience → s.drainBy order patience = ended := by
  obtain ⟨n, rests⟩ := tuned.free.exists_rest order
  have ended : Tuned g p (s.drainBy order n) :=
    Session.drainBy_keeps (fun _ place h => h.prefer place) (fun _ h => h.step) tuned order n
  refine ⟨n, _, ended, rests, fun patience enough => ?_⟩
  obtain ⟨more, rfl⟩ := Nat.exists_eq_add_of_le enough
  rw [Session.drainBy_add, rests.drainBy]

theorem Tuned.ends (tuned : Tuned g p s) :
    ∃ enough ended, Ends s ended ∧ Tuned g p ended ∧ ∀ patience, enough ≤ patience → s.drain patience = ended := by
  obtain ⟨n, ended, further, rests, drained⟩ := tuned.endsBy fun _ => 0
  simp only [← Session.drain_first] at drained
  obtain ⟨all, idle⟩ := further.ended rests
  have reached := drained n (Nat.le_refl n)
  refine ⟨n, ended, ⟨⟨n, reached.symm⟩, rests, ?_, all, idle, ?_⟩, further, drained⟩
  · rw [← reached]
    exact Session.drain_keeps (P := fun s' => s'.tasks.length = s.tasks.length) (fun s' h => (length_step s').trans h) rfl n
  · rw [← reached]
    exact Session.drain_keeps (P := fun s' => log s <+: log s')
      (fun _ h => (lasting_logged (log s)).step h) List.prefix_rfl n

theorem Rehearses.told {cues : List String} {last : Session} (h : Rehearses g p s cues last) :
    log s <+: log last := by
  induction h with
  | done => exact List.prefix_rfl
  | cue fires ends _ _ ih =>
    refine List.IsPrefix.trans ?_ (ends.log.trans ih)
    cases fires with
    | unheard _ _ complains => rw [complains]; exact List.prefix_append _ _
    | heard _ _ quiet => rw [quiet]

theorem Tuned.stop (tuned : Tuned g p s) :
    log (s.stop 0) = log s ∧ ∀ c, (s.stop 0).outside.host.listeners c = [] := by
  obtain ⟨r, runs, _, _, going, _⟩ := tuned.runs
  have found : s.runs[0]? = some r := by rw [runs]; rfl
  have active : ¬ r.stopped = true := by simp [going]
  constructor
  · rw [log, Session.stop, found]
    dsimp only
    rw [if_neg active, logged_diagnose, Outside.trace_disarm tuned.enlisted.loose]
    rfl
  · intro c
    rw [(tuned.enlisted.stop 0).listeners, Session.listening, Session.runs_stop found active, runs]
    rfl

/-- Two triggers, of which one has settings of its own and the other a selector that is none. -/
def pair : Graph where
  schemaVersion := Graph.currentSchema
  graphId := none
  name := none
  nodes := [⟨"a", "event.uiHover", none, none, [("selector", .str "#x"), ("eventType", .str "click")], []⟩,
    ⟨"b", "event.uiHover", none, none, [("selector", .null)], []⟩, Fork.node "c" "debug.log"]
  edges := [Fork.edge "e" "a" "c"]

def visit : Plan := ⟨["#x", "#y", "#hoverTarget"], 1, 2, .int 0, .steady (.int 0), 0⟩

end Rehearsal

end ActionGraph
