import ActionGraph.Proofs.Rehearsal.Run
import ActionGraph.Proofs.Session.Past

/-!
How rehearsals go on. Between two cues a rehearsal is idle, in whichever order its pulses take their turns.
So what more cues add to its log depends on nothing but the state in which it is idle then, and what it has
logged before stays as it is.
-/

namespace ActionGraph.Rehearsal

/-- The state of a rehearsal that is idle: what its run remembers, and the host. -/
structure Idle where
  memory : Memory
  host : Host Listener

def idle (s : Session) : Idle := ⟨((s.runs[0]?).map GraphRun.memory).getD .empty, s.outside.host⟩

/-- For a cue on a selector, given in an idle state and while the clock shows this: which of the turns in the queue
comes next, in each step. -/
def Order := Clock → Idle → String → Nat → Nat

/-- First come, first served. -/
def Order.queued : Order := fun _ _ _ _ => 0

def cueBy (order : Order) (env : Environment) (p : Plan) (run : Nat) (s : Session) (selector : String) :
    Session × Except Fault Unit :=
  match cue env { p with patience := 0 } run s selector with
  | (s, .error f) => (s, .error f)
  | (fired, .ok _) => (fired.drainBy (order s.outside.clock (idle s) selector) p.patience, .ok ())

def cueAllBy (order : Order) (env : Environment) (p : Plan) (run : Nat) (s : Session) :
    List String → Session × Except Fault Unit
  | [] => (s, .ok ())
  | selector :: rest =>
    match cueBy order env p run s selector with
    | (s, .error f) => (s, .error f)
    | (s, .ok _) => cueAllBy order env p run s rest

/-- The run of a graph on some cues, up to where it is stopped. -/
def rehearseBy (order : Order) (g : Graph) (p : Plan) (cues : List String) : Session × Except Fault Unit :=
  match (session (environment g) p).start (environment g) with
  | (s, .error f) => (s, .error f)
  | (s, .ok i) => cueAllBy order (environment g) p i s cues

def runBy (order : Order) (g : Graph) (p : Plan) (cues : List String) : Session × Except Fault Unit :=
  match (session (environment g) p).start (environment g) with
  | (s, .error f) => (s, .error f)
  | (s, .ok i) =>
    let (s, result) := cueAllBy order (environment g) p i s cues
    (s.stop i, result)

def outcome (r : Session × Except Fault Unit) : Except Fault Session := r.2.map fun _ => r.1

/-- The session in which the run on some cues becomes idle. -/
def reached (order : Order) (g : Graph) (p : Plan) (cues : List String) : Except Fault Session :=
  outcome (rehearseBy order g p cues)

/-- The log that the run on some cues returns. -/
def returned (order : Order) (g : Graph) (p : Plan) (cues : List String) : Except Fault (List (String × Value)) :=
  (outcome (runBy order g p cues)).map log

/-- A session that is idle in this state and has done nothing so far. -/
def fresh (g : Graph) (clock : Clock) (i : Idle) : Session :=
  ⟨⟨i.host, .plain, [], clock, .collecting, 0, 0, #[]⟩,
    [⟨environment g, i.memory, true, (environment g).wanted 0, [], false⟩], [], [], none⟩

/-- The log of some cues that are given in an idle state, while the clock shows this. -/
def added (order : Order) (g : Graph) (p : Plan) (clock : Clock) (i : Idle) (cues : List String) :
    Except Fault (List (String × Value)) :=
  (outcome (cueAllBy order (environment g) p 0 (fresh g clock i) cues)).map log

variable {g : Graph} {p : Plan} {s s' : Session} {order : Order} {past : List Task} {before : List Entry}

theorem cueAllBy_append (env : Environment) (p : Plan) (run : Nat) (s : Session) (xs ys : List String) :
    outcome (cueAllBy order env p run s (xs ++ ys)) =
      (outcome (cueAllBy order env p run s xs)).bind fun s => outcome (cueAllBy order env p run s ys) := by
  induction xs generalizing s with
  | nil => rfl
  | cons selector rest ih =>
    rw [List.cons_append, cueAllBy, cueAllBy]
    split
    · rfl
    · exact ih _

section

variable (since : s.Since past before s')

include since

theorem idle_since : idle s' = idle s := by
  have memory : (s'.runs[0]?).map GraphRun.memory = (s.runs[0]?).map GraphRun.memory := by
    rw [since.run, Option.map_map]
    rfl
  rw [idle, idle, memory, since.outside.host]

theorem log_since : log s' = logged before ++ log s := by
  rw [log, since.outside.trace, logged_append]
  rfl

theorem cue_since (env : Environment) (p : Plan) (run : Nat) (selector : String) :
    (cue env p run s selector).1.Since past before (cue env p run s' selector).1 ∧
      (cue env p run s selector).2 = (cue env p run s' selector).2 := by
  obtain ⟨happened, same⟩ := since.happen ⟨selector, eventClass env selector⟩ (.float p.x) (.float p.y)
  unfold cue
  generalize s.happen ⟨selector, eventClass env selector⟩ (.float p.x) (.float p.y) = x at happened same
  generalize s'.happen ⟨selector, eventClass env selector⟩ (.float p.x) (.float p.y) = x' at happened same
  obtain ⟨fired, result⟩ := x
  obtain ⟨fired', result'⟩ := x'
  obtain rfl : result = result' := same
  cases result with
  | error f => exact ⟨happened, rfl⟩
  | ok n =>
    refine ⟨?_, rfl⟩
    unfold Session.quiesce
    dsimp only
    rw [Session.drain_first, Session.drain_first]
    split
    · exact (happened.withOutside (happened.outside.log _ _)).drainBy _ _
    · exact happened.drainBy _ _

theorem cueBy_since (order : Order) (env : Environment) (p : Plan) (run : Nat) (selector : String) :
    (cueBy order env p run s selector).1.Since past before (cueBy order env p run s' selector).1 ∧
      (cueBy order env p run s selector).2 = (cueBy order env p run s' selector).2 := by
  obtain ⟨cued, same⟩ := cue_since since env { p with patience := 0 } run selector
  unfold cueBy
  rw [idle_since since, since.outside.clock]
  generalize cue env { p with patience := 0 } run s selector = x at cued same
  generalize cue env { p with patience := 0 } run s' selector = x' at cued same
  obtain ⟨fired, result⟩ := x
  obtain ⟨fired', result'⟩ := x'
  obtain rfl : result = result' := same
  cases result with
  | error f => exact ⟨cued, rfl⟩
  | ok _ => exact ⟨cued.drainBy _ _, rfl⟩

/-- What cues do to a session, they do to one with a past. -/
theorem cueAllBy_since (order : Order) (env : Environment) (p : Plan) (run : Nat) (cues : List String) :
    (cueAllBy order env p run s cues).1.Since past before (cueAllBy order env p run s' cues).1 ∧
      (cueAllBy order env p run s cues).2 = (cueAllBy order env p run s' cues).2 := by
  induction cues generalizing s s' with
  | nil => exact ⟨since, rfl⟩
  | cons selector rest ih =>
    obtain ⟨cued, same⟩ := cueBy_since since order env p run selector
    simp only [cueAllBy]
    generalize cueBy order env p run s selector = x at cued same
    generalize cueBy order env p run s' selector = x' at cued same
    obtain ⟨next, result⟩ := x
    obtain ⟨next', result'⟩ := x'
    obtain rfl : result = result' := same
    cases result with
    | error f => exact ⟨cued, rfl⟩
    | ok _ => exact ih cued

end

theorem resting_start (rests : s.Resting) (env : Environment) : (s.start env).1.Resting := by
  unfold Session.start
  dsimp only
  split <;> exact ⟨rests.running, rests.queue⟩

theorem Tuned.patient (tuned : Tuned g p s) {patience : Nat} : Tuned g { p with patience := patience } s :=
  ⟨tuned.free, tuned.enlisted, tuned.plain, tuned.collects, tuned.clock, tuned.run⟩

/-- There is a number of steps that is enough for each of some cues, after any of which all is at rest. -/
theorem Tuned.settles (tuned : Tuned g p s) (rests : s.Resting)
    (finite : ∀ t ∈ triggers g, ¬ (environment g).Circular t.2) (order : Order) (cues : List String) :
    ∃ enough, ∀ patience, enough ≤ patience → ∀ zs, zs <+: cues →
      (∃ f, p.Excuses f ∧ (cueAllBy order (environment g) { p with patience := patience } 0 s zs).2 = .error f) ∨
      ∃ last, cueAllBy order (environment g) { p with patience := patience } 0 s zs = (last, .ok ()) ∧
        Tuned g p last ∧ last.Resting := by
  induction cues generalizing s with
  | nil =>
    refine ⟨0, fun patience _ zs begins => .inr ⟨s, ?_, tuned, rests⟩⟩
    rw [List.prefix_nil.mp begins]
    rfl
  | cons selector rest ih =>
    rcases tuned.fires finite selector with ⟨f, excused, failed⟩ | ⟨fired, _, next, cued⟩
    · refine ⟨0, fun patience _ zs begins => ?_⟩
      rcases List.prefix_cons_iff.mp begins with rfl | ⟨zs, rfl, _⟩
      · exact .inr ⟨s, rfl, tuned, rests⟩
      · refine .inl ⟨f, excused, ?_⟩
        have refused := failed 0
        rw [cueAllBy, cueBy]
        generalize cue (environment g) { p with patience := 0 } 0 s selector = result at refused
        obtain ⟨s', outcome⟩ := result
        cases refused
        rfl
    · obtain ⟨n, ended, further, still, drained⟩ := next.endsBy (order s.outside.clock (idle s) selector)
      obtain ⟨m, goesOn⟩ := ih further still
      -- A rest that is long enough for this cue and for all later ones.
      refine ⟨max n m, fun patience enough zs begins => ?_⟩
      rcases List.prefix_cons_iff.mp begins with rfl | ⟨zs, rfl, shorter⟩
      · exact .inr ⟨s, rfl, tuned, rests⟩
      · have called : cueBy order (environment g) { p with patience := patience } 0 s selector = (ended, .ok ()) := by
          have begun := cued 0
          rw [cueBy]
          dsimp only
          rw [begun]
          exact congrArg (fun s => (s, Except.ok ())) (drained patience (by omega))
        rw [cueAllBy, called]
        exact goesOn patience (by omega) zs shorter

/-- A rehearsal that is idle is a session that has done nothing yet, with a past. -/
theorem Tuned.since (tuned : Tuned g p s) (rests : s.Resting) :
    (fresh g s.outside.clock (idle s)).Since s.tasks s.outside.trace.toList s := by
  obtain ⟨r, runs, environment, armed, stopped, subscriptions⟩ := tuned.runs
  have quiet := (tuned.ended rests).2
  have none : r.inFlight = [] := by simpa [Session.isIdle, runs] using quiet
  refine ⟨⟨rfl, rfl, tuned.plain, rfl, rfl, rfl, tuned.collects, by simp [fresh]⟩, ?_, by simp [fresh], rests.queue,
    rests.running⟩
  rw [runs, idle, runs]
  obtain ⟨_, _, _, _, _, _⟩ := r
  cases environment
  cases armed
  cases stopped
  cases subscriptions
  cases none
  rfl

theorem Tuned.added (tuned : Tuned g p s) (rests : s.Resting) (order : Order) (q : Plan) (cues : List String) :
    (outcome (cueAllBy order (environment g) q 0 s cues)).map log =
      (added order g q s.outside.clock (idle s) cues).map (log s ++ ·) := by
  obtain ⟨further, same⟩ := cueAllBy_since (tuned.since rests) order (environment g) q 0 cues
  have told := log_since further
  rw [Rehearsal.added]
  generalize cueAllBy order (environment g) q 0 s cues = x at told same
  generalize cueAllBy order (environment g) q 0 (fresh g s.outside.clock (idle s)) cues = x' at told same
  obtain ⟨last, result⟩ := x
  obtain ⟨last', result'⟩ := x'
  obtain rfl : result' = result := same
  cases result' with
  | error f => rfl
  | ok _ => exact congrArg Except.ok told

theorem reached_append (order : Order) (g : Graph) (p : Plan) (xs ys : List String) : reached order g p (xs ++ ys) =
    (reached order g p xs).bind fun s => outcome (cueAllBy order (environment g) p 0 s ys) := by
  obtain ⟨started, open_, _⟩ := opens g p
  rw [reached, reached, rehearseBy, rehearseBy, open_.started]
  exact cueAllBy_append ..

/-- What a run on some cues comes to. -/
inductive Settles (order : Order) (g : Graph) (p : Plan) (cues : List String) : Prop
  | failed {f : Fault} : p.Excuses f → reached order g p cues = .error f → returned order g p cues = .error f →
      Settles order g p cues
  | settled {s : Session} : Tuned g p s → s.Resting → reached order g p cues = .ok s →
      returned order g p cues = .ok (log s) → Settles order g p cues

theorem settles (g : Graph) (p : Plan) (order : Order) (finite : ∀ t ∈ triggers g, ¬ (environment g).Circular t.2)
    (cues : List String) : ∃ enough, ∀ patience, enough ≤ patience → ∀ zs, zs <+: cues →
      Settles order g { p with patience := patience } zs := by
  obtain ⟨started, open_, tuned⟩ := opens g p
  have rests : started.Resting := by
    have resting := resting_start (s := session (environment g) p) ⟨rfl, rfl⟩ (environment g)
    rwa [open_.started] at resting
  obtain ⟨enough, settled⟩ := tuned.settles rests finite order cues
  refine ⟨enough, fun patience fuel zs begins => ?_⟩
  have start : (session (environment g) { p with patience := patience }).start (environment g) = (started, .ok 0) :=
    open_.started
  have reaches : reached order g { p with patience := patience } zs =
      outcome (cueAllBy order (environment g) { p with patience := patience } 0 started zs) := by
    rw [reached, rehearseBy, start]
  have returns : returned order g { p with patience := patience } zs =
      (outcome ((cueAllBy order (environment g) { p with patience := patience } 0 started zs).1.stop 0,
        (cueAllBy order (environment g) { p with patience := patience } 0 started zs).2)).map log := by
    rw [returned, runBy, start]
  rcases settled patience fuel zs begins with ⟨f, excused, failed⟩ | ⟨last, all, lasts, still⟩
  · rw [outcome, failed] at reaches returns
    exact .failed excused reaches returns
  · rw [all] at reaches returns
    refine .settled lasts.patient still reaches (returns.trans ?_)
    exact congrArg Except.ok lasts.stop.1

section

variable {xs ys : List String} {f : Fault}

theorem Settles.told (h : Settles order g p xs) : returned order g p xs = (reached order g p xs).map log := by
  cases h with
  | failed _ reached told =>
    rw [reached, told]
    rfl
  | settled _ _ reached told =>
    rw [reached, told]
    rfl

theorem Settles.excused (h : Settles order g p xs) (failed : returned order g p xs = .error f) : p.Excuses f := by
  cases h with
  | failed excused _ told =>
    cases told.symm.trans failed
    exact excused
  | settled _ _ _ told => cases told.symm.trans failed

theorem Settles.tuned (h : Settles order g p xs) (idle : reached order g p xs = .ok s) : Tuned g p s ∧ s.Resting := by
  cases h with
  | failed _ reached _ => cases reached.symm.trans idle
  | settled tuned rests reached _ =>
    cases reached.symm.trans idle
    exact ⟨tuned, rests⟩

theorem Settles.goesOn (h : Settles order g p xs) (whole : Settles order g p (xs ++ ys)) :
    returned order g p (xs ++ ys) = (reached order g p xs).bind fun s =>
      (added order g p s.outside.clock (idle s) ys).map (log s ++ ·) := by
  rw [whole.told, reached_append]
  cases idle : reached order g p xs with
  | error f => rfl
  | ok s =>
    obtain ⟨tuned, rests⟩ := h.tuned idle
    exact tuned.added rests order p ys

theorem Settles.grows (h : Settles order g p xs) (whole : Settles order g p (xs ++ ys)) {es all : List (String × Value)}
    (first : returned order g p xs = .ok es) (last : returned order g p (xs ++ ys) = .ok all) : es <+: all := by
  rw [h.told] at first
  rw [h.goesOn whole] at last
  cases idle : reached order g p xs with
  | error f =>
    rw [idle] at first
    cases first
  | ok s =>
    rw [idle] at first last
    cases first
    have more : ∀ x : Except Fault (List (String × Value)), x.map (log s ++ ·) = .ok all → log s <+: all := by
      rintro (f | more) same
      · cases same
      · cases same
        exact List.prefix_append _ _
    exact more _ last

end

/-- Two triggers that begin pulses at once. -/
def twins : Graph where
  schemaVersion := Graph.currentSchema
  graphId := none
  name := none
  nodes := [⟨"a", "event.uiHover", none, none, [("selector", .str "#x")], []⟩,
    ⟨"b", "event.uiHover", none, none, [("selector", .str "#x")], []⟩, Fork.node "c" "debug.log"]
  edges := [Fork.edge "e" "a" "c", Fork.edge "f" "b" "c"]

end ActionGraph.Rehearsal
