import ActionGraph.Proofs.Session.Alike

/-!
Stopping a run. From then on its triggers are deaf; its pulses go on as they would have gone on if
it had not been stopped and nothing more had been heard of its triggers.
-/

namespace ActionGraph

/-- Neither about triggers nor about the end of a run. -/
def Cue.quiet : Cue → Bool
  | .step | .prefer _ | .addTarget _ | .settle .. => true
  | .happen .. | .call .. | .stop _ => false

namespace Session

/-- A session of one run, after these things have happened to it. -/
def after (o : Outside) (env : Environment) (cues : List Cue) : Session :=
  ((empty o).start env).1.follow (cues.map .cue)

/-- Whatever happens to its triggers leaves the session as it is, and so does stopping it. -/
structure Deaf (s : Session) : Prop where
  notify : ∀ l payload, s.notify l payload = (s, .ok false)
  happen : ∀ c x y, s.happen c x y = (s, .ok (s.outside.host.listeners c).length)
  call : ∀ run place payload, s.call run place payload = s
  stop : ∀ run, s.stop run = s

/-- Every run has been stopped. -/
def Silent (s : Session) : Prop := ∀ r ∈ s.runs, r.armed = false ∧ r.stopped = true

/-- There is one run, and it is armed only as long as it has not been stopped. -/
def Lone (s : Session) : Prop := ∃ r, s.runs = [r] ∧ (r.stopped = true → r.armed = false)

variable {s s' : Session}

theorem Silent.of_fixed (h : s.Silent) (same : s'.runs.map GraphRun.fixed = s.runs.map GraphRun.fixed) :
    s'.Silent := by
  intro r hr
  have listed : r.fixed ∈ s.runs.map GraphRun.fixed := same ▸ List.mem_map_of_mem hr
  obtain ⟨k, hk, eq⟩ := List.mem_map.mp listed
  obtain ⟨unarmed, stopped⟩ := h k hk
  exact ⟨(congrArg GraphRun.armed eq).symm.trans unarmed, (congrArg GraphRun.stopped eq).symm.trans stopped⟩

theorem Lone.of_fixed (h : s.Lone) (same : s'.runs.map GraphRun.fixed = s.runs.map GraphRun.fixed) : s'.Lone := by
  obtain ⟨r, alone, unarmed⟩ := h
  rw [alone, List.map_singleton] at same
  obtain ⟨r', alone', eq⟩ := List.map_eq_singleton_iff.mp same
  refine ⟨r', alone', fun stopped => ?_⟩
  have armed : r'.armed = r.armed := (congrArg GraphRun.armed eq :)
  exact armed.trans (unarmed ((congrArg GraphRun.stopped eq).symm.trans stopped))

theorem fixed_cue (c : Cue) (other : ∀ run, c ≠ .stop run) :
    (s.move (.cue c)).runs.map GraphRun.fixed = s.runs.map GraphRun.fixed := by
  refine move_keeps (P := fun s' => s'.runs.map GraphRun.fixed = s.runs.map GraphRun.fixed) rfl fixed_step _ ?_
  cases c with
  | step => rfl
  | prefer place => exact (grows_prefer place).runs
  | addTarget selector => rfl
  | happen channel x y => exact (grows_happen channel x y).runs
  | call run place payload => exact (grows_call run place payload).runs
  | settle gate result => exact congrArg _ (runs_settle gate result)
  | stop run => exact absurd rfl (other run)

theorem stop_of_stopped {run : Nat} {r : GraphRun} (found : s.runs[run]? = some r) (stopped : r.stopped = true) :
    s.stop run = s := by
  rw [stop, found]
  exact if_pos stopped

theorem runs_stop {run : Nat} {r : GraphRun} (found : s.runs[run]? = some r) (going : ¬ r.stopped = true) :
    (s.stop run).runs = s.runs.modify run disarmed := by
  rw [stop, found]
  dsimp only
  rw [if_neg going]
  rfl

theorem stop_of_none {run : Nat} (none : s.runs[run]? = none) : s.stop run = s := by
  rw [stop, none]

theorem Lone.stop (h : s.Lone) (run : Nat) : (s.stop run).Lone := by
  obtain ⟨r, alone, unarmed⟩ := h
  cases found : s.runs[run]? with
  | none =>
    rw [stop_of_none found]
    exact ⟨r, alone, unarmed⟩
  | some k =>
    by_cases stopped : k.stopped = true
    · rw [stop_of_stopped found stopped]
      exact ⟨r, alone, unarmed⟩
    · obtain rfl : run = 0 := by
        have bound := (List.getElem?_eq_some_iff.mp found).1
        rw [alone] at bound
        exact Nat.lt_one_iff.mp bound
      refine ⟨_, by rw [runs_stop found stopped, alone]; rfl, fun _ => rfl⟩

theorem Lone.silent_stop (h : s.Lone) : (s.stop 0).Silent := by
  obtain ⟨r, alone, unarmed⟩ := h
  have found : s.runs[0]? = some r := by rw [alone]; rfl
  by_cases stopped : r.stopped = true
  · rw [stop_of_stopped found stopped]
    intro k hk
    rw [alone, List.mem_singleton] at hk
    exact hk ▸ ⟨unarmed stopped, stopped⟩
  · intro k hk
    rw [runs_stop found stopped, alone] at hk
    rw [List.mem_singleton.mp hk]
    exact ⟨rfl, rfl⟩

theorem lone_start (o : Outside) (env : Environment) : ((empty o).start env).1.Lone := by
  unfold start
  dsimp only
  split <;> exact ⟨_, rfl, nofun⟩

theorem Lone.cue (h : s.Lone) (c : Cue) : (s.move (.cue c)).Lone := by
  by_cases stops : ∃ run, c = .stop run
  · obtain ⟨run, rfl⟩ := stops
    unfold move
    dsimp only
    split
    · exact h
    · exact h.stop run
  · exact h.of_fixed (fixed_cue c fun run eq => stops ⟨run, eq⟩)

theorem lone_after (o : Outside) (env : Environment) (cues : List Cue) : (after o env cues).Lone := by
  have go : ∀ (cues : List Cue) (s : Session), s.Lone → (s.follow (cues.map .cue)).Lone := by
    intro cues
    induction cues with
    | nil => exact fun _ h => h
    | cons c cues ih => exact fun s h => ih _ (h.cue c)
  exact go cues _ (lone_start o env)

theorem Silent.notify (h : s.Silent) (l : Listener) (payload : Value) :
    s.notify l payload = (s, .ok false) := by
  unfold Session.notify
  cases found : s.runs[l.run]? with
  | none => rfl
  | some r =>
    have unarmed := (h r (List.mem_of_getElem? found)).1
    dsimp only
    rw [unarmed]
    rfl

theorem Silent.notifyAll (h : s.Silent) (payload : Value) (ls : List Listener) :
    s.notifyAll payload ls = (s, .ok ()) := by
  induction ls with
  | nil => rfl
  | cons l ls ih =>
    rw [Session.notifyAll, h.notify]
    exact ih

/-- The triggers of runs that have been stopped are deaf, also where the host goes on calling them. -/
theorem Silent.deaf (h : s.Silent) : s.Deaf where
  notify := h.notify
  happen c x y := by
    rw [happen, h.notifyAll]
    rfl
  call run place payload := by
    unfold call
    split
    · rw [h.notify]
    · rfl
  stop run := by
    cases found : s.runs[run]? with
    | none => exact stop_of_none found
    | some r => exact stop_of_stopped found (h r (List.mem_of_getElem? found)).2

theorem Silent.undergo (h : s.Silent) {c : Cue} (loud : c.quiet = false) : s.move (.cue c) = s := by
  have deaf := h.deaf
  have same : s.undergo (.cue c) = s := by
    cases c with
    | happen channel x y => exact congrArg Prod.fst (deaf.happen channel x y)
    | call run place payload => exact deaf.call run place payload
    | stop run => exact deaf.stop run
    | _ => cases loud
  cases c with
  | step => cases loud
  | _ =>
    simp only [move, same]
    exact ite_self s

theorem Silent.cue (h : s.Silent) (c : Cue) : (s.move (.cue c)).Silent := by
  cases loud : c.quiet with
  | false => rwa [h.undergo loud]
  | true => exact h.of_fixed (fixed_cue c fun run eq => by rw [eq] at loud; cases loud)

theorem kin_unsubscribe (o : Outside) (w : Subscription) : o.Kin (o.unsubscribe w).1 := by
  have observed : o.Kin (if o.staging.plans .unsubscribe then o.record .unsubscribe else o) := by
    split
    · exact .intro o.host.subscriptions o.calls _ fun _ _ => rfl
    · exact .refl o
  unfold Outside.unsubscribe
  split
  · exact .refl o
  · dsimp only
    generalize (if o.staging.plans .unsubscribe then o.record .unsubscribe else o) = p at observed
    refine observed.trans ?_
    have counted : ∀ c, c ≠ HostCall.unsubscribe →
        Keyed.get? c (p.call .unsubscribe).1.calls = Keyed.get? c p.calls :=
      fun c other => by rw [Outside.call, Keyed.get?_put, if_neg other.symm]
    split
    · rename_i called
      have after := congrArg Prod.fst called
      subst after
      exact .intro p.host.subscriptions _ p.trace counted
    · rename_i called
      have after := congrArg Prod.fst called
      subst after
      exact .intro (p.host.subscriptions.unsubscribe w.channel w.listener) _ p.trace counted

theorem kin_disarm (o : Outside) (ws : List Subscription) : o.Kin (o.disarm ws) := by
  induction ws generalizing o with
  | nil => exact .refl o
  | cons w ws ih =>
    have ended := kin_unsubscribe o w
    unfold Outside.disarm
    split
    · rename_i called
      rw [called] at ended
      exact ended.trans (ih _)
    · rename_i called
      rw [called] at ended
      have reported : ∀ (p : Outside) (line : String), p.Kin (p.diagnose line) := fun p line =>
        .intro p.host.subscriptions p.calls _ fun _ _ => rfl
      exact (ended.trans (reported _ _)).trans (ih _)

theorem alike_stop (s : Session) (run : Nat) :
    s.Alike s.outside.trace.toList (s.stop run).outside.trace.toList (s.stop run) := by
  have since : ∀ l m : List Entry, ∃ since, l = l ++ since ∧ m = m ++ since := fun l m =>
    ⟨[], (List.append_nil l).symm, (List.append_nil m).symm⟩
  have unchanged : s.Alike s.outside.trace.toList s.outside.trace.toList s :=
    ⟨⟨.refl s.outside, since _ _⟩, rfl, rfl, rfl, rfl⟩
  cases found : s.runs[run]? with
  | none => rwa [stop_of_none found]
  | some r =>
    by_cases stopped : r.stopped = true
    · rwa [stop_of_stopped found stopped]
    · have runs : s.runs.map GraphRun.paced = (s.stop run).runs.map GraphRun.paced := by
        rw [runs_stop found stopped]
        exact Eq.symm (map_modify_same fun _ => rfl)
      have disarmed : s.outside.Kin (s.stop run).outside := by
        rw [stop, found]
        dsimp only
        rw [if_neg stopped]
        exact (kin_disarm s.outside r.subscriptions).trans (.intro _ _ _ fun _ _ => rfl)
      refine ⟨⟨disarmed, since _ _⟩, runs, ?_, ?_, ?_⟩
      all_goals
        rw [stop, found]
        dsimp only
        rw [if_neg stopped]
        rfl

/-- What does not concern triggers happens alike to sessions that differ in their triggers only. -/
theorem Alike.cue {a b : List Entry} (h : s.Alike a b s') {c : Cue} (quiet : c.quiet = true) :
    (s.move (.cue c)).Alike a b (s'.move (.cue c)) ∧ s.deedsOf (.cue c) = s'.deedsOf (.cue c) := by
  have undergone : ∀ m, (s.undergo m).Alike a b (s'.undergo m) →
      (if s.running.isSome then s else s.undergo m).Alike a b
        (if s'.running.isSome then s' else s'.undergo m) := by
    intro m alike
    rw [← h.running]
    split
    · exact h
    · exact alike
  cases c with
  | step =>
    refine ⟨h.step, ?_⟩
    unfold deedsOf
    rw [← h.running]
    cases s.running with
    | none => rfl
    | some i => exact congrArg (List.map fun d => (i, d)) (h.deeds i)
  | prefer place => exact ⟨undergone _ (h.prefer place), rfl⟩
  | addTarget selector => exact ⟨undergone _ (h.addTarget selector), rfl⟩
  | settle gate result => exact ⟨undergone _ (h.settle gate result), rfl⟩
  | _ => cases quiet

theorem deedsOf_loud {c : Cue} (loud : c.quiet = false) : s.deedsOf (.cue c) = [] := by
  cases c with
  | step => cases loud
  | _ => rfl

/-- A session whose runs have been stopped goes on like one where they have not, as long as that one
hears nothing of its triggers. -/
theorem Silent.follow {a b : List Entry} (silent : s'.Silent) (h : s.Alike a b s') (later : List Cue) :
    (s'.follow (later.map .cue)).Silent ∧
      (s.follow ((later.filter Cue.quiet).map .cue)).Alike a b (s'.follow (later.map .cue)) ∧
      s'.history (later.map .cue) = s.history ((later.filter Cue.quiet).map .cue) := by
  induction later generalizing s s' with
  | nil => exact ⟨silent, h, rfl⟩
  | cons c later ih =>
    cases sort : c.quiet with
    | false =>
      -- It leaves the stopped session as it is, and the other one is spared it.
      rw [List.filter_cons_of_neg (Bool.eq_false_iff.mp sort), List.map_cons, Session.follow, history,
        silent.undergo sort, deedsOf_loud sort]
      exact ih silent h
    | true =>
      obtain ⟨alike, deeds⟩ := h.cue sort
      obtain ⟨silent', alike', history'⟩ := ih (silent.cue c) alike
      rw [List.filter_cons_of_pos sort, List.map_cons, List.map_cons]
      exact ⟨silent', alike', by rw [history, history, deeds, history']⟩

/-- Stopping a run ends its triggers and nothing else. In every later state its triggers are deaf
and another stop changes nothing. Its tasks do the same, with the same answers and in the same
order, as they would without the stop if its triggers were left alone; and up to the triggers, what
they leave behind is the same, with the same observations since. -/
theorem stop_ends_triggers (o : Outside) (env : Environment) (before later : List Cue) :
    let s := after o env before
    let stopped := s.stop 0
    (stopped.follow (later.map .cue)).Deaf ∧
      stopped.history (later.map .cue) = s.history ((later.filter Cue.quiet).map .cue) ∧
      (s.follow ((later.filter Cue.quiet).map .cue)).Alike s.outside.trace.toList stopped.outside.trace.toList
        (stopped.follow (later.map .cue)) := by
  intro s stopped
  obtain ⟨silent, alike, deeds⟩ := (lone_after o env before).silent_stop.follow (alike_stop s 0) later
  exact ⟨silent.deaf, deeds, alike⟩

end Session

end ActionGraph
