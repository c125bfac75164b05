import ActionGraph.Proofs.Session.Arming
import ActionGraph.Proofs.Session.Stop
import ActionGraph.Proofs.Session.Writes

/-!
Who listens, in which order. On a host that lets go of handlers, those of a channel are what the runs
have armed and not disarmed, run by run in the order in which they were started. A run takes out its
own handlers only, because no two runs have one in common.
-/

namespace ActionGraph

/-- The listeners on a channel that runs have armed and not disarmed, in the order in which they were
armed. -/
def Session.listening (s : Session) (c : Channel) : List Listener :=
  Subscription.on c (s.runs.flatMap (·.subscriptions))

theorem erase_middle {α : Type} [DecidableEq α] {front own back : List α} (apart : ∀ x ∈ own, x ∉ front) :
    own.foldl List.erase (front ++ (own ++ back)) = front ++ back := by
  induction own with
  | nil => rfl
  | cons x own ih =>
    have first : (front ++ (x :: own ++ back)).erase x = front ++ (own ++ back) := by
      rw [List.erase_append_right _ (apart x List.mem_cons_self)]
      simp
    rw [List.foldl_cons, first]
    exact ih fun y listed => apart y (List.mem_cons_of_mem x listed)

namespace Session

/-- The host calls exactly the armed listeners of the runs, in order. -/
structure Enlisted (s : Session) : Prop where
  loose : s.outside.Loose
  handlers : ∀ c, s.outside.host.subscriptions.handlers c = s.listening c
  own : ∀ (k : Nat) (r : GraphRun), s.runs[k]? = some r → ∀ w ∈ r.subscriptions,
    w ∈ r.environment.wanted k ∧ w.channel.selector ∈ s.outside.host.targets
  armed : ∀ r ∈ s.runs, r.armed = !r.stopped ∧ (r.stopped = true → r.subscriptions = [])

variable {s s' : Session}

theorem listening_of_fixed (same : s'.runs.map GraphRun.fixed = s.runs.map GraphRun.fixed) (c : Channel) :
    s'.listening c = s.listening c := by
  have lists : s'.runs.map (·.subscriptions) = s.runs.map (·.subscriptions) := by
    have through := congrArg (List.map (·.subscriptions)) same
    rwa [List.map_map, List.map_map] at through
  rw [listening, listening, List.flatMap_def, List.flatMap_def, lists]

theorem Enlisted.of_fixed (h : s.Enlisted) (runs : s'.runs.map GraphRun.fixed = s.runs.map GraphRun.fixed)
    (outside : s'.outside.fittings = s.outside.fittings) : s'.Enlisted where
  loose := by
    have staging : s'.outside.staging = s.outside.staging := congrArg Fittings.staging outside
    exact ⟨staging ▸ h.loose.sound, staging ▸ h.loose.loose⟩
  handlers c := by
    have same : s'.outside.host.subscriptions = s.outside.host.subscriptions := congrArg Fittings.subscriptions outside
    rw [same, h.handlers, listening_of_fixed runs]
  own k r run w listed := by
    have targets : s'.outside.host.targets = s.outside.host.targets := congrArg Fittings.targets outside
    have found : (s.runs.map GraphRun.fixed)[k]? = some r.fixed := by rw [← runs, List.getElem?_map, run]; rfl
    rw [List.getElem?_map] at found
    obtain ⟨q, there, same⟩ := Option.map_eq_some_iff.mp found
    have environment : q.environment = r.environment := (congrArg GraphRun.environment same :)
    have subscriptions : q.subscriptions = r.subscriptions := (congrArg GraphRun.subscriptions same :)
    rw [targets, ← environment]
    exact h.own k q there w (subscriptions ▸ listed)
  armed r listed := by
    have found : r.fixed ∈ s.runs.map GraphRun.fixed := runs ▸ List.mem_map_of_mem listed
    obtain ⟨q, there, same⟩ := List.mem_map.mp found
    have armed : q.armed = r.armed := (congrArg GraphRun.armed same :)
    have stopped : q.stopped = r.stopped := (congrArg GraphRun.stopped same :)
    have subscriptions : q.subscriptions = r.subscriptions := (congrArg GraphRun.subscriptions same :)
    rw [← armed, ← stopped, ← subscriptions]
    exact h.armed q there

/-- The host calls whoever listens, because nobody listens to a target that it does not have. -/
theorem Enlisted.listeners (h : s.Enlisted) (c : Channel) : s.outside.host.listeners c = s.listening c := by
  rw [Host.listeners]
  split
  · exact h.handlers c
  · rename_i unknown
    refine (List.eq_nil_iff_forall_not_mem.mpr fun l listed => unknown ?_).symm
    obtain ⟨r, there, asked⟩ := List.mem_flatMap.mp (Subscription.mem_on.mp listed)
    obtain ⟨k, run⟩ := List.mem_iff_getElem?.mp there
    exact (h.own k r run _ asked).2

theorem Enlisted.trigger (h : s.Enlisted) {c : Channel} {l : Listener} (listed : l ∈ s.listening c) :
    ∃ r, s.runs[l.run]? = some r ∧ r.armed = true ∧ r.stopped = false ∧ ⟨c, l⟩ ∈ r.environment.wanted l.run := by
  obtain ⟨r, there, asked⟩ := List.mem_flatMap.mp (Subscription.mem_on.mp listed)
  obtain ⟨k, run⟩ := List.mem_iff_getElem?.mp there
  have wanted := (h.own k r run _ asked).1
  obtain rfl : l.run = k := run_of_wanted wanted
  obtain ⟨armed, silent⟩ := h.armed r there
  have going : r.stopped = false := by
    cases stopped : r.stopped with
    | false => rfl
    | true => rw [silent stopped] at asked; cases asked
  exact ⟨r, run, by rw [armed, going]; rfl, going, wanted⟩

theorem Enlisted.run_of (h : s.Enlisted) {c : Channel} {l : Listener} {before : List GraphRun} {r : GraphRun}
    {after : List GraphRun} (split : s.runs = before ++ r :: after) (listed : l ∈ Subscription.on c r.subscriptions) :
    l.run = before.length := by
  have run : s.runs[before.length]? = some r := by simp [split]
  exact run_of_wanted (h.own _ r run _ (Subscription.mem_on.mp listed)).1

theorem Enlisted.apart (h : s.Enlisted) {before after : List GraphRun} {r : GraphRun}
    (split : s.runs = before ++ r :: after) (c : Channel) :
    ∀ l ∈ Subscription.on c r.subscriptions, l ∉ Subscription.on c (before.flatMap (·.subscriptions)) := by
  intro l listed earlier
  obtain ⟨q, there, asked⟩ := List.mem_flatMap.mp (Subscription.mem_on.mp earlier)
  obtain ⟨front, back, split'⟩ := List.append_of_mem there
  have own := h.run_of split listed
  have place : s.runs = front ++ q :: (back ++ r :: after) := by simp [split, split']
  have other := h.run_of place (Subscription.mem_on.mpr asked)
  rw [own, split'] at other
  simp at other

theorem Enlisted.addTarget (h : s.Enlisted) (selector : String) : (s.addTarget selector).Enlisted where
  loose := by
    have staging : (s.addTarget selector).outside.staging = s.outside.staging := rfl
    exact ⟨h.loose.sound, h.loose.loose⟩
  handlers c := by
    refine Eq.trans ?_ (h.handlers c)
    unfold Session.addTarget Host.addTarget
    dsimp only
    split <;> rfl
  own k r run w listed := by
    refine ⟨(h.own k r run w listed).1, ?_⟩
    have known := (h.own k r run w listed).2
    unfold Session.addTarget Host.addTarget
    dsimp only
    split
    · exact known
    · exact List.mem_append_left _ known
  armed := h.armed

theorem start_sound (sound : s.outside.staging.faults = []) (env : Environment) :
    ∃ p, (s.start env).1.outside = p.diagnose s!"[LISTENERS] Armed {(Subscription.reached s.outside.host.targets
        (env.wanted s.runs.length)).length} listener(s)" ∧
      s.outside.Arms (env.wanted s.runs.length) p ∧ (s.start env).2 = .ok s.runs.length ∧
      (s.start env).1.runs = s.runs ++ [⟨env, .empty, true,
        Subscription.reached s.outside.host.targets (env.wanted s.runs.length), [], false⟩] := by
  obtain ⟨p, armed, arms⟩ := Outside.arm_sound sound (env.wanted s.runs.length)
  unfold Session.start
  dsimp only
  rw [armed]
  exact ⟨p, rfl, arms, rfl, rfl⟩

theorem Enlisted.start (h : s.Enlisted) (env : Environment) : (s.start env).1.Enlisted := by
  obtain ⟨p, outside, arms, _, runs⟩ := start_sound h.loose.sound env
  have targets : (s.start env).1.outside.host.targets = s.outside.host.targets := by rw [outside]; exact arms.targets
  refine ⟨?_, fun c => ?_, fun k r run w listed => ?_, fun r listed => ?_⟩
  · rw [outside]
    exact ⟨(congrArg Staging.faults arms.staging).trans h.loose.sound,
      (congrArg Staging.sticky arms.staging).trans h.loose.loose⟩
  · have handlers : (s.start env).1.outside.host.subscriptions.handlers c = p.host.subscriptions.handlers c := by
      rw [outside]
      rfl
    rw [handlers, arms.handlers, h.handlers, listening, listening, runs, List.flatMap_append, Subscription.on_append]
    simp
  · rw [targets]
    rw [runs] at run
    rcases Nat.lt_or_ge k s.runs.length with old | new
    · rw [List.getElem?_append_left old] at run
      exact h.own k r run w listed
    · rw [List.getElem?_append_right new] at run
      obtain ⟨rfl, rfl⟩ : k = s.runs.length ∧ r = _ := by
        cases place : k - s.runs.length with
        | zero =>
          rw [place] at run
          exact ⟨by omega, (Option.some.inj run).symm⟩
        | succ n =>
          rw [place] at run
          cases run
      obtain ⟨wanted, known⟩ := List.mem_filter.mp listed
      exact ⟨wanted, of_decide_eq_true known⟩
  · rw [runs] at listed
    rcases List.mem_append.mp listed with old | last
    · exact h.armed r old
    · cases List.mem_singleton.mp last
      exact ⟨rfl, nofun⟩

theorem stop_sound (loose : s.outside.Loose) {run : Nat} {r : GraphRun} (found : s.runs[run]? = some r)
    (going : ¬ r.stopped = true) : ∃ before after, s.runs = before ++ r :: after ∧ before.length = run ∧
      (s.stop run).runs = before ++ disarmed r :: after ∧
      s.outside.Disarms r.subscriptions (s.stop run).outside := by
  obtain ⟨bound, there⟩ := List.getElem?_eq_some_iff.mp found
  refine ⟨s.runs.take run, s.runs.drop (run + 1), ?_, by simp; omega, ?_, ?_⟩
  · rw [← there, List.getElem_cons_drop, List.take_append_drop]
  · rw [runs_stop found going, List.modify_eq_take_cons_drop bound, there]
  · obtain ⟨staging, sink, targets, handlers⟩ := Outside.disarm_sound loose r.subscriptions
    rw [stop, found]
    dsimp only
    rw [if_neg going]
    exact ⟨staging, sink, targets, handlers⟩

theorem Enlisted.stop (h : s.Enlisted) (run : Nat) : (s.stop run).Enlisted := by
  cases found : s.runs[run]? with
  | none => rwa [stop_of_none found]
  | some r =>
    by_cases stopped : r.stopped = true
    · rwa [stop_of_stopped found stopped]
    · obtain ⟨before, after, split, _, runs, disarms⟩ := stop_sound h.loose found stopped
      refine ⟨?_, fun c => ?_, fun k q there w listed => ?_, fun q listed => ?_⟩
      · exact ⟨(congrArg Staging.faults disarms.staging).trans h.loose.sound,
          (congrArg Staging.sticky disarms.staging).trans h.loose.loose⟩
      · rw [disarms.handlers, h.handlers, listening, split, listening, runs]
        simp only [List.flatMap_append, List.flatMap_cons, Subscription.on_append]
        rw [erase_middle (h.apart split c)]
        rfl
      · rw [disarms.targets]
        rw [runs_stop found stopped, List.getElem?_modify] at there
        obtain ⟨k', old, same⟩ := Option.map_eq_some_iff.mp there
        by_cases own : run = k
        · simp only [own, if_true] at same
          rw [← same] at listed
          cases listed
        · simp only [own, if_false] at same
          exact same ▸ h.own k k' old w (same ▸ listed)
      · rw [runs] at listed
        rcases List.mem_append.mp listed with earlier | listed
        · exact h.armed q (by simp [split, earlier])
        · rcases List.mem_cons.mp listed with rfl | later
          · exact ⟨rfl, fun _ => rfl⟩
          · exact h.armed q (by simp [split, later])

theorem outside_cancel (run : Nat) : (s.cancel run).outside = s.outside := by
  refine cancel_keeps (P := fun p => p.outside = s.outside) (fun p i same => ?_) rfl run
  unfold cancelTask
  split
  · exact same
  · dsimp only
    split <;> exact same

theorem fittings_undergo {m : Move} (target : ∀ selector, m ≠ .cue (.addTarget selector))
    (starts : ∀ env, m ≠ .start env) (stops : ∀ run, m ≠ .cue (.stop run)) :
    (s.undergo m).outside.fittings = s.outside.fittings := by
  have lasting := Outside.Lasting.fittings s.outside.fittings
  cases m with
  | cue c =>
    cases c with
    | step => rfl
    | prefer place =>
      unfold undergo prefer
      dsimp only
      split <;> rfl
    | addTarget selector => exact absurd rfl (target selector)
    | happen channel x y => exact lasting.notifyAll rfl _ _
    | call run place payload =>
      unfold undergo call
      dsimp only
      split
      · exact lasting.notify rfl _ payload
      · rfl
    | settle gate result =>
      unfold undergo settle
      dsimp only
      split <;> rfl
    | stop run => exact absurd rfl (stops run)
  | start env => exact absurd rfl (starts env)
  | cancel run => exact congrArg Outside.fittings (outside_cancel run)

theorem fixed_undergo {m : Move} (starts : ∀ env, m ≠ .start env) (stops : ∀ run, m ≠ .cue (.stop run)) :
    (s.undergo m).runs.map GraphRun.fixed = s.runs.map GraphRun.fixed := by
  cases m with
  | cue c =>
    cases c with
    | step => rfl
    | prefer place => exact (grows_prefer place).runs
    | addTarget selector => rfl
    | happen channel x y => exact (grows_happen channel x y).runs
    | call run place payload => exact (grows_call run place payload).runs
    | settle gate result => exact congrArg _ (runs_settle gate result)
    | stop run => exact absurd rfl (stops run)
  | start env => exact absurd rfl (starts env)
  | cancel run => exact congrArg _ (runs_cancel run)

theorem Enlisted.step (h : s.Enlisted) : (s.step?.getD s).Enlisted :=
  h.of_fixed fixed_step ((Outside.Lasting.fittings s.outside.fittings).step rfl)

theorem Enlisted.undergo (h : s.Enlisted) (m : Move) : (s.undergo m).Enlisted := by
  by_cases target : ∃ selector, m = .cue (.addTarget selector)
  · obtain ⟨selector, rfl⟩ := target
    exact h.addTarget selector
  · by_cases starts : ∃ env, m = .start env
    · obtain ⟨env, rfl⟩ := starts
      exact h.start env
    · by_cases stops : ∃ run, m = .cue (.stop run)
      · obtain ⟨run, rfl⟩ := stops
        exact h.stop run
      · exact h.of_fixed (fixed_undergo (not_exists.mp starts) (not_exists.mp stops))
          (fittings_undergo (not_exists.mp target) (not_exists.mp starts) (not_exists.mp stops))

theorem enlisted_follow {o : Outside} (loose : o.Loose) (unheard : o.Unheard) (moves : List Move) :
    ((empty o).follow moves).Enlisted := by
  have start : (empty o).Enlisted := by
    refine ⟨loose, fun c => ?_, fun k r run => ?_, fun r listed => ?_⟩
    · exact unheard c
    · cases run
    · cases listed
  exact follow_keeps (fun _ m h => move_keeps h h.step m (h.undergo m)) start moves

end Session

end ActionGraph
