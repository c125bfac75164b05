import ActionGraph.Proofs.Session.Constants
import ActionGraph.Proofs.Session.Enlistment

/-!
The listeners of a host by what was called. Whoever knows which targets were added, which runs were
started and which were stopped, and in which order, knows all handlers of the host and their order.
-/

namespace ActionGraph

/-- A run, as far as its listeners go: its triggers whose target the host had when the run was
started, and whether it was stopped since. -/
structure Member where
  triggers : List Subscription
  stopped : Bool

def Member.armed (m : Member) : List Subscription := if m.stopped then [] else m.triggers

/-- The targets that were added, and the runs in the order in which they were started. -/
structure Roster where
  targets : List String
  members : List Member

namespace Roster

def after (R : Roster) : Move → Roster
  | .cue (.addTarget selector) =>
    { R with targets := if selector ∈ R.targets then R.targets else R.targets ++ [selector] }
  | .start env =>
    { R with members := R.members ++ [⟨Subscription.reached R.targets (env.wanted R.members.length), false⟩] }
  | .cue (.stop run) => { R with members := R.members.modify run fun m => { m with stopped := true } }
  | _ => R

/-- The listeners on a channel: those of the runs that go on, in the order of the runs, and within a
run in the order of its trigger nodes. -/
def listeners (R : Roster) (c : Channel) : List Listener := Subscription.on c (R.members.flatMap Member.armed)

end Roster

namespace Session

/-- The roster after these moves. What is not possible while a task has the turn leaves it as it is. -/
def roster (s : Session) (R : Roster) : List Move → Roster
  | [] => R
  | m :: moves => (s.move m).roster (if s.running.isSome then R else R.after m) moves

/-- What a roster says of a session. -/
structure Rostered (s : Session) (R : Roster) : Prop where
  targets : s.outside.host.targets = R.targets
  runs : (s.runs.map fun r => (r.subscriptions, r.stopped)) = R.members.map fun m => (m.armed, m.stopped)

variable {s s' : Session} {R : Roster}

theorem Rostered.of_fixed (h : s.Rostered R) (runs : s'.runs.map GraphRun.fixed = s.runs.map GraphRun.fixed)
    (outside : s'.outside.fittings = s.outside.fittings) : s'.Rostered R where
  targets := (congrArg Fittings.targets outside).trans h.targets
  runs := by
    have through := congrArg (List.map fun r : GraphRun => (r.subscriptions, r.stopped)) runs
    rw [List.map_map, List.map_map] at through
    exact through.trans h.runs

theorem Rostered.length (h : s.Rostered R) : s.runs.length = R.members.length := by
  simpa using congrArg List.length h.runs

theorem Rostered.addTarget (h : s.Rostered R) (selector : String) :
    (s.addTarget selector).Rostered (R.after (.cue (.addTarget selector))) where
  targets := by
    unfold Session.addTarget Host.addTarget Roster.after
    dsimp only
    rw [← h.targets]
    split <;> rfl
  runs := h.runs

theorem Rostered.start (h : s.Rostered R) (sound : s.outside.staging.faults = []) (env : Environment) :
    (s.start env).1.Rostered (R.after (.start env)) := by
  obtain ⟨p, outside, arms, _, runs⟩ := start_sound sound env
  refine ⟨?_, ?_⟩
  · rw [outside]
    exact arms.targets.trans h.targets
  · rw [runs, List.map_append, h.runs, h.targets, h.length, Roster.after, List.map_append]
    rfl

theorem map_modify_const {α β : Type} {g : α → β} {f : α → α} {y : β} (constant : ∀ x, g (f x) = y) (l : List α)
    (i : Nat) : (l.modify i f).map g = (l.map g).modify i fun _ => y := by
  apply List.ext_getElem?
  intro j
  simp only [List.getElem?_map, List.getElem?_modify]
  cases l[j]? with
  | none => rfl
  | some x => by_cases here : i = j <;> simp [here, constant]

/-- After a stop a run has no listeners, whether or not this was the first one. -/
theorem Enlisted.runs_stopped (h : s.Enlisted) (run : Nat) :
    ((s.stop run).runs.map fun r => (r.subscriptions, r.stopped)) =
      (s.runs.map fun r => (r.subscriptions, r.stopped)).modify run fun _ => ([], true) := by
  cases found : s.runs[run]? with
  | none =>
    rw [stop_of_none found, List.modify_eq_self]
    simpa using found
  | some r =>
    by_cases stopped : r.stopped = true
    · rw [stop_of_stopped found stopped]
      refine (List.modify_id run _).symm.trans (modify_congr (x := ([], true)) ?_ rfl)
      rw [List.getElem?_map, found]
      simp [stopped, (h.armed r (List.mem_of_getElem? found)).2 stopped]
    · rw [runs_stop found stopped]
      exact map_modify_const (f := disarmed) (y := ([], true)) (fun _ => rfl) s.runs run

theorem Rostered.stop (h : s.Rostered R) (enlisted : s.Enlisted) (run : Nat) :
    (s.stop run).Rostered (R.after (.cue (.stop run))) := by
  refine ⟨?_, ?_⟩
  · have targets : (s.stop run).outside.host.targets = s.outside.host.targets := by
      cases found : s.runs[run]? with
      | none => rw [stop_of_none found]
      | some r =>
        by_cases stopped : r.stopped = true
        · rw [stop_of_stopped found stopped]
        · obtain ⟨_, _, _, _, _, disarms⟩ := stop_sound enlisted.loose found stopped
          exact disarms.targets
    exact targets.trans h.targets
  · rw [enlisted.runs_stopped, h.runs, Roster.after]
    exact (map_modify_const (f := fun m : Member => { m with stopped := true }) (y := ([], true)) (fun _ => rfl)
      R.members run).symm

theorem Rostered.undergo (h : s.Rostered R) (enlisted : s.Enlisted) (m : Move) :
    (s.undergo m).Rostered (R.after m) := by
  have quiet (target : ∀ selector, m ≠ .cue (.addTarget selector)) (starts : ∀ env, m ≠ .start env)
      (stops : ∀ run, m ≠ .cue (.stop run)) : (s.undergo m).Rostered R :=
    h.of_fixed (fixed_undergo starts stops) (fittings_undergo target starts stops)
  cases m with
  | cue c =>
    cases c with
    | addTarget selector => exact h.addTarget selector
    | stop run => exact h.stop enlisted run
    | _ => exact quiet nofun nofun nofun
  | start env => exact h.start enlisted.loose.sound env
  | cancel run => exact quiet nofun nofun nofun

theorem Rostered.move (h : s.Rostered R) (enlisted : s.Enlisted) (m : Move) :
    (s.move m).Rostered (if s.running.isSome then R else R.after m) := by
  by_cases steps : m = .cue .step
  · subst steps
    have stepped : (s.move (.cue .step)).Rostered R :=
      h.of_fixed fixed_step ((Outside.Lasting.fittings s.outside.fittings).step rfl)
    split <;> exact stepped
  · rw [move_other steps]
    split
    · exact h
    · exact h.undergo enlisted m

theorem Rostered.follow (h : s.Rostered R) (enlisted : s.Enlisted) (moves : List Move) :
    (s.follow moves).Rostered (s.roster R moves) := by
  induction moves generalizing s R with
  | nil => exact h
  | cons m moves ih => exact ih (h.move enlisted m) (move_keeps enlisted enlisted.step m (enlisted.undergo m))

theorem Rostered.listeners (h : s.Rostered R) (enlisted : s.Enlisted) (c : Channel) :
    s.outside.host.listeners c = R.listeners c := by
  have armed : s.listening c = R.listeners c := by
    have lists := congrArg (List.map Prod.fst) h.runs
    rw [List.map_map, List.map_map] at lists
    rw [listening, Roster.listeners, List.flatMap_def, List.flatMap_def]
    exact congrArg (fun l => Subscription.on c l.flatten) lists
  rw [← armed, enlisted.listeners]

theorem Enlisted.others (h : s.Enlisted) {run other : Nat} (apart : other ≠ run) :
    (s.stop run).runs[other]? = s.runs[other]? ∧
      ∀ c, ((s.stop run).outside.host.listeners c).filter (·.run = other) =
        (s.outside.host.listeners c).filter (·.run = other) := by
  cases found : s.runs[run]? with
  | none =>
    rw [stop_of_none found]
    exact ⟨rfl, fun _ => rfl⟩
  | some r =>
    by_cases stopped : r.stopped = true
    · rw [stop_of_stopped found stopped]
      exact ⟨rfl, fun _ => rfl⟩
    · obtain ⟨before, after, split, place, runs, disarms⟩ := stop_sound h.loose found stopped
      refine ⟨by rw [runs_stop found stopped, List.getElem?_modify_ne _ _ (Ne.symm apart)], fun c => ?_⟩
      rw [Host.listeners, Host.listeners, disarms.targets]
      split
      · rename_i known
        have own : (Subscription.on c r.subscriptions).filter (·.run = other) = [] := by
          refine List.filter_eq_nil_iff.mpr fun l listed => ?_
          have mine := h.run_of split listed
          simp only [decide_eq_true_eq]
          omega
        have left : (s.stop run).outside.host.subscriptions.handlers c = Subscription.on c (before.flatMap (·.subscriptions)) ++
            Subscription.on c (after.flatMap (·.subscriptions)) := by
          rw [disarms.handlers, h.handlers, listening, split]
          simp only [List.flatMap_append, List.flatMap_cons, Subscription.on_append]
          exact erase_middle (h.apart split c)
        rw [left, h.handlers, listening, split]
        simp [own]
      · rfl

end Session

end ActionGraph
