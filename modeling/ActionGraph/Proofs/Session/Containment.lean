import ActionGraph.Proofs.Pulse.Failure
import ActionGraph.Proofs.Session.Ending
import ActionGraph.Proofs.Session.Standin
import ActionGraph.Proofs.Session.Unwatched

/-!
A node that fails is contained. Its session is compared with one that differs in this one run of the
node, which is forgiven: it does the same work, and if that fails it has no outputs. Up to the failure
the sessions go on alike, with what is left of the same work in both; the failure adds a report in the
one; and from then on they differ in nothing but that they were watched differently.
-/

namespace ActionGraph

/-- What is left of work, which was settled if there is a result. -/
def Thread.settled {α : Type} (t : Thread α) : Option (Except Fault Unit) → Thread α
  | none => t
  | some result => t.settle result

theorem Thread.LeftOf.settled {α : Type} {a : Action α} {ds : List Deed} {t : Thread α} (left : t.LeftOf a ds)
    (result : Option (Except Fault Unit)) : (t.settled result).LeftOf a ds := by
  cases result with
  | none => exact left
  | some result => exact left.settle result

namespace Environment

variable (env : Environment) (node : Node) (b : Behavior) (pending : List String) (v : Thread Ports)

/-- A pulse that runs a node, of whose work this is left. -/
def running : Pulse := ⟨v.through (env.stage node b), pending⟩

/-- The same pulse, if the run of the node is forgiven. -/
def sparing : Pulse := ⟨v.through (env.forgiven node b), pending⟩

theorem paces_sparing : (env.running node b pending v).Paces (env.sparing node b pending v) :=
  ⟨by simp [running, sparing], fun gate => by simp [running, sparing]⟩

theorem settled_running (result : Option (Except Fault Unit)) :
    (env.running node b pending v).settled result = env.running node b pending (v.settled result) := by
  cases result with
  | none => rfl
  | some result => simp [running, Pulse.settled, Thread.settled]

theorem settled_sparing (result : Option (Except Fault Unit)) :
    (env.sparing node b pending v).settled result = env.sparing node b pending (v.settled result) := by
  cases result with
  | none => rfl
  | some result => simp [sparing, Pulse.settled, Thread.settled]

end Environment

namespace Session

variable {s : Session} {i : Nat} {t t' : Task} {r : GraphRun} {p q : Pulse}

/-- A turn of a pulse comes to what the turn of another one comes to that goes equally far, apart from
how it was watched. -/
theorem advancePulse_standin {x : Scene} {w : Watch} {far : Progress (List String)} (run : t'.run = t.run)
    (counted : t'.counted = t.counted) (pending : q.pending = p.pending)
    (mine : p.visit.perform (s.scene r) = (watched x w, far)) (other : q.visit.perform (s.scene r) = (x, far)) :
    s.advancePulse i t r p = watched ((s.swap i q).advancePulse i t' r q) w := by
  have theirs : q.visit.perform ((s.swap i q).scene r) = (x, far) := other
  have adopted : s.adopt t.run (watched x w) = watched (s.adopt t.run x) w := rfl
  have swapped : (s.swap i q).adopt t.run x = (s.adopt t.run x).swap i q := rfl
  simp only [advancePulse, mine, theirs, adopted, run, swapped, counted, pending]
  cases far with
  | suspended visit =>
    dsimp only
    rw [suspend_watched, suspend_swap_self]
  | ended result =>
    cases result with
    | error f =>
      dsimp only
      rw [conclude_watched, conclude_swap_self]
    | ok ids =>
      dsimp only
      cases Pulse.next? r.environment (ids ++ p.pending) with
      | none =>
        dsimp only
        rw [conclude_watched, conclude_swap_self]
      | some next =>
        dsimp only
        rw [setWork_swap_self]
        rfl

theorem advancePulse_suspended {env : Environment} {node : Node} {b : Behavior} {ids : List String} {v v' : Thread Ports}
    {x : Scene} (run : t'.run = t.run) (worked : v.perform (s.scene r) = (x, .suspended v')) :
    (s.swap i (env.sparing node b ids v)).advancePulse i t' r (env.sparing node b ids v) =
      (s.advancePulse i t r (env.running node b ids v)).swap i (env.sparing node b ids v') := by
  have mine : (env.running node b ids v).visit.perform (s.scene r) = (x, .suspended (v'.through (env.stage node b))) := by
    rw [Environment.running, Thread.perform_through (env.transparent_stage node b), worked]
  have theirs : (env.sparing node b ids v).visit.perform ((s.swap i (env.sparing node b ids v)).scene r) =
      (x, .suspended (v'.through (env.forgiven node b))) := by
    change (env.sparing node b ids v).visit.perform (s.scene r) = _
    rw [Environment.sparing, Thread.perform_through (env.transparent_forgiven node b), worked]
  have swapped : (s.swap i (env.sparing node b ids v)).adopt t.run x = (s.adopt t.run x).swap i (env.sparing node b ids v) := rfl
  simp only [advancePulse, mine, theirs, run, swapped, suspend_swap_self]
  exact suspend_standin (env.paces_sparing node b ids v')

theorem happenings_turn (turn : s.running = some i) (task : s.tasks[i]? = some t) :
    s.happenings (.cue .step) = Chronicle.deeds t.run i (s.deeds i) := by
  simp [happenings, firingsOf, turnOf, turn, task]

/-- A task of a run in this environment runs a node, of whose work this is left. -/
structure Runs (s : Session) (i k : Nat) (env : Environment) (node : Node) (b : Behavior) (ids : List String)
    (v : Thread Ports) : Prop where
  task : ∃ t, s.tasks[i]? = some t ∧ t.run = k ∧ t.work = .pulse (env.running node b ids v)
  environment : s.environment? k = some env

variable {s' : Session} {k : Nat} {env : Environment} {node : Node} {b : Behavior} {ids : List String}
  {v : Thread Ports} {ds : List Deed}

theorem Runs.about (runs : s.Runs i k env node b ids v) : s.About i (env.running node b ids v) := by
  obtain ⟨t, task, _, work⟩ := runs.task
  exact ⟨t, task, work⟩

/-- It is the turn of this task, which was not cancelled and belongs to this run. -/
structure HasTurn (s : Session) (i : Nat) (t : Task) (r : GraphRun) : Prop where
  turn : s.running = some i
  task : s.tasks[i]? = some t
  active : t.cancelled = false
  run : s.runs[t.run]? = some r

/-- In its turn, which has come, the task completes the work of its node, of which `v` is left. -/
def Completes (s : Session) (i : Nat) (v : Thread Ports) (o : Except Fault Ports) : Prop :=
  ∃ t r x, s.HasTurn i t r ∧ v.perform (s.scene r) = (x, .ended o)

/-- What a move comes to when task `i` runs a node whose work has done `ds` and `v` is left of it, here
and in a session `s'` in which that run is forgiven. -/
inductive Fares (s s' : Session) (i k : Nat) (env : Environment) (node : Node) (b : Behavior) (ids : List String)
    (v : Thread Ports) (ds : List Deed) (m : Move) : Prop
  | works (v' : Thread Ports) (left : v'.LeftOf (env.begun node b) (ds ++ (s.deedsOf m).of i))
      (runs : (s.move m).Runs i k env node b ids v') (alike : s'.happenings m = s.happenings m)
      (spared : s'.move m = (s.move m).swap i (env.sparing node b ids v'))
  | cancelled (t : Task) (task : s.tasks[i]? = some t) (given : t.cancelled = true)
      (alike : s'.happenings m = s.happenings m) (same : s'.move m = s.move m)
  | ended (outputs : Ports) (steps : m = .cue .step) (completes : s.Completes i v (.ok outputs))
      (alike : s'.happenings m = s.happenings m) (same : s'.move m = s.move m)
  | failed (f : Fault) (steps : m = .cue .step) (completes : s.Completes i v (.error f)) (worked after : List Deed)
      (seen later : List Entry) (fails : (env.begun node b).Reaches (ds ++ worked) (.failed f))
      (told : s.happenings m = Chronicle.deeds k i (worked ++ node.reported f ++ after))
      (spared : s'.happenings m = Chronicle.deeds k i (worked ++ after))
      (observed : (s'.move m).outside.watch = s.outside.watch.notes (seen ++ later))
      (same : s.move m = watched (s'.move m) (s.outside.watch.notes (seen ++ node.complaint f ++ later)))

theorem deedsOf_elsewhere {m : Move} (other : m = .cue .step → s.running ≠ some i) : (s.deedsOf m).of i = [] := by
  unfold deedsOf
  split
  · cases turn : s.running with
    | none => rfl
    | some j => exact History.of_map_other (fun same => other rfl (by rw [turn, same])) _
  · rfl

theorem Runs.elsewhere (runs : s.Runs i k env node b ids v) (left : v.LeftOf (env.begun node b) ds) {m : Move}
    (other : m = .cue .step → s.running ≠ some i) :
    s.Fares (s.swap i (env.sparing node b ids v)) i k env node b ids v ds m := by
  obtain ⟨result, about, spared⟩ := move_swap (env.paces_sparing node b ids v) runs.about other
  rw [env.settled_running] at about
  rw [env.settled_sparing] at spared
  obtain ⟨t, task, run, _⟩ := runs.task
  have changed := s.changed_move m
  obtain ⟨t', task', evolves⟩ := changed.evolved i t task
  obtain ⟨t'', same, work⟩ := about
  cases task'.symm.trans same
  refine .works (v.settled result) ?_ ⟨⟨t', task', evolves.run_eq.trans run, work⟩, changed.environments _ _ runs.environment⟩
    (happenings_swap runs.about other) spared
  rw [deedsOf_elsewhere other, List.append_nil]
  exact left.settled result

theorem HasTurn.swap (has : s.HasTurn i t r) (q : Pulse) : (s.swap i q).HasTurn i { t with work := .pulse q } r :=
  ⟨has.turn, task_swap_self has.task, has.active, has.run⟩

theorem HasTurn.move (has : s.HasTurn i t r) (work : t.work = .pulse p) :
    s.move (.cue .step) = s.advancePulse i t r p :=
  (step_running has.turn).trans (advance_pulse has.task has.active has.run work)

theorem HasTurn.deeds (has : s.HasTurn i t r) (work : t.work = .pulse p) :
    s.deeds i = p.visit.deeds (s.scene r) ++ p.arrival (p.visit.perform (s.scene r)).2 :=
  deeds_pulse has.task has.active has.run work

theorem HasTurn.happenings (has : s.HasTurn i t r) (work : t.work = .pulse p) : s.happenings (.cue .step) =
    Chronicle.deeds t.run i (p.visit.deeds (s.scene r) ++ p.arrival (p.visit.perform (s.scene r)).2) := by
  rw [happenings_turn has.turn has.task, has.deeds work]

theorem HasTurn.deeds_suspended (has : s.HasTurn i t r) (work : t.work = .pulse p) {x : Scene} {visit : Thread (List String)}
    (far : p.visit.perform (s.scene r) = (x, .suspended visit)) : s.deeds i = p.visit.deeds (s.scene r) := by
  rw [has.deeds work, far]
  exact List.append_nil _

section

variable (has : s.HasTurn i t r) (work : t.work = .pulse (env.running node b ids v)) {x : Scene}

include has work

theorem HasTurn.over {o : Except Fault Ports} {y : Scene × Progress (List String)} {w : Watch}
    (worked : v.perform (s.scene r) = (x, .ended o)) (spared : (env.forgiven node b (.ofExcept o)).perform false x = y)
    (same : (env.stage node b (.ofExcept o)).perform false x = watched y w) :
    let s' := s.swap i (env.sparing node b ids v)
    (∃ after, s.happenings (.cue .step) = Chronicle.deeds t.run i
        (v.deeds (s.scene r) ++ (env.stage node b (.ofExcept o)).deeds false x ++ after) ∧
      s'.happenings (.cue .step) = Chronicle.deeds t.run i
        (v.deeds (s.scene r) ++ (env.forgiven node b (.ofExcept o)).deeds false x ++ after)) ∧
      s.move (.cue .step) = watched (s'.move (.cue .step)) w ∧ watch (s'.move (.cue .step)) = watch y := by
  intro s'
  obtain ⟨far, did⟩ := Thread.through_ended (env.transparent_stage node b) worked
  obtain ⟨far', did'⟩ := Thread.through_ended (env.transparent_forgiven node b) worked
  have swapped := has.swap (env.sparing node b ids v)
  have mine : (env.running node b ids v).visit.perform (s.scene r) = (watched y.1 w, y.2) := far.trans same
  have theirs : (env.sparing node b ids v).visit.perform (s.scene r) = (y.1, y.2) := far'.trans spared
  have happened := has.happenings work
  have happened' : s'.happenings (.cue .step) = Chronicle.deeds t.run i ((env.sparing node b ids v).visit.deeds (s.scene r) ++
    (env.sparing node b ids v).arrival ((env.sparing node b ids v).visit.perform (s.scene r)).2) := swapped.happenings rfl
  have moved' : s'.move (.cue .step) = _ := swapped.move rfl
  refine ⟨⟨(env.running node b ids v).arrival y.2, ?_, ?_⟩, ?_, ?_⟩
  · rw [happened, mine, ← did]
    rfl
  · rw [happened', theirs, ← did']
    rfl
  · rw [has.move work, moved']
    exact advancePulse_standin rfl rfl rfl mine theirs
  · have outside : (s'.move (.cue .step)).outside = y.1.outside := by
      rw [moved', (s'.advancePulse_spec i _ r _).2.2.1]
      exact congrArg (fun z : Scene × Progress (List String) => z.1.outside) theirs
    exact congrArg Outside.watch outside

theorem HasTurn.ended {outputs : Ports} (worked : v.perform (s.scene r) = (x, .ended (.ok outputs))) :
    s.Fares (s.swap i (env.sparing node b ids v)) i t.run env node b ids v ds (.cue .step) := by
  obtain ⟨⟨after, told, told'⟩, moved, kept⟩ :=
    has.over work (w := watch ((env.stage node b (.done outputs)).perform false x)) worked rfl (watched_watch _).symm
  refine .ended outputs rfl ⟨t, r, x, has, worked⟩ (told'.trans told.symm) ?_
  rw [moved, ← watched_watch ((s.swap i (env.sparing node b ids v)).move (.cue .step)), kept]
  rfl

variable (left : v.LeftOf (env.begun node b) ds)

include left

theorem HasTurn.suspended (environment : s.environment? t.run = some env) {v' : Thread Ports}
    (worked : v.perform (s.scene r) = (x, .suspended v')) :
    s.Fares (s.swap i (env.sparing node b ids v)) i t.run env node b ids v ds (.cue .step) := by
  obtain ⟨far, did⟩ := Thread.through_suspended (env.transparent_stage node b) worked
  obtain ⟨far', did'⟩ := Thread.through_suspended (env.transparent_forgiven node b) worked
  have swapped := has.swap (env.sparing node b ids v)
  have mine : s.deeds i = v.deeds (s.scene r) := (has.deeds_suspended work far).trans did
  have theirs : (s.swap i (env.sparing node b ids v)).deeds i = v.deeds (s.scene r) :=
    (swapped.deeds_suspended rfl far').trans did'
  refine .works v' ?_ ⟨⟨{ t with work := .pulse (env.running node b ids v') }, ?_, rfl, rfl⟩,
    (s.changed_move _).environments _ _ environment⟩ ?_ ?_
  · have progress := left.perform (s.scene r)
    rw [worked] at progress
    rw [deedsOf, has.turn]
    dsimp only
    rw [History.of_map_self, mine]
    exact progress
  · rw [has.move work, (s.advancePulse_spec i t r _).1, Environment.running, far, List.getElem?_modify_eq, has.task]
    rfl
  · rw [happenings_turn has.turn has.task, happenings_turn swapped.turn swapped.task, mine, theirs]
  · rw [has.move work, swapped.move rfl]
    exact advancePulse_suspended rfl worked

theorem HasTurn.failed {f : Fault} (worked : v.perform (s.scene r) = (x, .ended (.error f))) :
    s.Fares (s.swap i (env.sparing node b ids v)) i t.run env node b ids v ds (.cue .step) := by
  have fails := left.perform (s.scene r)
  rw [worked] at fails
  -- what is observed up to the failure, and by what follows on it
  obtain ⟨seen, observed, _⟩ := v.unaware_perform.observes (s.scene r)
  rw [worked] at observed
  obtain ⟨later, ended, unaware⟩ := ((env.forgiven node b (.failed f)).unaware_perform false).observes x
  have reported := x.report_eq node f
  have same : (env.stage node b (.failed f)).perform false x = watched ((env.forgiven node b (.failed f)).perform false x)
      (s.outside.watch.notes (seen ++ node.complaint f ++ later)) := by
    rw [env.perform_stage_failed, reported]
    refine (unaware _).trans (congrArg _ ?_)
    rw [Watch.notes_append, Watch.notes_append]
    exact congrArg (fun w : Watch => (w.notes (node.complaint f)).notes later) observed
  obtain ⟨⟨after, told, told'⟩, moved, kept⟩ := has.over work worked rfl same
  refine .failed f rfl ⟨t, r, x, has, worked⟩ _ ((env.forgiven node b (.failed f)).deeds false x ++ after) seen later
    fails ?_ ?_ ?_ moved
  · have blind : (env.forgiven node b (.failed f)).deeds false (x.report node f) =
        (env.forgiven node b (.failed f)).deeds false x := by
      rw [reported]
      exact (env.forgiven node b (.failed f)).blind_deeds false x _
    have did : (env.stage node b (.ofExcept (.error f))).deeds false x = _ := env.deeds_stage_failed node b f x
    rw [told, did, blind, List.append_assoc, List.append_assoc, List.append_assoc]
  · rw [told', List.append_assoc]
    rfl
  · rw [Watch.notes_append]
    exact (kept.trans ended).trans (congrArg (Watch.notes · later) observed)

end

theorem turn_cancelled (turn : s.running = some i) (task : s.tasks[i]? = some t) (given : t.cancelled = true) :
    s.happenings (.cue .step) = [] ∧ s.move (.cue .step) = s.conclude i t.counted .dropped := by
  constructor
  · simp [happenings_turn turn task, deeds, task, given, Chronicle.deeds]
  · refine (step_running turn).trans ?_
    simp [advance, task, given]

theorem fares_cancelled (turn : s.running = some i) (task : s.tasks[i]? = some t) (given : t.cancelled = true) :
    s.Fares (s.swap i (env.sparing node b ids v)) i k env node b ids v ds (.cue .step) := by
  obtain ⟨quiet, moved⟩ := turn_cancelled turn task given
  obtain ⟨quiet', moved'⟩ := turn_cancelled (s := s.swap i (env.sparing node b ids v)) turn (task_swap_self task) given
  exact .cancelled t task given (quiet'.trans quiet.symm) (by rw [moved, moved', conclude_swap_self])

/-- What a move comes to while a task runs a node. -/
theorem Runs.move (runs : s.Runs i k env node b ids v) (left : v.LeftOf (env.begun node b) ds) (m : Move) :
    s.Fares (s.swap i (env.sparing node b ids v)) i k env node b ids v ds m := by
  by_cases own : m = .cue .step ∧ s.running = some i
  · obtain ⟨rfl, turn⟩ := own
    obtain ⟨t, task, rfl, work⟩ := runs.task
    obtain ⟨r, run, rfl⟩ := Option.map_eq_some_iff.mp runs.environment
    cases given : t.cancelled with
    | true => exact fares_cancelled turn task given
    | false =>
      have has : s.HasTurn i t r := ⟨turn, task, given, run⟩
      rcases worked : v.perform (s.scene r) with ⟨x, ⟨f | outputs⟩ | v'⟩
      · exact has.failed work left worked
      · exact has.ended work worked
      · exact has.suspended work left runs.environment worked
  · exact runs.elsewhere left fun steps turn => own ⟨steps, turn⟩

end Session

end ActionGraph
