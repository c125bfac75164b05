import ActionGraph.Proofs.Demonstration.Environment
import ActionGraph.Proofs.Pulse.Visit
import ActionGraph.Proofs.Session.Evolution
import ActionGraph.Rehearsal

/-!
Every pulse runs its nodes depth first, one at a time, however the turns of tasks follow each other
and whatever nodes do. The invariant of a pulse under way: the nodes it has come to, followed by
the unfolding of what is left on its stack, are the unfolding of where it began.
-/

namespace ActionGraph

namespace Environment

/-- The nodes among the deeds of a task that it came to and runs. -/
def dispatches (env : Environment) (ds : List Deed) : List String :=
  ds.filterMap fun
    | .arrived id => if (env.exit? id).isSome then some id else none
    | .asked .. => none

variable {env : Environment}

@[simp] theorem dispatches_append (ds more : List Deed) :
    env.dispatches (ds ++ more) = env.dispatches ds ++ env.dispatches more :=
  List.filterMap_append

theorem dispatches_action {α : Type} (a : Action α) (due : Bool) (s : Scene) :
    env.dispatches (a.deeds due s) = [] := by
  induction a generalizing due s with
  | done x => rfl
  | failed f => rfl
  | ask r next ih =>
    rw [Action.deeds]
    split
    · exact ih _ _ _
    · rfl
    · rfl
    · rfl

theorem dispatches_thread {α : Type} (t : Thread α) (s : Scene) : env.dispatches (t.deeds s) = [] := by
  cases t with
  | ready a => exact dispatches_action _ _ _
  | due a => exact dispatches_action _ _ _
  | waiting gate next => rfl

end Environment

/-- What is left to run of a task that has run `done` of `nodes`. -/
def Work.Walks (env : Environment) (nodes done : List String) : Work → Prop
  | .pulse p => ∃ ids rest, p.visit.Throughout (fun _ _ => True) (env.Onward ids) ∧
      env.Unfolding (ids ++ p.pending) rest ∧ nodes = done ++ rest
  | .lookup _ => False
  | .ended (.ok _) => nodes = done
  | .ended (.error f) => done <+: nodes ∧ env.Unclear f
  | .dropped => done <+: nodes

namespace Work.Walks

variable {env : Environment} {nodes done : List String}

theorem isPrefix {w : Work} (h : w.Walks env nodes done) : done <+: nodes := by
  cases w with
  | pulse p =>
    obtain ⟨_, rest, _, _, eq⟩ := h
    exact ⟨rest, eq.symm⟩
  | lookup t => exact h.elim
  | ended result =>
    cases result with
    | ok v => exact ⟨[], by rw [List.append_nil, show nodes = done from h]⟩
    | error f => exact h.1
  | dropped => exact h

theorem leaving {origin : Endpoint} (finite : env.Unfolding (env.targets origin) nodes) :
    (Work.pulse (.leaving env origin)).Walks env nodes [] :=
  ⟨env.targets origin, nodes, env.ends_leave origin, by rwa [Pulse.leaving, List.append_nil], rfl⟩

theorem settle {w : Work} (h : w.Walks env nodes done) (result : Except Fault Unit) :
    (w.settle result).Walks env nodes done := by
  cases w with
  | pulse p =>
    obtain ⟨ids, rest, visit, unfolding, eq⟩ := h
    exact ⟨ids, rest, Thread.throughout_settle visit result, unfolding, eq⟩
  | lookup t => exact h
  | ended result => exact h
  | dropped => exact h

theorem goOn {ids rest : List String} (unfolding : env.Unfolding ids rest) (eq : nodes = done ++ rest) :
    Walks env nodes (done ++ env.dispatches (ids.head?.toList.map .arrived))
      (match Pulse.next? env ids with
        | some p => .pulse p
        | none => .ended (.ok .null)) := by
  cases unfolding with
  | nil =>
    rw [List.append_nil] at eq
    exact eq.trans (List.append_nil _).symm
  | skip none unfolding =>
    refine ⟨[], rest, Environment.ends_visit_skip none, unfolding, ?_⟩
    simp [Environment.dispatches, none, eq]
  | emit some below beyond =>
    -- What follows from the node comes before what the stack has already.
    refine ⟨_, _, Environment.ends_visit_emit some, below.append beyond, ?_⟩
    simp [Environment.dispatches, some, eq]

theorem after {p : Pulse} (h : (Work.pulse p).Walks env nodes done) (s : Scene) :
    (p.after env (p.visit.perform s).2).Walks env nodes
      (done ++ env.dispatches (p.visit.deeds s ++ p.arrival (p.visit.perform s).2)) := by
  obtain ⟨ids, rest, visit, unfolding, eq⟩ := h
  have progress := Thread.throughout_perform visit s
  rw [Environment.dispatches_append, Environment.dispatches_thread, List.nil_append]
  cases ended : (p.visit.perform s).2 with
  | suspended visit =>
    rw [ended] at progress
    exact ⟨ids, rest, progress, unfolding, eq.trans (by simp [Pulse.arrival, Environment.dispatches])⟩
  | ended result =>
    rw [ended] at progress
    cases result with
    | error f =>
      refine ⟨⟨rest, ?_⟩, progress⟩
      simp [Pulse.arrival, Environment.dispatches, eq]
    | ok next =>
      obtain rfl : next = ids := progress
      exact goOn unfolding eq

end Work.Walks

namespace Session

/-- A task of a run in this environment has run `done` of `nodes`. -/
structure Walks (s : Session) (i : Nat) (env : Environment) (nodes done : List String) : Prop where
  task : ∃ t, s.tasks[i]? = some t ∧ s.environment? t.run = some env ∧ t.work.Walks env nodes done

variable {s : Session} {i : Nat} {env : Environment} {nodes done : List String}

theorem walks_after {t : Task} (task : s.tasks[i]? = some t) (environment : s.environment? t.run = some env)
    (h : t.work.Walks env nodes done) : (t.after s).Walks env nodes (done ++ env.dispatches (s.deeds i)) := by
  obtain ⟨r, run, rfl⟩ := Option.map_eq_some_iff.mp environment
  unfold Task.after deeds
  rw [task]
  dsimp only
  split
  · rw [show Environment.dispatches _ [] = [] from rfl, List.append_nil]
    exact h.isPrefix
  · cases work : t.work with
    | pulse p =>
      rw [work] at h
      rw [run]
      exact h.after _
    | lookup thread =>
      rw [work] at h
      exact h.elim
    | ended result =>
      rw [work] at h
      rw [run]
      exact (List.append_nil done).symm ▸ h
    | dropped =>
      rw [work] at h
      rw [run]
      exact (List.append_nil done).symm ▸ h

theorem Walks.move (h : s.Walks i env nodes done) (m : Move) :
    (s.move m).Walks i env nodes (done ++ env.dispatches ((s.deedsOf m).of i)) := by
  obtain ⟨t, task, environment, walks⟩ := h.task
  have changed := s.changed_move m
  obtain ⟨t', task', evolves⟩ := changed.evolved i t task
  refine ⟨t', task', evolves.run_eq ▸ changed.environments _ _ environment, ?_⟩
  generalize (s.deedsOf m).of i = ds at evolves
  cases evolves with
  | stays _ work =>
    rw [work]
    exact (List.append_nil done).symm ▸ walks
  | settles result => exact (List.append_nil done).symm ▸ walks.settle result
  | advances => exact walks_after task environment walks

theorem Walks.follow (h : s.Walks i env nodes done) (moves : List Move) :
    (s.follow moves).Walks i env nodes (done ++ env.dispatches ((s.history moves).of i)) := by
  induction moves generalizing s done with
  | nil => exact (List.append_nil done).symm ▸ h
  | cons m moves ih =>
    rw [history, History.of_append, Environment.dispatches_append, ← List.append_assoc]
    exact ih (h.move m)

end Session

namespace Demonstration

/-- The demonstration right after its trigger was called for the first time. -/
def hovered : Session :=
  let env := Rehearsal.environment (graph none)
  (((Rehearsal.session env ⟨[], 0, 0, .int 1, .steady (.int 0), 0⟩).start env).1).call 0 0 .null

end Demonstration

end ActionGraph
