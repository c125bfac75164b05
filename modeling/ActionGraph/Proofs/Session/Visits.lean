import ActionGraph.Proofs.Action.Throughout
import ActionGraph.Proofs.Session.Evolution

/-!
What holds throughout every visit holds throughout what is left of the visits of all pulses, in
every state that a session can come to.
-/

namespace ActionGraph

abbrev Conduct := (r : Request) → (r.Answer → Action (List String)) → Prop

def Work.Visits (Q : Conduct) : Work → Prop
  | .pulse p => p.visit.Throughout Q fun _ => True
  | .lookup _ => False
  | .ended _ => True
  | .dropped => True

theorem Work.Visits.settle {Q : Conduct} {w : Work} (h : w.Visits Q) (result : Except Fault Unit) :
    (w.settle result).Visits Q := by
  cases w with
  | pulse p => exact Thread.throughout_settle h result
  | lookup t => exact h
  | ended result => exact h
  | dropped => exact h

/-- In the environments in which it is asked for, every visit conducts itself so. -/
structure Conducted (B : Environment → Prop) (Q : Environment → Conduct) : Prop where
  leave : ∀ env origin, B env → (env.leave origin).Throughout (Q env) fun _ => True
  visit : ∀ env id, B env → (env.visit id).Throughout (Q env) fun _ => True

namespace Session

variable {B : Environment → Prop} {Q : Environment → Conduct} {s : Session}

/-- Every task belongs to a run, and if it is asked for there, what is left of its visit conducts
itself so. -/
def Visits (B : Environment → Prop) (Q : Environment → Conduct) (s : Session) : Prop :=
  ∀ (i : Nat) (t : Task), s.tasks[i]? = some t →
    ∃ env, s.environment? t.run = some env ∧ (B env → t.work.Visits (Q env))

theorem visits_after (conducted : Conducted B Q) {t : Task} {env : Environment} (asked : B env)
    (environment : s.environment? t.run = some env) (h : t.work.Visits (Q env)) : (t.after s).Visits (Q env) := by
  obtain ⟨r, run, rfl⟩ := Option.map_eq_some_iff.mp environment
  unfold Task.after
  split
  · exact trivial
  · rw [run]
    cases work : t.work with
    | pulse p =>
      rw [work] at h
      have progress := Thread.throughout_perform h (s.scene r)
      dsimp only
      generalize (p.visit.perform (s.scene r)).2 = far at progress
      cases far with
      | suspended visit => exact progress
      | ended result =>
        cases result with
        | error f => exact trivial
        | ok ids =>
          dsimp only [Pulse.after]
          cases ids ++ p.pending with
          | nil => exact trivial
          | cons id ids => exact conducted.visit _ id asked
    | lookup thread =>
      rw [work] at h
      exact h.elim
    | ended result => exact trivial
    | dropped => exact trivial

theorem Visits.move (conducted : Conducted B Q) (h : s.Visits B Q) (m : Move) : (s.move m).Visits B Q := by
  have changed := s.changed_move m
  intro i t' task'
  cases task : s.tasks[i]? with
  | none =>
    -- A new task is a pulse of which everything is left.
    obtain ⟨env, origin, environment, eq⟩ := changed.begun i t' task' task
    rw [eq]
    exact ⟨env, changed.environments _ _ environment, fun asked => conducted.leave env origin asked⟩
  | some t =>
    obtain ⟨env, environment, visits⟩ := h i t task
    obtain ⟨next, found, evolves⟩ := changed.evolved i t task
    obtain rfl : next = t' := Option.some.inj (found.symm.trans task')
    refine ⟨env, evolves.run_eq ▸ changed.environments _ _ environment, fun asked => ?_⟩
    generalize (s.deedsOf m).of i = ds at evolves
    cases evolves with
    | stays _ work => exact work ▸ visits asked
    | settles result => exact (visits asked).settle result
    | advances => exact visits_after conducted asked environment (visits asked)

theorem visits_follow (conducted : Conducted B Q) (o : Outside) (moves : List Move) :
    ((empty o).follow moves).Visits B Q :=
  follow_keeps (fun _ m h => h.move conducted m) (fun _ _ task => nomatch task) moves

end Session

end ActionGraph
