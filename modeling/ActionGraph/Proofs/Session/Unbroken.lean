import ActionGraph.Proofs.Session.Flight
import ActionGraph.Proofs.Session.Record
import Mathlib.Data.List.Basic
import Mathlib.Data.List.Induction

/-!
On a host that does not defer its calls, a task that asks for something prompt goes on at once:
nothing else happens between that and what the task does next.
-/

namespace ActionGraph

section

variable {α : Type}

theorem Action.slow_last {a : Action α} {due : Bool} {s : Scene} (prompt : s.outside.staging.deferred = false)
    {t : Thread α} (suspended : (a.perform due s).2 = .suspended t) :
    ∃ r x, (a.deeds due s).getLast? = some (.asked r x) ∧ ¬ r.Prompt := by
  induction a generalizing due s with
  | done x => cases suspended
  | failed e => cases suspended
  | ask r next ih =>
    have kept := congrArg Prod.fst (s.premises_meet due r)
    rw [perform] at suspended
    rw [deeds]
    rcases met : s.meet due r with ⟨s', x | x | _ | ⟨gate, answer⟩⟩
    · rw [met] at suspended kept
      obtain ⟨r', y, last, slow⟩ := ih x ((congrArg Staging.deferred kept).trans prompt) suspended
      refine ⟨r', y, ?_, slow⟩
      simp [List.getLast?_cons, last]
    · refine ⟨r, some x, rfl, fun now => ?_⟩
      obtain ⟨s₁, y, answered⟩ := s.meet_prompt prompt due now
      cases met.symm.trans answered
    · -- Nothing is put off on this host.
      exfalso
      by_cases now : r.Prompt
      · obtain ⟨s₁, y, answered⟩ := s.meet_prompt prompt due now
        cases met.symm.trans answered
      · cases r with
        | animate handle keyframes duration => exact s.animate_not_again met
        | pause => cases met
        | _ => exact now trivial
    · exact ⟨r, none, rfl, Scene.slow_of_gate met⟩

theorem Thread.slow_last {t : Thread α} {s : Scene} (prompt : s.outside.staging.deferred = false)
    {t' : Thread α} (suspended : (t.perform s).2 = .suspended t') (acts : t.deeds s ≠ []) :
    ∃ r x, (t.deeds s).getLast? = some (.asked r x) ∧ ¬ r.Prompt := by
  cases t with
  | ready a => exact Action.slow_last prompt suspended
  | due a => exact Action.slow_last prompt suspended
  | waiting gate next => exact absurd rfl acts

end

namespace Session

variable {s : Session} {h : Chronicle} {i : Nat} {t : Task}

theorem spent_of_deeds (task : s.tasks[i]? = some t) (acts : s.deeds i ≠ []) : t.work.spent = false := by
  cases s.goes i task with
  | rests done _ _ _ => exact absurd done acts
  | pulses _ work _ _ _ _ => rw [work, Work.spent]
  | looks _ work _ _ _ _ => rw [work, Work.spent]

theorem slow_turn (prompt : s.outside.staging.deferred = false) (task : s.tasks[i]? = some t)
    (unspent : (t.after s).spent = false) {r : Request} {x : Option r.Answer}
    (last : (s.deeds i).getLast? = some (.asked r x)) : ¬ r.Prompt := by
  have acts : s.deeds i ≠ [] := by
    intro none
    simp [none] at last
  cases s.goes i task with
  | rests done _ _ _ => exact absurd done acts
  | @looks r' thread _ _ done _ _ left =>
    rw [done] at last acts
    rw [left] at unspent
    cases far : (thread.perform (s.scene r')).2 with
    | ended result => simp [far, Work.afterLookup, Work.spent] at unspent
    | suspended thread' =>
      obtain ⟨r₁, x₁, own, slow⟩ := Thread.slow_last prompt far acts
      cases own.symm.trans last
      exact slow
  | @pulses r' p _ _ done _ _ left =>
    rw [done] at last acts
    rw [left] at unspent
    cases far : (p.visit.perform (s.scene r')).2 with
    | suspended visit =>
      simp only [far, Pulse.arrival, List.append_nil] at last acts
      obtain ⟨r₁, x₁, own, slow⟩ := Thread.slow_last prompt far acts
      cases own.symm.trans last
      exact slow
    | ended result =>
      cases result with
      | error f => simp [far, Pulse.after, Work.spent] at unspent
      | ok ids =>
        cases stack : ids ++ p.pending with
        | nil => simp [far, Pulse.after, stack, Pulse.next?, Work.spent] at unspent
        | cons id rest => simp [far, Pulse.arrival, stack] at last

/-- After something prompt a task has not stopped, and what it does next comes right after. -/
structure Unbroken (s : Session) (h : Chronicle) : Prop where
  pausing : ∀ (i : Nat) (t : Task), s.tasks[i]? = some t → t.work.spent = false →
    ∀ r x, (h.history.of i).getLast? = some (.asked r x) → ¬ r.Prompt
  joined : ∀ (before after : Chronicle) k i d, h = before ++ (k, .did i d) :: after →
    ∀ r x, (before.history.of i).getLast? = some (.asked r x) → r.Prompt → before.getLast? = some (k, .did i (.asked r x))

theorem Unbroken.turned (prompt : s.outside.staging.deferred = false) (unbroken : s.Unbroken h)
    (task : s.tasks[i]? = some t) : (s.advance i).Unbroken (h ++ Chronicle.deeds t.run i (s.deeds i)) := by
  refine ⟨fun j t' task' unspent r x last => ?_, fun before after k j d split r x last now => ?_⟩
  · rcases task_turned task' with ⟨other, there⟩ | ⟨rfl, t₀, there, rfl⟩
    · rw [Chronicle.of_turn_other h other] at last
      exact unbroken.pausing j t' there unspent r x last
    · rw [Chronicle.of_turn_self] at last
      cases acts : s.deeds i with
      | nil =>
        rw [acts, List.append_nil] at last
        have under : t₀.work.spent = false := by
          cases spent : t₀.work.spent with
          | false => rfl
          | true => rw [t₀.spent_after s spent] at unspent; cases unspent
        exact unbroken.pausing i t₀ there under r x last
      | cons d ds =>
        rw [List.getLast?_append_of_ne_nil _ (by simp [acts])] at last
        exact slow_turn prompt there unspent last
  · rcases Chronicle.split_turn split with ⟨rest, eq⟩ | ⟨rfl, rfl, earlier, later, eq, rfl⟩
    · exact unbroken.joined before rest k j d eq r x last now
    · rw [Chronicle.of_turn_self] at last
      cases earlier with
      | nil =>
        rw [List.append_nil] at last
        have under := spent_of_deeds task (by simp [eq])
        exact absurd now (unbroken.pausing _ t task under r x last)
      | cons d₀ earlier =>
        rw [List.getLast?_append_of_ne_nil _ (by simp)] at last
        rw [List.getLast?_append_of_ne_nil _ (by simp [Chronicle.deeds]), Chronicle.deeds, List.getLast?_map, last]
        rfl

/-- Prompt deeds of a task, with what it does right after them, follow on each other. -/
theorem Unbroken.segment (unbroken : s.Unbroken h) {before after : Chronicle} {k : Nat} {d : Deed}
    (split : h = before ++ (k, .did i d) :: after) {earlier ds : List Deed}
    (own : before.history.of i = earlier ++ ds) (now : ∀ d ∈ ds, ∃ r x, d = .asked r x ∧ r.Prompt) :
    ∃ b, before = b ++ Chronicle.deeds k i ds ∧ b.history.of i = earlier := by
  induction ds using List.reverseRecOn generalizing before after d with
  | nil => exact ⟨before, by simp [Chronicle.deeds], by simpa using own⟩
  | append_singleton ds last ih =>
    obtain ⟨r, x, rfl, prompt⟩ := now last (by simp)
    have ends : (before.history.of i).getLast? = some (.asked r x) := by simp [own]
    have joined := unbroken.joined before after k i d split r x ends prompt
    obtain ⟨before', rfl⟩ := List.getLast?_eq_some_iff.mp joined
    have own' : History.of (Chronicle.history before') i = earlier ++ ds := by
      have cut := own
      simp only [Chronicle.history_append, History.of_append] at cut
      have single : (Chronicle.history [(k, .did i (.asked r x))]).of i = [.asked r x] := by
        simp [Chronicle.history, Happening.deed?, History.of]
      rw [single, ← List.append_assoc] at cut
      exact List.append_cancel_right cut
    have split' : h = before' ++ (k, .did i (.asked r x)) :: ((k, .did i d) :: after) := by simp [split]
    obtain ⟨b, eq, rest⟩ := ih split' own' fun d listed => now d (List.mem_append_left _ listed)
    exact ⟨b, by simp [eq, Chronicle.deeds], rest⟩

end Session

end ActionGraph
