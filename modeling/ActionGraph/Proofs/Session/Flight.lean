import ActionGraph.Proofs.Session.Evolution

/-!
Which tasks are in flight. The end of a task is taken note of only after the task has ended, so a
run without tasks in flight has none that is still under way.
-/

namespace ActionGraph

/-- Whether nothing is left of a task. -/
def Work.spent : Work → Bool
  | .pulse _ | .lookup _ => false
  | .ended _ | .dropped => true

/-- What it depends on whether a task is in flight. -/
def Task.standing (t : Task) : Nat × Bool × Bool := (t.run, t.counted, t.work.spent)

theorem Work.spent_settle (w : Work) (result : Except Fault Unit) : (w.settle result).spent = w.spent := by
  cases w <;> rfl

theorem Task.spent_after {t : Task} (s : Session) (spent : t.work.spent = true) : (t.after s).spent = true := by
  unfold after
  split
  · rfl
  · split
    · rename_i work
      rw [work] at spent
      cases spent
    · rename_i work
      rw [work] at spent
      cases spent
    · exact spent

namespace Session

/-- A task under way is in flight, and only ends are taken note of. -/
structure Accounted (s : Session) : Prop where
  inFlight : ∀ i run, (s.tasks.map Task.standing)[i]? = some (run, true, false) →
    ∃ ids : List Nat, (s.runs.map GraphRun.inFlight)[run]? = some ids ∧ i ∈ ids
  complete : ∀ i, .complete i ∈ s.queue →
    ∃ run counted, (s.tasks.map Task.standing)[i]? = some (run, counted, true)

variable {s s' : Session}

theorem Accounted.of_same (h : s.Accounted) (tasks : s'.tasks.map Task.standing = s.tasks.map Task.standing)
    (runs : s'.runs.map GraphRun.inFlight = s.runs.map GraphRun.inFlight)
    (queue : ∀ i, .complete i ∈ s'.queue → .complete i ∈ s.queue) : s'.Accounted :=
  ⟨by rw [tasks, runs]; exact h.inFlight, fun i queued => by rw [tasks]; exact h.complete i (queue i queued)⟩

theorem inFlight_advance (i : Nat) : (s.advance i).runs.map GraphRun.inFlight = s.runs.map GraphRun.inFlight :=
  runs_advance (fun _ _ => rfl) i

theorem queue_conclude {i j : Nat} {counted : Bool} {w : Work}
    (queued : .complete j ∈ (s.conclude i counted w).queue) : .complete j ∈ s.queue ∨ j = i := by
  cases counted with
  | false => exact .inl queued
  | true =>
    rcases List.mem_append.mp queued with queued | last
    · exact .inl queued
    · cases List.mem_singleton.mp last
      exact .inr rfl

theorem queue_suspend {i j : Nat} {w : Work} (queued : .complete j ∈ (s.suspend i w).queue) :
    .complete j ∈ s.queue := by
  unfold suspend at queued
  split at queued
  · exact queued
  · rcases List.mem_append.mp queued with queued | last
    · exact queued
    · cases List.mem_singleton.mp last

theorem queue_advancePulse {i j : Nat} {t : Task} {r : GraphRun} {p : Pulse}
    (queued : .complete j ∈ (s.advancePulse i t r p).queue) : .complete j ∈ s.queue ∨
      j = i ∧ (p.after r.environment (p.visit.perform (s.scene r)).2).spent = true := by
  unfold advancePulse at queued
  cases performed : p.visit.perform (s.scene r) with
  | mk scene far =>
    rw [performed] at queued
    dsimp only at queued
    cases far with
    | suspended visit => exact .inl (queue_suspend (s := s.adopt t.run scene) queued)
    | ended result =>
      cases result with
      | error f => exact (queue_conclude queued).imp_right fun same => ⟨same, rfl⟩
      | ok ids =>
        dsimp only [Pulse.after] at queued ⊢
        cases next : Pulse.next? r.environment (ids ++ p.pending) with
        | some p =>
          rw [next] at queued
          exact .inl queued
        | none =>
          rw [next] at queued
          exact (queue_conclude queued).imp_right fun same => ⟨same, rfl⟩

theorem queue_advanceLookup {i j : Nat} {t : Task} {r : GraphRun} {thread : Thread Value}
    (queued : .complete j ∈ (s.advanceLookup i t r thread).queue) : .complete j ∈ s.queue ∨
      j = i ∧ (Work.afterLookup (thread.perform (s.scene r)).2).spent = true := by
  unfold advanceLookup at queued
  cases performed : thread.perform (s.scene r) with
  | mk scene far =>
    rw [performed] at queued
    dsimp only at queued
    cases far with
    | suspended thread => exact .inl (queue_suspend (s := s.adopt t.run scene) queued)
    | ended result => exact (queue_conclude queued).imp_right fun same => ⟨same, rfl⟩

theorem queue_advance {i j : Nat} (queued : .complete j ∈ (s.advance i).queue) :
    .complete j ∈ s.queue ∨ j = i ∧ ∃ t, s.tasks[i]? = some t ∧ (t.after s).spent = true := by
  unfold advance at queued
  cases task : s.tasks[i]? with
  | none =>
    rw [task] at queued
    exact .inl queued
  | some t =>
    rw [task] at queued
    dsimp only at queued
    unfold Task.after
    split at queued
    · rename_i cancelled
      exact (queue_conclude queued).imp_right fun same => ⟨same, t, rfl, by rw [if_pos cancelled]; rfl⟩
    · rename_i active
      split at queued
      · rename_i r p run work
        refine (queue_advancePulse queued).imp_right fun spent => ⟨spent.1, t, rfl, ?_⟩
        rw [if_neg active, run, work]
        exact spent.2
      · rename_i r thread run work
        refine (queue_advanceLookup queued).imp_right fun spent => ⟨spent.1, t, rfl, ?_⟩
        rw [if_neg active, run, work]
        exact spent.2
      · exact .inl queued

/-- A turn changes the standing of its own task only, and of that only whether it is spent. -/
theorem standing_advance (i j : Nat) :
    ((s.advance i).tasks.map Task.standing)[j]? = (s.tasks.map Task.standing)[j]? ∨
      j = i ∧ ∃ t, s.tasks[i]? = some t ∧
        ((s.advance i).tasks.map Task.standing)[j]? = some (t.run, t.counted, (t.after s).spent) := by
  rw [tasks_advance, List.getElem?_map, List.getElem?_map]
  by_cases own : i = j
  · subst own
    rw [List.getElem?_modify_eq]
    cases s.tasks[i]? with
    | none => exact .inl rfl
    | some t => exact .inr ⟨rfl, t, rfl, rfl⟩
  · rw [List.getElem?_modify_ne _ _ own]
    exact .inl rfl

theorem Accounted.advance (h : s.Accounted) (i : Nat) : (s.advance i).Accounted := by
  refine ⟨fun j run standing => ?_, fun j queued => ?_⟩
  · rw [inFlight_advance]
    rcases standing_advance (s := s) i j with same | ⟨rfl, t, task, now⟩
    · exact h.inFlight j run (same ▸ standing)
    · rw [now] at standing
      obtain ⟨rfl, counted, going⟩ : t.run = run ∧ t.counted = true ∧ (t.after s).spent = false := by
        simpa using standing
      -- What is spent stays so, hence this task was under way before as well.
      have before : t.work.spent = false := by
        cases spent : t.work.spent with
        | false => rfl
        | true => rw [t.spent_after s spent] at going; cases going
      refine h.inFlight j t.run ?_
      rw [List.getElem?_map, task]
      simp [Task.standing, counted, before]
  · rcases queue_advance queued with queued | ⟨rfl, t, task, spent⟩
    · obtain ⟨run, counted, standing⟩ := h.complete j queued
      rcases standing_advance (s := s) i j with same | ⟨rfl, t, task, now⟩
      · exact ⟨run, counted, same ▸ standing⟩
      · rw [List.getElem?_map, task] at standing
        have spent : t.work.spent = true := by simp_all [Task.standing]
        exact ⟨t.run, t.counted, by rw [now, t.spent_after s spent]⟩
    · refine ⟨t.run, t.counted, ?_⟩
      rw [tasks_advance, List.getElem?_map, List.getElem?_modify_eq, task]
      simp [Task.standing, spent]

theorem Accounted.completed (h : s.Accounted) {i : Nat}
    (spent : ∃ run counted, (s.tasks.map Task.standing)[i]? = some (run, counted, true)) :
    (s.complete i).Accounted := by
  have queue : (s.complete i).queue = s.queue := by
    unfold Session.complete
    split
    · rfl
    · dsimp only
      split <;> rfl
  have runs : ∀ (run : Nat) (ids : List Nat), (s.runs.map GraphRun.inFlight)[run]? = some ids →
      ∃ ids', ((s.complete i).runs.map GraphRun.inFlight)[run]? = some ids' ∧ ∀ j ∈ ids, j ≠ i → j ∈ ids' := by
    intro run ids found
    unfold Session.complete
    split
    · exact ⟨ids, found, fun _ there _ => there⟩
    · rename_i t _
      have erased : ∃ ids', ((s.runs.modify t.run fun r => { r with inFlight := r.inFlight.erase i }).map
          GraphRun.inFlight)[run]? = some ids' ∧ ∀ j ∈ ids, j ≠ i → j ∈ ids' := by
        rw [List.getElem?_map] at found ⊢
        obtain ⟨r, there, rfl⟩ := Option.map_eq_some_iff.mp found
        by_cases own : t.run = run
        · subst own
          refine ⟨r.inFlight.erase i, by rw [List.getElem?_modify_eq, there]; rfl, fun j listed other => ?_⟩
          exact (List.mem_erase_of_ne other).mpr listed
        · exact ⟨r.inFlight, by rw [List.getElem?_modify_ne _ _ own, there]; rfl, fun _ listed _ => listed⟩
      dsimp only
      split <;> exact erased
  refine ⟨fun j run standing => ?_, fun j queued => ?_⟩
  · rw [tasks_complete] at standing
    obtain ⟨ids, found, listed⟩ := h.inFlight j run standing
    obtain ⟨ids', found', still⟩ := runs run ids found
    refine ⟨ids', found', still j listed ?_⟩
    rintro rfl
    obtain ⟨_, _, ended⟩ := spent
    rw [standing] at ended
    cases ended
  · rw [tasks_complete]
    exact h.complete j (queue ▸ queued)

theorem Accounted.step (h : s.Accounted) : (s.step?.getD s).Accounted := by
  refine step_keeps s h (fun i _ => h.advance i) (fun i rest _ queued => ?_) fun i rest _ queued => ?_
  · exact h.of_same rfl rfl fun j listed => queued ▸ List.mem_cons_of_mem _ listed
  · have taken : ({ s with queue := rest } : Session).Accounted :=
      h.of_same rfl rfl fun j listed => queued ▸ List.mem_cons_of_mem _ listed
    exact taken.completed (h.complete i (queued ▸ List.mem_cons_self))

theorem mem_enqueue_resume {i j : Nat} (queued : Turn.complete j ∈ s.queue ++ [.resume i]) :
    .complete j ∈ s.queue := by
  rcases List.mem_append.mp queued with queued | last
  · exact queued
  · cases List.mem_singleton.mp last

theorem inFlight_begun (r : GraphRun) (l : Listener) (e : Snapshot) (k : Nat) :
    ((s.beginPulse r l e).runs.map GraphRun.inFlight)[k]? =
      ((s.runs.map GraphRun.inFlight)[k]?).map fun ids => if l.run = k then ids ++ [s.tasks.length] else ids := by
  rw [runs_beginPulse, List.getElem?_map, List.getElem?_map, List.getElem?_modify]
  cases s.runs[k]? with
  | none => rfl
  | some r => by_cases own : l.run = k <;> simp [own]

theorem Accounted.begun (h : s.Accounted) {r : GraphRun} {l : Listener} (run : ∃ k, s.runs[l.run]? = some k)
    (e : Snapshot) : (s.beginPulse r l e).Accounted := by
  have tasks : (s.beginPulse r l e).tasks.map Task.standing =
      s.tasks.map Task.standing ++ [(l.run, true, false)] := List.map_append
  refine ⟨fun j k standing => ?_, fun j queued => ?_⟩
  · rw [inFlight_begun]
    rw [tasks] at standing
    rcases Nat.lt_or_ge j (s.tasks.map Task.standing).length with old | new
    · rw [List.getElem?_append_left old] at standing
      obtain ⟨ids, found, listed⟩ := h.inFlight j k standing
      refine ⟨_, by rw [found]; rfl, ?_⟩
      split
      · exact List.mem_append_left _ listed
      · exact listed
    · rw [List.getElem?_append_right new] at standing
      obtain ⟨r, there⟩ := run
      cases beyond : j - (s.tasks.map Task.standing).length with
      | succ k => rw [beyond] at standing; cases standing
      | zero =>
        rw [beyond] at standing
        obtain rfl : l.run = k := congrArg Prod.fst (Option.some.inj standing)
        obtain rfl : j = s.tasks.length := by
          rw [List.length_map] at new beyond
          omega
        refine ⟨_, by rw [List.getElem?_map, there]; rfl, ?_⟩
        dsimp only
        rw [if_pos rfl]
        exact List.mem_append_right _ (List.mem_singleton.mpr rfl)
  · obtain ⟨run, counted, standing⟩ := h.complete j (mem_enqueue_resume queued)
    have bound := (List.getElem?_eq_some_iff.mp standing).1
    exact ⟨run, counted, by rw [tasks]; exact (List.getElem?_append_left bound).trans standing⟩

theorem Accounted.notify (h : s.Accounted) (l : Listener) (payload : Value) : (s.notify l payload).1.Accounted := by
  have result := notified s l payload
  generalize s.notify l payload = x at result
  cases result with
  | unarmed _ => exact h
  | refused _ _ _ => exact h.of_same rfl rfl fun _ listed => listed
  | @begun r e run _ _ =>
    have noted : (s.snapshot l.eventClass payload).1.Accounted := h.of_same rfl rfl fun _ listed => listed
    exact noted.begun ⟨r, run⟩ e

theorem Accounted.notifyAll (h : s.Accounted) (payload : Value) (ls : List Listener) :
    (s.notifyAll payload ls).1.Accounted :=
  notifyAll_keeps (P := Accounted) payload (fun _ l _ h => h.notify l payload) h

theorem Accounted.call (h : s.Accounted) (run place : Nat) (payload : Value) :
    (s.call run place payload).Accounted := by
  unfold Session.call
  split
  · exact h.notify _ payload
  · exact h

theorem Accounted.settle (h : s.Accounted) (gate : Nat) (result : Except Fault Unit) :
    (s.settle gate result).1.Accounted := by
  unfold Session.settle
  split
  · exact h
  · refine h.of_same ?_ rfl fun _ queued => mem_enqueue_resume queued
    exact map_modify_same fun t => by rw [Task.standing, Task.standing, Work.spent_settle]

theorem Accounted.stop (h : s.Accounted) (run : Nat) : (s.stop run).Accounted :=
  stop_keeps (P := Accounted) h run fun _ => h.of_same rfl (map_modify_same fun _ => rfl) fun _ queued => queued

theorem Accounted.start (h : s.Accounted) (env : Environment) : (s.start env).1.Accounted := by
  obtain ⟨r, runs, _⟩ := runs_start (s := s) env
  have queue : (s.start env).1.queue = s.queue := by
    unfold Session.start
    dsimp only
    split <;> rfl
  refine ⟨fun i k standing => ?_, fun i queued => ?_⟩
  · rw [tasks_start] at standing
    obtain ⟨ids, found, listed⟩ := h.inFlight i k standing
    rw [runs, List.map_append]
    exact ⟨ids, (List.getElem?_append_left (List.getElem?_eq_some_iff.mp found).1).trans found, listed⟩
  · rw [tasks_start]
    exact h.complete i (queue ▸ queued)

theorem Accounted.cancel (h : s.Accounted) (run : Nat) : (s.cancel run).Accounted := by
  refine cancel_keeps (P := Accounted) (fun s i h => ?_) h run
  unfold cancelTask
  split
  · exact h
  · have marked : ({ s with tasks := s.tasks.modify i fun t => { t with cancelled := true } } : Session).Accounted :=
      h.of_same (map_modify_same fun _ => rfl) rfl fun _ queued => queued
    dsimp only
    split
    · exact marked.of_same rfl rfl fun _ queued => mem_enqueue_resume queued
    · exact marked

theorem Accounted.prefer (h : s.Accounted) (place : Nat) : (s.prefer place).Accounted := by
  unfold Session.prefer
  split
  · rename_i turn found
    refine h.of_same rfl rfl fun i queued => ?_
    rcases List.mem_cons.mp queued with rfl | queued
    · exact List.mem_of_getElem? found
    · exact List.mem_of_mem_eraseIdx queued
  · exact h

theorem Accounted.undergo (h : s.Accounted) (m : Move) : (s.undergo m).Accounted := by
  cases m with
  | cue c =>
    cases c with
    | step => exact h
    | prefer place => exact h.prefer place
    | addTarget selector => exact h.of_same rfl rfl fun _ queued => queued
    | happen channel x y => exact h.notifyAll _ _
    | call run place payload => exact h.call run place payload
    | settle gate result => exact h.settle gate result
    | stop run => exact h.stop run
  | start env => exact h.start env
  | cancel run => exact h.cancel run

/-- In every state that a session can come to, tasks under way are in flight. -/
theorem accounted_follow (o : Outside) (moves : List Move) : ((empty o).follow moves).Accounted := by
  have start : (empty o).Accounted := by
    refine ⟨fun i run standing => ?_, fun i queued => ?_⟩
    · cases standing
    · cases queued
  exact follow_keeps (fun _ m h => move_keeps h h.step m (h.undergo m)) start moves

end Session

end ActionGraph
