import ActionGraph.Proofs.Session.Flight

/-!
From the start of a pulse to its end. As long as a pulse can go on it has one turn, in the queue or
right now; once it has ended, that is taken note of once; and until then it is in flight.
-/

namespace ActionGraph

/-- Whether a task can go on: something is left of it, and unless it was cancelled it does not wait
for something from outside. -/
def Task.ready (t : Task) : Bool := !t.work.spent && (t.cancelled || !t.work.waits)

namespace Session

/-- How many turns a task has coming, or has. -/
def turns (s : Session) (i : Nat) : Nat := s.queue.count (.resume i) + if s.running = some i then 1 else 0

/-- The pulses of a run, in the order in which they were started. -/
def started (s : Session) (k : Nat) : List Nat :=
  (List.range s.tasks.length).filter fun i => (s.tasks[i]?).any (·.run = k)

/-- The tasks whose end is taken note of in a move. -/
def noting (s : Session) : Move → List Nat
  | .cue .step =>
    match s.running, s.queue with
    | none, .complete i :: _ => [i]
    | _, _ => []
  | _ => []

/-- The tasks whose end was taken note of, in order. -/
def noted (s : Session) : List Move → List Nat
  | [] => []
  | m :: moves => s.noting m ++ (s.move m).noted moves

/-- Every task has one turn as long as it can go on. One that has ended has either been taken note of,
or will be; and what has been started and not taken note of is in flight. -/
structure Landing (s : Session) (noted : List Nat) : Prop where
  tasks : ∀ t ∈ s.tasks, t.counted = true ∧ t.run < s.runs.length
  turns : ∀ i, s.turns i = if (s.tasks[i]?).any Task.ready then 1 else 0
  ends : ∀ i, s.queue.count (.complete i) + noted.count i = if (s.tasks[i]?).any (·.work.spent) then 1 else 0
  inFlight : ∀ (k : Nat) (ids : List Nat), (s.runs.map GraphRun.inFlight)[k]? = some ids →
    ids = (s.started k).filter (· ∉ noted)

variable {s s' : Session} {noted : List Nat}

theorem started_of_runs (same : s'.tasks.map Task.run = s.tasks.map Task.run) (k : Nat) :
    s'.started k = s.started k := by
  have length : s'.tasks.length = s.tasks.length := by simpa using congrArg List.length same
  have item : ∀ i : Nat, (s'.tasks[i]?).any (fun t : Task => t.run = k) = (s.tasks[i]?).any fun t : Task => t.run = k := by
    intro i
    have here := congrArg (fun l : List Nat => l[i]?.any (· = k)) same
    simpa [Option.any_map, Function.comp_def] using here
  simp only [started, length, item]

theorem mem_started {k i : Nat} : i ∈ s.started k ↔ ∃ t, s.tasks[i]? = some t ∧ t.run = k := by
  simp only [started, List.mem_filter, List.mem_range, Option.any_eq_true, decide_eq_true_eq]
  constructor
  · exact And.right
  · rintro ⟨t, there, own⟩
    exact ⟨(List.getElem?_eq_some_iff.mp there).1, t, there, own⟩

theorem started_spawned {t : Task} (tasks : s'.tasks = s.tasks ++ [t]) (k : Nat) :
    s'.started k = s.started k ++ if t.run = k then [s.tasks.length] else [] := by
  have earlier : (List.range s.tasks.length).filter (fun i => ((s.tasks ++ [t])[i]?).any (·.run = k)) = s.started k := by
    refine List.filter_congr fun i bound => ?_
    rw [List.getElem?_append_left (List.mem_range.mp bound)]
  rw [started, tasks, List.length_append, List.length_singleton, List.range_succ, List.filter_append, earlier]
  by_cases own : t.run = k <;> simp [own]

theorem nodup_started (k : Nat) : (s.started k).Nodup := List.nodup_range.filter _

theorem any_spawned {t : Task} (tasks : s'.tasks = s.tasks ++ [t]) (p : Task → Bool) (j : Nat) :
    (s'.tasks[j]?).any p = if j = s.tasks.length then p t else (s.tasks[j]?).any p := by
  rw [tasks]
  rcases Nat.lt_trichotomy j s.tasks.length with old | rfl | beyond
  · rw [List.getElem?_append_left old, if_neg (by omega)]
  · simp
  · rw [List.getElem?_eq_none (by simp; omega), List.getElem?_eq_none (by omega), if_neg (by omega)]

theorem any_modified {i : Nat} {t : Task} (task : s.tasks[i]? = some t) (f : Task → Task) (p : Task → Bool) (j : Nat) :
    ((s.tasks.modify i f)[j]?).any p = if j = i then p (f t) else (s.tasks[j]?).any p := by
  by_cases own : i = j
  · subst own
    simp [task]
  · simp [own, Ne.symm own]

theorem run_modified {i : Nat} {t : Task} (task : s.tasks[i]? = some t) {f : Task → Task} (run : (f t).run = t.run) :
    (s.tasks.modify i f).map Task.run = s.tasks.map Task.run := by
  apply List.ext_getElem?
  intro j
  simp only [List.getElem?_map, List.getElem?_modify]
  by_cases own : i = j
  · subst own
    simp [task, run]
  · simp [own]

/-- How the turn ends of a task that something is left of. -/
inductive Turned (s : Session) (i : Nat) (t : Task) : Prop
  | ended : (t.after s).spent = true → (s.advance i).running = none →
      (s.advance i).queue = s.queue ++ (if t.counted then [.complete i] else []) → Turned s i t
  | onward : (t.after s).spent = false → (t.after s).waits = false → (s.advance i).running = s.running →
      (s.advance i).queue = s.queue → Turned s i t
  | suspended : (t.after s).spent = false → (s.advance i).running = none →
      (s.advance i).queue = s.queue ++ (if (t.after s).waits then [] else [.resume i]) → t.cancelled = false →
      Turned s i t

theorem queue_concluded (s : Session) (i : Nat) (counted : Bool) (w : Work) :
    (s.conclude i counted w).queue = s.queue ++ if counted then [.complete i] else [] := by
  cases counted with
  | false => exact (List.append_nil s.queue).symm
  | true => rfl

theorem queue_suspended (s : Session) (i : Nat) (w : Work) :
    (s.suspend i w).queue = s.queue ++ if w.waits then [] else [.resume i] := by
  unfold suspend
  split
  · exact (List.append_nil s.queue).symm
  · rfl

theorem turned {i : Nat} {t : Task} (task : s.tasks[i]? = some t) (left : t.work.spent = false)
    (run : t.run < s.runs.length) : s.Turned i t := by
  obtain ⟨r, run⟩ : ∃ r, s.runs[t.run]? = some r := ⟨_, List.getElem?_eq_getElem run⟩
  cases cancelled : t.cancelled with
  | true =>
    have after : t.after s = .dropped := by simp [Task.after, cancelled]
    have advanced : s.advance i = s.conclude i t.counted .dropped := by simp [advance, task, cancelled]
    exact .ended (by rw [after]; rfl) (by rw [advanced, running_conclude]) (by rw [advanced, queue_concluded])
  | false =>
    cases work : t.work with
    | ended result => simp [work, Work.spent] at left
    | dropped => simp [work, Work.spent] at left
    | lookup thread =>
      have after : t.after s = .afterLookup (thread.perform (s.scene r)).2 := by simp [Task.after, cancelled, run, work]
      have advanced : s.advance i = s.advanceLookup i t r thread := by simp [advance, task, cancelled, run, work]
      rw [advanceLookup] at advanced
      generalize thread.perform (s.scene r) = x at after advanced
      obtain ⟨scene, thread | result⟩ := x
      · exact .ended (by rw [after]; rfl) (by rw [advanced, running_conclude]) (by rw [advanced, queue_concluded]; rfl)
      · exact .suspended (by rw [after]; rfl) (by rw [advanced, running_suspend])
          (by rw [advanced, queue_suspended, after]; rfl) cancelled
    | pulse p =>
      have after : t.after s = p.after r.environment (p.visit.perform (s.scene r)).2 := by
        simp [Task.after, cancelled, run, work]
      have advanced : s.advance i = s.advancePulse i t r p := by simp [advance, task, cancelled, run, work]
      rw [advancePulse] at advanced
      generalize p.visit.perform (s.scene r) = x at after advanced
      obtain ⟨scene, result | visit⟩ := x
      · cases result with
        | error f =>
          exact .ended (by rw [after]; rfl) (by rw [advanced, running_conclude]) (by rw [advanced, queue_concluded]; rfl)
        | ok ids =>
          rw [Pulse.after] at after
          dsimp only at advanced after
          generalize ids ++ p.pending = rest at after advanced
          cases rest with
          | nil =>
            exact .ended (by rw [after]; rfl) (by rw [advanced]; exact running_conclude ..)
              (by rw [advanced]; exact queue_concluded ..)
          | cons id ids => exact .onward (by rw [after]; rfl) (by rw [after]; rfl) (by rw [advanced]; rfl) (by rw [advanced]; rfl)
      · exact .suspended (by rw [after]; rfl) (by rw [advanced, running_suspend])
          (by rw [advanced, queue_suspended, after]; rfl) cancelled

theorem Landing.of_same (h : s.Landing noted) (tasks : s'.tasks = s.tasks) (queue : s'.queue.Perm s.queue)
    (running : s'.running = s.running)
    (runs : s'.runs.map GraphRun.inFlight = s.runs.map GraphRun.inFlight) : s'.Landing noted where
  tasks := by
    have length : s'.runs.length = s.runs.length := by simpa using congrArg List.length runs
    rw [tasks, length]
    exact h.tasks
  turns i := by
    rw [Session.turns, tasks, queue.count_eq, running]
    exact h.turns i
  ends i := by
    rw [tasks, queue.count_eq]
    exact h.ends i
  inFlight k ids found := by
    rw [started_of_runs (congrArg _ tasks)]
    exact h.inFlight k ids (runs ▸ found)

theorem Landing.live (h : s.Landing noted) {i : Nat} (turn : s.running = some i) :
    ∃ t, s.tasks[i]? = some t ∧ t.work.spent = false ∧ t.counted = true ∧ t.run < s.runs.length := by
  have one := h.turns i
  rw [Session.turns, turn, if_pos rfl] at one
  cases task : s.tasks[i]? with
  | none => simp [task] at one
  | some t =>
    have ready : t.ready = true := by
      cases ready : t.ready with
      | true => rfl
      | false => simp [task, ready] at one
    obtain ⟨counted, run⟩ := h.tasks t (List.mem_of_getElem? task)
    refine ⟨t, rfl, ?_, counted, run⟩
    simp only [Task.ready, Bool.and_eq_true, Bool.not_eq_true'] at ready
    exact ready.1

theorem Landing.tasks_modified (h : s.Landing noted) {i : Nat} {t : Task} (task : s.tasks[i]? = some t) {f : Task → Task}
    (run : (f t).run = t.run) (counted : (f t).counted = t.counted) :
    ∀ k ∈ s.tasks.modify i f, k.counted = true ∧ k.run < s.runs.length := by
  intro k listed
  obtain ⟨j, there⟩ := List.mem_iff_getElem?.mp listed
  rw [List.getElem?_modify] at there
  obtain ⟨k', old, same⟩ := Option.map_eq_some_iff.mp there
  have before := h.tasks k' (List.mem_of_getElem? old)
  by_cases own : i = j
  · rw [if_pos own] at same
    cases task.symm.trans (own ▸ old)
    rw [← same, run, counted]
    exact before
  · rw [if_neg own] at same
    exact same ▸ before

/-- Whoever ends the turn has another one coming if it can go on; for all others nothing changes. -/
theorem Landing.turns_advance (h : s.Landing noted) {i : Nat} (turn : s.running = some i) (j : Nat) :
    (s.advance i).turns j = if ((s.advance i).tasks[j]?).any Task.ready then 1 else 0 := by
  obtain ⟨t, task, left, counted, run⟩ := h.live turn
  have none : s.queue.count (.resume i) = 0 := by
    have one := h.turns i
    rw [Session.turns, turn, if_pos rfl] at one
    split at one <;> omega
  have others : ∀ j, j ≠ i → s.turns j = s.queue.count (.resume j) := by
    intro j other
    simp [Session.turns, turn, Ne.symm other]
  rw [tasks_advance, any_modified task, Session.turns]
  have before := h.turns j
  cases turned task left run with
  | ended spent running queue =>
    rw [running, queue, counted]
    by_cases own : j = i
    · subst own
      simp [none, Task.ready, spent]
    · rw [others j own] at before
      simpa [own] using before
  | onward going goes running queue =>
    rw [running, queue]
    by_cases own : j = i
    · subst own
      simp [none, turn, Task.ready, going, goes]
    · rw [Session.turns] at before
      simpa [own] using before
  | suspended going running queue active =>
    rw [running, queue]
    by_cases own : j = i
    · subst own
      cases waits : (t.after s).waits <;> simp [none, Task.ready, going, active, waits]
    · rw [others j own] at before
      cases waits : (t.after s).waits <;> simpa [own, Ne.symm own, waits] using before

theorem Landing.ends_advance (h : s.Landing noted) {i : Nat} (turn : s.running = some i) (j : Nat) :
    (s.advance i).queue.count (.complete j) + noted.count j =
      if ((s.advance i).tasks[j]?).any (·.work.spent) then 1 else 0 := by
  obtain ⟨t, task, left, counted, run⟩ := h.live turn
  have unended : s.queue.count (.complete i) + noted.count i = 0 := by simpa [task, left] using h.ends i
  rw [tasks_advance, any_modified task]
  have before := h.ends j
  cases turned task left run with
  | ended spent running queue =>
    rw [queue, counted]
    by_cases own : j = i
    · subst own
      simp [spent]
      omega
    · simpa [own, Ne.symm own] using before
  | onward going goes running queue =>
    rw [queue]
    by_cases own : j = i
    · subst own
      simpa [going] using unended
    · simpa [own] using before
  | suspended going running queue active =>
    rw [queue]
    by_cases own : j = i
    · subst own
      cases waits : (t.after s).waits <;> simpa [going, waits] using unended
    · cases waits : (t.after s).waits <;> simpa [own, waits] using before

theorem Landing.advance (h : s.Landing noted) {i : Nat} (turn : s.running = some i) : (s.advance i).Landing noted := by
  obtain ⟨t, task, -⟩ := h.live turn
  have runs : (s.advance i).runs.map GraphRun.inFlight = s.runs.map GraphRun.inFlight := inFlight_advance i
  refine ⟨?_, h.turns_advance turn, h.ends_advance turn, fun k ids found => ?_⟩
  · have length : (s.advance i).runs.length = s.runs.length := by simpa using congrArg List.length runs
    rw [tasks_advance, length]
    exact h.tasks_modified task rfl rfl
  · have same : (s.advance i).tasks.map Task.run = s.tasks.map Task.run := by
      rw [tasks_advance]
      exact run_modified task rfl
    rw [started_of_runs same]
    exact h.inFlight k ids (runs ▸ found)

theorem Landing.resumed (h : s.Landing noted) {i : Nat} {rest : List Turn} (idle : s.running = none)
    (queue : s.queue = .resume i :: rest) : ({ s with queue := rest, running := some i } : Session).Landing noted where
  tasks := h.tasks
  turns j := by
    have before := h.turns j
    rw [Session.turns, idle, queue] at before
    rw [Session.turns]
    by_cases own : i = j
    · subst own
      simpa using before
    · simpa [own] using before
  ends j := by simpa [queue] using h.ends j
  inFlight := h.inFlight

theorem queue_complete (i : Nat) : (s.complete i).queue = s.queue := by
  unfold complete
  split
  · rfl
  · dsimp only
    split <;> rfl

theorem running_complete (i : Nat) : (s.complete i).running = s.running := by
  unfold complete
  split
  · rfl
  · dsimp only
    split <;> rfl

theorem inFlight_complete {i : Nat} {t : Task} (task : s.tasks[i]? = some t) (k : Nat) :
    ((s.complete i).runs.map GraphRun.inFlight)[k]? =
      ((s.runs.map GraphRun.inFlight)[k]?).map fun ids => if t.run = k then ids.erase i else ids := by
  have runs : (s.complete i).runs = s.runs.modify t.run fun r => { r with inFlight := r.inFlight.erase i } := by
    simp only [complete, task]
    split <;> rfl
  rw [runs]
  simp only [List.getElem?_map, List.getElem?_modify]
  cases s.runs[k]? with
  | none => rfl
  | some r => by_cases own : t.run = k <;> simp [own]

theorem Landing.completed (h : s.Landing noted) {i : Nat} {rest : List Turn} (queue : s.queue = .complete i :: rest) :
    (({ s with queue := rest } : Session).complete i).Landing (noted ++ [i]) := by
  obtain ⟨t, task, spent⟩ : ∃ t, s.tasks[i]? = some t ∧ t.work.spent = true := by
    have one := h.ends i
    rw [queue, List.count_cons_self] at one
    split at one
    · rename_i ended
      exact (Option.any_eq_true _ _).mp ended
    · omega
  refine ⟨?_, fun j => ?_, fun j => ?_, fun k ids found => ?_⟩
  · have length : (({ s with queue := rest } : Session).complete i).runs.length = s.runs.length := by
      simpa using congrArg List.length
        (runs_complete (s := { s with queue := rest }) (g := GraphRun.environment) (fun _ _ => rfl) i)
    rw [tasks_complete, length]
    exact h.tasks
  · rw [Session.turns, queue_complete, running_complete, tasks_complete]
    simpa [Session.turns, queue] using h.turns j
  · rw [queue_complete, tasks_complete]
    have before := h.ends j
    rw [queue] at before
    by_cases own : i = j
    · subst own
      simp only [List.count_cons_self, List.count_append, List.count_nil] at before ⊢
      omega
    · simpa [own] using before
  · rw [inFlight_complete (s := { s with queue := rest }) task] at found
    obtain ⟨before, there, rfl⟩ := Option.map_eq_some_iff.mp found
    have same : (({ s with queue := rest } : Session).complete i).started k = s.started k :=
      started_of_runs (congrArg _ (tasks_complete i)) k
    rw [same, h.inFlight k before there]
    by_cases own : t.run = k
    · rw [if_pos own, List.Nodup.erase_eq_filter ((nodup_started k).filter _), List.filter_filter]
      refine List.filter_congr fun j _ => ?_
      by_cases same : j = i <;> simp [same]
    · rw [if_neg own]
      refine List.filter_congr fun j listed => ?_
      have other : j ≠ i := by
        rintro rfl
        obtain ⟨t', there', mine⟩ := mem_started.mp listed
        cases task.symm.trans there'
        exact own mine
      simp [other]

theorem Landing.begun (h : s.Landing noted) {r : GraphRun} {l : Listener} (run : ∃ q, s.runs[l.run]? = some q)
    (e : Snapshot) : (s.beginPulse r l e).Landing noted := by
  have tasks := s.tasks_beginPulse r l e
  have queue : (s.beginPulse r l e).queue = s.queue ++ [.resume s.tasks.length] := rfl
  have running : (s.beginPulse r l e).running = s.running := rfl
  have fresh : s.tasks[s.tasks.length]? = none := List.getElem?_eq_none (Nat.le_refl _)
  -- The number of the new task was not used before.
  have unused : s.queue.count (.complete s.tasks.length) + noted.count s.tasks.length = 0 := by
    simpa [fresh] using h.ends s.tasks.length
  have idle : s.turns s.tasks.length = 0 := by simpa [fresh] using h.turns s.tasks.length
  refine ⟨fun t listed => ?_, fun j => ?_, fun j => ?_, fun k ids found => ?_⟩
  · rw [length_beginPulse]
    rcases List.mem_append.mp (tasks ▸ listed) with old | last
    · exact h.tasks t old
    · cases List.mem_singleton.mp last
      obtain ⟨q, there⟩ := run
      exact ⟨rfl, (List.getElem?_eq_some_iff.mp there).1⟩
  · rw [any_spawned tasks, Session.turns, queue, running]
    have before := h.turns j
    rw [Session.turns] at before
    by_cases own : j = s.tasks.length
    · subst own
      rw [Session.turns] at idle
      simp [Task.ready, Work.spent, Work.waits, Thread.waits, Pulse.leaving]
      omega
    · simpa [own, Ne.symm own] using before
  · rw [any_spawned tasks, queue]
    have before := h.ends j
    by_cases own : j = s.tasks.length
    · subst own
      simpa [Work.spent, List.count_append] using unused
    · simpa [own] using before
  · rw [inFlight_begun] at found
    obtain ⟨before, there, rfl⟩ := Option.map_eq_some_iff.mp found
    have absent : s.tasks.length ∉ noted := by
      intro listed
      have positive := List.count_pos_iff.mpr listed
      omega
    rw [started_spawned tasks, List.filter_append, ← h.inFlight k before there]
    by_cases own : l.run = k <;> simp [own, absent]

theorem Landing.notify (h : s.Landing noted) (l : Listener) (payload : Value) :
    (s.notify l payload).1.Landing noted := by
  have called := s.notified l payload
  generalize s.notify l payload = result at called
  cases called with
  | unarmed _ => exact h
  | refused _ _ _ => exact h.of_same rfl (.refl _) rfl rfl
  | @begun r e run _ _ =>
    have read : (s.snapshot l.eventClass payload).1.Landing noted := h.of_same rfl (.refl _) rfl rfl
    exact read.begun ⟨r, run⟩ e

theorem Landing.notifyAll (h : s.Landing noted) (payload : Value) (ls : List Listener) :
    (s.notifyAll payload ls).1.Landing noted :=
  notifyAll_keeps (P := fun s => s.Landing noted) payload (fun _ l _ h => h.notify l payload) h

/-- A task is changed from outside. If it can go on only from now on, it is given a turn. -/
theorem Landing.modified (h : s.Landing noted) {i : Nat} {t : Task} (task : s.tasks[i]? = some t) {f : Task → Task}
    (run : (f t).run = t.run) (counted : (f t).counted = t.counted) (spent : (f t).work.spent = t.work.spent)
    (wakes : Bool) (ready : (f t).ready = (t.ready || wakes)) (waiting : wakes = true → t.ready = false) :
    ({ s with tasks := s.tasks.modify i f, queue := s.queue ++ if wakes then [.resume i] else [] } : Session).Landing
      noted := by
  refine ⟨h.tasks_modified task run counted, fun j => ?_, fun j => ?_, fun k ids found => ?_⟩
  · rw [any_modified task, Session.turns]
    have before := h.turns j
    by_cases own : j = i
    · subst own
      cases wakes with
      | false => simpa [Session.turns, task, ready] using before
      | true =>
        have none : s.turns j = 0 := by simpa [task, waiting rfl] using before
        rw [Session.turns] at none
        simp [ready]
        omega
    · rw [Session.turns] at before
      cases wakes <;> simpa [own, Ne.symm own] using before
  · rw [any_modified task]
    have before := h.ends j
    by_cases own : j = i
    · subst own
      cases wakes <;> simpa [task, spent] using before
    · cases wakes <;> simpa [own] using before
  · rw [started_of_runs (s := s) (run_modified task run)]
    exact h.inFlight k ids found

theorem settled_work {w : Work} {gate : Nat} (waits : w.waitsAt gate = true) (result : Except Fault Unit) :
    w.spent = false ∧ w.waits = true ∧ (w.settle result).waits = false := by
  cases w with
  | pulse p =>
    obtain ⟨visit, pending⟩ := p
    cases visit with
    | waiting gate next => exact ⟨rfl, rfl, rfl⟩
    | _ => cases waits
  | lookup thread =>
    cases thread with
    | waiting gate next => exact ⟨rfl, rfl, rfl⟩
    | _ => cases waits
  | _ => cases waits

theorem Landing.settle (h : s.Landing noted) (gate : Nat) (result : Except Fault Unit) :
    (s.settle gate result).1.Landing noted := by
  unfold Session.settle
  split
  · exact h
  · rename_i i found
    obtain ⟨bound, waiting, _⟩ := List.findIdx?_eq_some_iff_getElem.mp found
    simp only [Bool.and_eq_true, Bool.not_eq_true'] at waiting
    obtain ⟨active, waits⟩ := waiting
    obtain ⟨left, before, after⟩ := settled_work waits result
    have same := Work.spent_settle s.tasks[i].work result
    refine h.modified (List.getElem?_eq_getElem bound) (f := fun t => { t with work := t.work.settle result }) rfl rfl
      same true ?_ fun _ => ?_
    · simp [Task.ready, same, left, active, before, after]
    · simp [Task.ready, left, active, before]

theorem spent_of_waits {w : Work} (waits : w.waits = true) : w.spent = false := by
  cases w <;> first | rfl | cases waits

theorem Landing.cancelTask (h : s.Landing noted) (i : Nat) : (s.cancelTask i).Landing noted := by
  unfold Session.cancelTask
  split
  · exact h
  · rename_i t task
    dsimp only
    cases waits : (!t.cancelled && t.work.waits) with
    | true =>
      rw [Bool.and_eq_true, Bool.not_eq_true'] at waits
      obtain ⟨active, waits⟩ := waits
      have left := spent_of_waits waits
      rw [if_pos rfl]
      exact h.modified task (f := fun t => { t with cancelled := true }) rfl rfl rfl true
        (by simp [Task.ready, left]) fun _ => by simp [Task.ready, left, active, waits]
    | false =>
      rw [if_neg Bool.false_ne_true]
      have marked := h.modified task (f := fun t => { t with cancelled := true }) rfl rfl rfl false
        (by cases active : t.cancelled <;> simp_all [Task.ready]) (by simp)
      exact marked.of_same rfl (by simp) rfl rfl

theorem Landing.start (h : s.Landing noted) (env : Environment) : (s.start env).1.Landing noted := by
  have inFlight : (s.start env).1.runs.map GraphRun.inFlight = s.runs.map GraphRun.inFlight ++ [[]] := by
    unfold Session.start
    dsimp only
    split <;> simp
  have same : (s.start env).1.queue = s.queue ∧ (s.start env).1.running = s.running := by
    unfold Session.start
    dsimp only
    split <;> exact ⟨rfl, rfl⟩
  have started : ∀ k, (s.start env).1.started k = s.started k := started_of_runs (congrArg _ (tasks_start env))
  refine ⟨fun t listed => ?_, fun i => ?_, fun i => ?_, fun k ids found => ?_⟩
  · have length : (s.start env).1.runs.length = s.runs.length + 1 := by simpa using congrArg List.length inFlight
    have before := h.tasks t (tasks_start env ▸ listed)
    exact ⟨before.1, by omega⟩
  · rw [Session.turns, same.1, same.2, tasks_start]
    exact h.turns i
  · rw [same.1, tasks_start]
    exact h.ends i
  · rw [started]
    rw [inFlight] at found
    rcases Nat.lt_or_ge k s.runs.length with old | new
    · rw [List.getElem?_append_left (by simpa using old)] at found
      exact h.inFlight k ids found
    · -- No task belongs to a run that was not there.
      have none : s.started k = [] := by
        refine List.eq_nil_iff_forall_not_mem.mpr fun i listed => ?_
        obtain ⟨t, there, own⟩ := mem_started.mp listed
        have bound := (h.tasks t (List.mem_of_getElem? there)).2
        omega
      rw [List.getElem?_append_right (by simpa using new)] at found
      rw [none]
      exact List.mem_singleton.mp (List.mem_of_getElem? found)

theorem Landing.undergo (h : s.Landing noted) (m : Move) : (s.undergo m).Landing noted := by
  cases m with
  | cue c =>
    cases c with
    | step => exact h
    | prefer place =>
      unfold Session.undergo Session.prefer
      dsimp only
      split
      · rename_i turn found
        obtain ⟨bound, there⟩ := List.getElem?_eq_some_iff.mp found
        refine h.of_same rfl ?_ rfl rfl
        have split : s.queue = s.queue.take place ++ turn :: s.queue.drop (place + 1) := by
          rw [← there, List.getElem_cons_drop, List.take_append_drop]
        dsimp only
        rw [List.eraseIdx_eq_take_drop_succ]
        exact List.perm_middle.symm.trans (.of_eq split.symm)
      · exact h
    | addTarget selector => exact h.of_same rfl (.refl _) rfl rfl
    | happen channel x y => exact h.notifyAll _ _
    | call run place payload =>
      unfold Session.undergo Session.call
      dsimp only
      split
      · exact h.notify _ payload
      · exact h
    | settle gate result => exact h.settle gate result
    | stop run =>
      refine stop_keeps (P := fun p => p.Landing noted) h run fun ws => ?_
      exact h.of_same rfl (.refl _) rfl (map_modify_same fun _ => rfl)
  | start env => exact h.start env
  | cancel run => exact cancel_keeps (P := fun p => p.Landing noted) (fun _ i held => held.cancelTask i) h run

theorem Landing.step (h : s.Landing noted) : (s.step?.getD s).Landing (noted ++ s.noting (.cue .step)) := by
  unfold noting
  cases turn : s.running with
  | some i =>
    rw [step_running turn]
    simpa using h.advance turn
  | none =>
    cases queue : s.queue with
    | nil =>
      rw [step_idle turn queue]
      simpa using h
    | cons first rest =>
      rw [step_turn turn queue]
      cases first with
      | resume i => simpa [take] using h.resumed turn queue
      | complete i => exact h.completed queue

theorem noting_other {m : Move} (other : m ≠ .cue .step) : s.noting m = [] := by
  unfold noting
  split
  · exact absurd rfl other
  · rfl

theorem Landing.move (h : s.Landing noted) (m : Move) : (s.move m).Landing (noted ++ s.noting m) := by
  by_cases steps : m = .cue .step
  · subst steps
    exact h.step
  · rw [noting_other steps, List.append_nil, move_other steps]
    split
    · exact h
    · exact h.undergo m

theorem Landing.follow (h : s.Landing noted) (moves : List Move) :
    (s.follow moves).Landing (noted ++ s.noted moves) := by
  induction moves generalizing s noted with
  | nil => simpa [Session.noted, Session.follow] using h
  | cons m moves ih =>
    rw [Session.noted, ← List.append_assoc]
    exact ih (h.move m)

theorem follow_append (s : Session) (moves more : List Move) : s.follow (moves ++ more) = (s.follow moves).follow more := by
  induction moves generalizing s with
  | nil => rfl
  | cons m moves ih => exact ih (s.move m)

theorem landing_follow (o : Outside) (moves : List Move) :
    ((empty o).follow moves).Landing ((empty o).noted moves) := by
  have start : (empty o).Landing [] := by
    refine ⟨fun t listed => ?_, fun _ => rfl, fun _ => rfl, fun k ids found => ?_⟩
    · cases listed
    · cases found
  simpa using start.follow moves

end Session

end ActionGraph
