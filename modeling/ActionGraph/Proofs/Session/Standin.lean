import ActionGraph.Proofs.Session.Chronicle
import ActionGraph.Proofs.Session.Evolution

/-!
A pulse in the place of another. Except in the turns of its own task a session sees of a pulse only
what it waits for, so it goes on alike with any other pulse that waits for the same.
-/

namespace ActionGraph

/-- The two pulses wait for the same. -/
structure Pulse.Paces (p p' : Pulse) : Prop where
  waits : p'.visit.waits = p.visit.waits
  waitsAt : ∀ gate, p'.visit.waitsAt gate = p.visit.waitsAt gate

/-- What is left of a pulse, which was settled if there is a result. -/
def Pulse.settled (p : Pulse) : Option (Except Fault Unit) → Pulse
  | none => p
  | some result => { p with visit := p.visit.settle result }

namespace Session

/-- The task is about this pulse. -/
def About (s : Session) (i : Nat) (p : Pulse) : Prop := ∃ t, s.tasks[i]? = some t ∧ t.work = .pulse p

/-- Another pulse in the place of that of a task. -/
def swap (s : Session) (i : Nat) (p : Pulse) : Session := s.setWork i (.pulse p)

variable {s : Session} {i : Nat} {p p' : Pulse}

@[simp] theorem runs_swap : (s.swap i p').runs = s.runs := rfl

@[simp] theorem queue_swap : (s.swap i p').queue = s.queue := rfl

@[simp] theorem running_swap : (s.swap i p').running = s.running := rfl

@[simp] theorem outside_swap : (s.swap i p').outside = s.outside := rfl

theorem tasks_swap : (s.swap i p').tasks = s.tasks.modify i fun t => { t with work := .pulse p' } := rfl

theorem length_swap : (s.swap i p').tasks.length = s.tasks.length := List.length_modify ..

theorem task_swap_self {t : Task} (task : s.tasks[i]? = some t) :
    (s.swap i p').tasks[i]? = some { t with work := .pulse p' } := by
  simp [tasks_swap, task]

theorem task_swap_other {j : Nat} (other : i ≠ j) : (s.swap i p').tasks[j]? = s.tasks[j]? := by
  simp [tasks_swap, other]

theorem About.bound (about : s.About i p) : i < s.tasks.length := by
  obtain ⟨t, task, _⟩ := about
  exact (List.getElem?_eq_some_iff.mp task).1

theorem About.of_tasks {s' : Session} (about : s.About i p) (same : s'.tasks = s.tasks) : s'.About i p := by
  obtain ⟨t, task, work⟩ := about
  exact ⟨t, same ▸ task, work⟩

theorem setWork_swap {j : Nat} (other : i ≠ j) (w : Work) : (s.swap i p').setWork j w = (s.setWork j w).swap i p' := by
  simp only [swap, setWork, List.modify_modify_ne _ _ _ other]

theorem setWork_swap_self (w : Work) : (s.swap i p').setWork i w = s.setWork i w := by
  simp only [swap, setWork, List.modify_modify_eq]
  rfl

theorem conclude_swap_self (counted : Bool) (w : Work) : (s.swap i p').conclude i counted w = s.conclude i counted w := by
  unfold conclude
  rw [setWork_swap_self]

theorem suspend_swap_self (w : Work) : (s.swap i p').suspend i w = s.suspend i w := by
  unfold suspend
  rw [setWork_swap_self]

theorem setWork_standin : s.setWork i (.pulse p') = (s.setWork i (.pulse p)).swap i p' := by
  simp only [swap, setWork, List.modify_modify_eq]
  rfl

theorem suspend_standin (paces : p.Paces p') : s.suspend i (.pulse p') = (s.suspend i (.pulse p)).swap i p' := by
  have waits : (Work.pulse p').waits = (Work.pulse p).waits := paces.waits
  unfold suspend
  rw [waits, setWork_standin (p := p)]
  cases (Work.pulse p).waits <;> rfl

section

variable {j : Nat} (other : i ≠ j)

include other

theorem conclude_swap (counted : Bool) (w : Work) :
    (s.swap i p').conclude j counted w = (s.conclude j counted w).swap i p' := by
  unfold conclude
  rw [setWork_swap other]
  cases counted <;> rfl

theorem suspend_swap (w : Work) : (s.swap i p').suspend j w = (s.suspend j w).swap i p' := by
  unfold suspend
  rw [setWork_swap other]
  cases w.waits <;> rfl

theorem advancePulse_swap (t : Task) (r : GraphRun) (q : Pulse) :
    (s.swap i p').advancePulse j t r q = (s.advancePulse j t r q).swap i p' := by
  unfold advancePulse
  rw [show (s.swap i p').scene r = s.scene r from rfl]
  rcases q.visit.perform (s.scene r) with ⟨x, progress⟩
  have adopted : (s.swap i p').adopt t.run x = (s.adopt t.run x).swap i p' := rfl
  simp only [adopted]
  match progress with
  | .suspended visit => exact suspend_swap other _
  | .ended (.error f) => exact conclude_swap other _ _
  | .ended (.ok ids) =>
    dsimp only
    cases Pulse.next? r.environment (ids ++ q.pending) with
    | none => exact conclude_swap other _ _
    | some q => exact setWork_swap other _

theorem advanceLookup_swap (t : Task) (r : GraphRun) (thread : Thread Value) :
    (s.swap i p').advanceLookup j t r thread = (s.advanceLookup j t r thread).swap i p' := by
  unfold advanceLookup
  rw [show (s.swap i p').scene r = s.scene r from rfl]
  rcases thread.perform (s.scene r) with ⟨x, progress⟩
  have adopted : (s.swap i p').adopt t.run x = (s.adopt t.run x).swap i p' := rfl
  simp only [adopted]
  cases progress with
  | suspended thread => exact suspend_swap other _
  | ended result => exact conclude_swap other _ _

theorem advance_swap : (s.swap i p').advance j = (s.advance j).swap i p' := by
  unfold advance
  rw [task_swap_other other]
  cases s.tasks[j]? with
  | none => rfl
  | some t =>
    dsimp only
    cases t.cancelled with
    | true => exact conclude_swap other _ _
    | false =>
      rw [runs_swap]
      cases s.runs[t.run]? with
      | none => rfl
      | some r =>
        cases t.work with
        | pulse q => exact advancePulse_swap other t r q
        | lookup thread => exact advanceLookup_swap other t r thread
        | ended result => rfl
        | dropped => rfl

theorem deeds_swap : (s.swap i p').deeds j = s.deeds j := by
  unfold deeds
  rw [task_swap_other other]
  rfl

theorem About.advance (about : s.About i p) : (s.advance j).About i p := by
  obtain ⟨t, task, work⟩ := about
  exact ⟨t, by rw [tasks_advance, List.getElem?_modify_ne _ _ other.symm, task], work⟩

end

theorem complete_swap (about : s.About i p) (j : Nat) : (s.swap i p').complete j = (s.complete j).swap i p' := by
  obtain ⟨t, task, work⟩ := about
  by_cases own : i = j
  · subst own
    simp only [complete, task_swap_self task, task, work]
    rfl
  · simp only [complete, task_swap_other own]
    cases s.tasks[j]? with
    | none => rfl
    | some t =>
      dsimp only
      match t.work with
      | .ended (.error f) => rfl
      | .ended (.ok v) => rfl
      | .pulse q => rfl
      | .lookup thread => rfl
      | .dropped => rfl

theorem beginPulse_swap (about : s.About i p) (r : GraphRun) (l : Listener) (e : Snapshot) :
    (s.swap i p').beginPulse r l e = (s.beginPulse r l e).swap i p' := by
  have appended : ∀ t : Task, (s.tasks.modify i fun t => { t with work := .pulse p' }) ++ [t] =
      (s.tasks ++ [t]).modify i fun t => { t with work := .pulse p' } := by
    intro t
    have bound := about.bound
    refine List.ext_getElem? fun j => ?_
    by_cases inside : j < s.tasks.length
    · rw [List.getElem?_append_left (by simpa using inside), List.getElem?_modify, List.getElem?_modify,
        List.getElem?_append_left inside]
    · have later : i ≠ j := by omega
      rw [List.getElem?_append_right (by simpa using inside), List.getElem?_modify_ne _ _ later,
        List.getElem?_append_right (by omega), List.length_modify]
  simp only [beginPulse, spawn, adopt, modifyRun, enqueue, swap, setWork, scene, appended, List.length_modify]

theorem About.grows {s' : Session} (about : s.About i p) (grows : Grows s s') : s'.About i p := by
  have bound := about.bound
  obtain ⟨t, task, work⟩ := about
  obtain ⟨begun, eq, _⟩ := grows.tasks
  exact ⟨t, by rw [eq, List.getElem?_append_left bound, task], work⟩

theorem notify_swap (about : s.About i p) (l : Listener) (payload : Value) :
    (s.swap i p').notify l payload = ((s.notify l payload).1.swap i p', (s.notify l payload).2) := by
  unfold notify
  rw [runs_swap]
  cases s.runs[l.run]? with
  | none => rfl
  | some r =>
    dsimp only
    cases r.armed with
    | false => rfl
    | true =>
      rcases shot : s.snapshot l.eventClass payload with ⟨s₁, answer⟩
      have shot' : (s.swap i p').snapshot l.eventClass payload = (s₁.swap i p', answer) := by
        cases shot
        rfl
      have kept : s₁.About i p := by
        cases shot
        exact about.of_tasks rfl
      rw [shot']
      cases answer with
      | error f => rfl
      | ok e => exact congrArg (·, Except.ok true) (beginPulse_swap kept r l e)

theorem notifyAll_swap (about : s.About i p) (payload : Value) (listeners : List Listener) :
    (s.swap i p').notifyAll payload listeners =
      ((s.notifyAll payload listeners).1.swap i p', (s.notifyAll payload listeners).2) := by
  induction listeners generalizing s with
  | nil => rfl
  | cons l rest ih =>
    have kept := about.grows (grows_notify l payload)
    unfold notifyAll
    rw [notify_swap about]
    generalize s.notify l payload = called at kept
    obtain ⟨s₁, answer⟩ := called
    cases answer with
    | error f => rfl
    | ok _ => exact ih kept

theorem firing?_swap (about : s.About i p) (l : Listener) (payload : Value) :
    (s.swap i p').firing? l payload = s.firing? l payload := by
  unfold firing?
  rw [notify_swap about, length_swap]
  rfl

theorem firings_swap (about : s.About i p) (payload : Value) (listeners : List Listener) :
    (s.swap i p').firings payload listeners = s.firings payload listeners := by
  induction listeners generalizing s with
  | nil => rfl
  | cons l rest ih =>
    have kept := about.grows (grows_notify l payload)
    unfold firings
    rw [notify_swap about, firing?_swap about]
    generalize s.notify l payload = called at kept
    obtain ⟨s₁, answer⟩ := called
    cases answer with
    | error f => rfl
    | ok _ => exact congrArg _ (ih kept)

theorem start_swap (env : Environment) : (s.swap i p').start env = ((s.start env).1.swap i p', (s.start env).2) := by
  unfold start
  dsimp only [runs_swap, outside_swap]
  rcases s.outside.arm (env.wanted s.runs.length) with ⟨o, armed, fault⟩
  cases fault <;> rfl

theorem stop_swap (run : Nat) : (s.swap i p').stop run = (s.stop run).swap i p' := by
  unfold stop
  rw [runs_swap]
  cases s.runs[run]? with
  | none => rfl
  | some r =>
    dsimp only
    cases r.stopped <;> rfl

theorem prefer_swap (place : Nat) : (s.swap i p').prefer place = (s.prefer place).swap i p' := by
  unfold prefer
  rw [queue_swap]
  cases s.queue[place]? <;> rfl

theorem About.cancelTask (about : s.About i p) (j : Nat) : (s.cancelTask j).About i p := by
  obtain ⟨t, task, work⟩ := about
  obtain ⟨c, task'⟩ := tasks_cancelTask j i task
  exact ⟨_, task', work⟩

theorem About.cancel (about : s.About i p) (run : Nat) : (s.cancel run).About i p := by
  obtain ⟨t, task, work⟩ := about
  obtain ⟨c, task'⟩ := tasks_cancel run task
  exact ⟨_, task', work⟩

theorem happenings_swap (about : s.About i p) {m : Move} (other : m = .cue .step → s.running ≠ some i) :
    (s.swap i p').happenings m = s.happenings m := by
  have fired : (s.swap i p').firingsOf m = s.firingsOf m := by
    unfold firingsOf
    rw [running_swap]
    split
    · rfl
    · split
      · exact firings_swap about _ _
      · exact congrArg (List.flatMap · _) (funext fun l => congrArg Option.toList (firing?_swap about l _))
      · rfl
  have turned : (s.swap i p').turnOf m = s.turnOf m := by
    unfold turnOf
    split
    · rw [running_swap]
      cases turn : s.running with
      | none => rfl
      | some j =>
        have apart : i ≠ j := fun same => other rfl (same ▸ turn)
        dsimp only
        rw [task_swap_other apart, deeds_swap apart]
    · rfl
  rw [happenings, happenings, fired, turned]

theorem step_swap (about : s.About i p) (other : s.running ≠ some i) :
    (s.step?.getD s).About i p ∧ (s.swap i p').step?.getD (s.swap i p') = (s.step?.getD s).swap i p' := by
  cases turned : s.running with
  | some j =>
    have apart : i ≠ j := fun same => other (same ▸ turned)
    rw [step_running turned, step_running (s := s.swap i p') turned]
    exact ⟨about.advance apart, advance_swap apart⟩
  | none =>
    cases queued : s.queue with
    | nil =>
      rw [step_idle turned queued, step_idle (s := s.swap i p') turned queued]
      exact ⟨about, rfl⟩
    | cons turn rest =>
      rw [step_turn turned queued, step_turn (s := s.swap i p') turned queued]
      have shorter : ({ s with queue := rest } : Session).About i p := about.of_tasks rfl
      cases turn with
      | resume j => exact ⟨about.of_tasks rfl, rfl⟩
      | complete j => exact ⟨shorter.of_tasks (tasks_complete j), complete_swap shorter j⟩

theorem About.settled (about : s.About i p) {gate : Nat} (own : s.waitingAt? gate = some i) (result : Except Fault Unit) :
    (s.settle gate result).1.About i (p.settled (some result)) := by
  obtain ⟨t, task, work⟩ := about
  have settled : (s.settle gate result).1.tasks = s.tasks.modify i fun t => { t with work := t.work.settle result } := by
    simp [settle, own, enqueue]
  refine ⟨{ t with work := t.work.settle result }, by simp [settled, task], ?_⟩
  rw [work]
  rfl

theorem About.settle_other (about : s.About i p) {gate : Nat} (other : s.waitingAt? gate ≠ some i)
    (result : Except Fault Unit) : (s.settle gate result).1.About i p := by
  obtain ⟨t, task, work⟩ := about
  refine ⟨t, ?_, work⟩
  unfold settle
  cases found : s.waitingAt? gate with
  | none => exact task
  | some j =>
    have apart : j ≠ i := fun same => other (same ▸ found)
    simp [enqueue, apart, task]

section

variable (paces : p.Paces p')

include paces

theorem cancelTask_swap (about : s.About i p) (j : Nat) : (s.swap i p').cancelTask j = (s.cancelTask j).swap i p' := by
  obtain ⟨t, task, work⟩ := about
  have marked : ({ s.swap i p' with tasks := (s.swap i p').tasks.modify j fun t => { t with cancelled := true } } : Session) =
      ({ s with tasks := s.tasks.modify j fun t => { t with cancelled := true } } : Session).swap i p' := by
    simp only [swap, setWork]
    by_cases own : i = j
    · subst own
      rw [List.modify_modify_eq, List.modify_modify_eq]
      rfl
    · rw [List.modify_modify_ne _ _ _ own]
  unfold cancelTask
  by_cases own : i = j
  · subst own
    have waits : (Work.pulse p').waits = t.work.waits := by
      rw [work]
      exact paces.waits
    rw [task_swap_self task, task]
    dsimp only
    rw [waits, marked]
    cases !t.cancelled && t.work.waits <;> rfl
  · rw [task_swap_other own]
    cases s.tasks[j]? with
    | none => rfl
    | some t =>
      dsimp only
      rw [marked]
      cases !t.cancelled && t.work.waits <;> rfl

theorem cancel_swap (about : s.About i p) (run : Nat) : (s.swap i p').cancel run = (s.cancel run).swap i p' := by
  unfold cancel
  rw [runs_swap]
  cases s.runs[run]? with
  | none => rfl
  | some r =>
    dsimp only
    generalize r.inFlight = tasks
    induction tasks generalizing s with
    | nil => rfl
    | cons j tasks ih =>
      rw [List.foldl_cons, List.foldl_cons, cancelTask_swap paces about]
      exact ih (about.cancelTask j)

theorem waitingAt?_swap (about : s.About i p) (gate : Nat) : (s.swap i p').waitingAt? gate = s.waitingAt? gate := by
  obtain ⟨t, task, work⟩ := about
  have alike : (s.swap i p').tasks.map (fun t => !t.cancelled && t.work.waitsAt gate) =
      s.tasks.map fun t => !t.cancelled && t.work.waitsAt gate := by
    refine List.ext_getElem? fun j => ?_
    rw [List.getElem?_map, List.getElem?_map]
    by_cases own : i = j
    · subst own
      have waits : (Work.pulse p').waitsAt gate = t.work.waitsAt gate := by
        rw [work]
        exact paces.waitsAt gate
      rw [task_swap_self task, task, Option.map_some, Option.map_some, waits]
    · rw [task_swap_other own]
  have found := congrArg (List.findIdx? id) alike
  rwa [List.findIdx?_map, List.findIdx?_map] at found

theorem settle_swap_self (about : s.About i p) {gate : Nat} (found : s.waitingAt? gate = some i)
    (result : Except Fault Unit) :
    (s.swap i p').settle gate result =
      ((s.settle gate result).1.swap i (p'.settled (some result)), (s.settle gate result).2) := by
  unfold settle
  rw [waitingAt?_swap paces about, found]
  simp only [swap, setWork, enqueue, List.modify_modify_eq]
  rfl

theorem settle_swap_other (about : s.About i p) {gate : Nat} (other : s.waitingAt? gate ≠ some i)
    (result : Except Fault Unit) :
    (s.swap i p').settle gate result = ((s.settle gate result).1.swap i p', (s.settle gate result).2) := by
  unfold settle
  rw [waitingAt?_swap paces about]
  cases found : s.waitingAt? gate with
  | none => rfl
  | some j =>
    have apart : i ≠ j := fun same => other (same ▸ found)
    simp only [swap, setWork, enqueue, List.modify_modify_ne _ _ _ apart]

/-- In every move but a turn of its own task, the other pulse has the same done to it, and everything
else goes on alike. -/
theorem move_swap (about : s.About i p) {m : Move} (other : m = .cue .step → s.running ≠ some i) :
    ∃ result, (s.move m).About i (p.settled result) ∧ (s.swap i p').move m = (s.move m).swap i (p'.settled result) := by
  by_cases steps : m = .cue .step
  · subst steps
    exact ⟨none, step_swap about (other rfl)⟩
  rw [move_other steps, move_other steps, running_swap]
  split
  · exact ⟨none, about, rfl⟩
  match m with
  | .cue .step => exact absurd rfl steps
  | .cue (.prefer place) => exact ⟨none, about.grows (grows_prefer place), prefer_swap place⟩
  | .cue (.addTarget selector) => exact ⟨none, about.of_tasks rfl, rfl⟩
  | .cue (.happen channel x y) =>
    have heard : (s.swap i p').notifyAll (Host.payload channel.eventClass x y) (s.outside.host.listeners channel) = _ :=
      notifyAll_swap about _ _
    exact ⟨none, about.grows (grows_happen channel x y), congrArg Prod.fst heard⟩
  | .cue (.call run place payload) =>
    refine ⟨none, about.grows (grows_call run place payload), ?_⟩
    change (s.swap i p').call run place payload = (s.call run place payload).swap i p'
    unfold call
    rw [show (s.swap i p').handler? run place = s.handler? run place from rfl]
    cases s.handler? run place with
    | none => rfl
    | some l => exact congrArg Prod.fst (notify_swap about l payload)
  | .cue (.settle gate result) =>
    by_cases own : s.waitingAt? gate = some i
    · exact ⟨some result, about.settled own result, congrArg Prod.fst (settle_swap_self paces about own result)⟩
    · exact ⟨none, about.settle_other own result, congrArg Prod.fst (settle_swap_other paces about own result)⟩
  | .cue (.stop run) =>
    have same : (s.stop run).tasks = s.tasks := stop_keeps (P := fun s' => s'.tasks = s.tasks) rfl run fun _ => rfl
    exact ⟨none, about.of_tasks same, stop_swap run⟩
  | .start env => exact ⟨none, about.of_tasks (tasks_start env), congrArg Prod.fst (start_swap env)⟩
  | .cancel run => exact ⟨none, about.cancel run, cancel_swap paces about run⟩

end

end Session

end ActionGraph
