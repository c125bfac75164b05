import ActionGraph.Proofs.Session.History

/-!
What a turn comes to. Of the tasks, only the one that has the turn changes; of the runs, only what
its own run remembers.
-/

namespace ActionGraph

/-- What a pulse is about after its turn, by how far its visit came. -/
def Pulse.after (env : Environment) (p : Pulse) : Progress (List String) → Work
  | .suspended visit => .pulse { p with visit := visit }
  | .ended (.error f) => .ended (.error f)
  | .ended (.ok ids) =>
    match Pulse.next? env (ids ++ p.pending) with
    | some p => .pulse p
    | none => .ended (.ok .null)

def Work.afterLookup : Progress Value → Work
  | .suspended thread => .lookup thread
  | .ended result => .ended result

def Task.after (t : Task) (s : Session) : Work :=
  if t.cancelled then .dropped
  else
    match s.runs[t.run]?, t.work with
    | some r, .pulse p => p.after r.environment (p.visit.perform (s.scene r)).2
    | some r, .lookup thread => .afterLookup (thread.perform (s.scene r)).2
    | _, w => w

namespace Session

variable (s : Session) (i : Nat)

def environment? (k : Nat) : Option Environment := (s.runs[k]?).map (·.environment)

@[simp] theorem tasks_conclude (counted : Bool) (w : Work) :
    (s.conclude i counted w).tasks = s.tasks.modify i fun t => { t with work := w } := by
  cases counted <;> rfl

@[simp] theorem runs_conclude (counted : Bool) (w : Work) : (s.conclude i counted w).runs = s.runs := by
  cases counted <;> rfl

@[simp] theorem outside_conclude (counted : Bool) (w : Work) :
    (s.conclude i counted w).outside = s.outside := by
  cases counted <;> rfl

@[simp] theorem running_conclude (counted : Bool) (w : Work) : (s.conclude i counted w).running = none := by
  cases counted <;> rfl

@[simp] theorem tasks_suspend (w : Work) :
    (s.suspend i w).tasks = s.tasks.modify i fun t => { t with work := w } := by
  unfold suspend
  split <;> rfl

@[simp] theorem runs_suspend (w : Work) : (s.suspend i w).runs = s.runs := by
  unfold suspend
  split <;> rfl

@[simp] theorem outside_suspend (w : Work) : (s.suspend i w).outside = s.outside := by
  unfold suspend
  split <;> rfl

@[simp] theorem running_suspend (w : Work) : (s.suspend i w).running = none := by
  unfold suspend
  split <;> rfl

variable {s} in
theorem step_running {i : Nat} (h : s.running = some i) : s.step?.getD s = s.advance i := by
  rw [step?, h]
  rfl

variable {s} in
theorem step_idle (h : s.running = none) (k : s.queue = []) : s.step?.getD s = s := by
  rw [step?, h, k]
  rfl

variable {s} in
theorem step_turn {turn : Turn} {rest : List Turn} (h : s.running = none) (k : s.queue = turn :: rest) :
    s.step?.getD s = ({ s with queue := rest } : Session).take turn := by
  rw [step?, h, k]
  dsimp only
  rw [← h]
  rfl

section

variable {s} {i : Nat} {t : Task} {r : GraphRun} {p : Pulse}

theorem advance_pulse (task : s.tasks[i]? = some t) (active : t.cancelled = false) (run : s.runs[t.run]? = some r)
    (work : t.work = .pulse p) : s.advance i = s.advancePulse i t r p := by
  rw [advance, task]
  dsimp only
  rw [if_neg (Bool.eq_false_iff.mp active), run, work]

theorem deeds_pulse (task : s.tasks[i]? = some t) (active : t.cancelled = false) (run : s.runs[t.run]? = some r)
    (work : t.work = .pulse p) :
    s.deeds i = p.visit.deeds (s.scene r) ++ p.arrival (p.visit.perform (s.scene r)).2 := by
  rw [deeds, task]
  dsimp only
  rw [if_neg (Bool.eq_false_iff.mp active), run, work]

end

/-- A step is a turn of the task that has it, or takes one from the queue, or changes nothing. -/
theorem step_keeps {P : Session → Prop} (h : P s) (advanced : ∀ i, s.running = some i → P (s.advance i))
    (resumed : ∀ i rest, s.running = none → s.queue = .resume i :: rest →
      P { s with queue := rest, running := some i })
    (completed : ∀ i rest, s.running = none → s.queue = .complete i :: rest →
      P (({ s with queue := rest } : Session).complete i)) : P (s.step?.getD s) := by
  cases turned : s.running with
  | some i =>
    rw [step_running turned]
    exact advanced i turned
  | none =>
    cases queued : s.queue with
    | nil => rwa [step_idle turned queued]
    | cons turn rest =>
      rw [step_turn turned queued]
      cases turn with
      | resume i => exact resumed i rest turned queued
      | complete i => exact completed i rest turned queued

variable (t : Task) (r : GraphRun)

/-- Everything about a pulse's turn but the queue. It keeps the turn if it goes on to another node. -/
theorem advancePulse_spec (p : Pulse) :
    (s.advancePulse i t r p).tasks =
      (s.tasks.modify i fun t => { t with work := p.after r.environment (p.visit.perform (s.scene r)).2 }) ∧
    (s.advancePulse i t r p).runs =
      (s.runs.modify t.run fun k => { k with memory := (p.visit.perform (s.scene r)).1.memory }) ∧
    (s.advancePulse i t r p).outside = (p.visit.perform (s.scene r)).1.outside ∧
    (s.advancePulse i t r p).running =
      if (p.arrival (p.visit.perform (s.scene r)).2).isEmpty then none else s.running := by
  unfold advancePulse
  cases p.visit.perform (s.scene r) with
  | mk scene progress =>
    cases progress with
    | suspended visit =>
      exact ⟨tasks_suspend .., runs_suspend .., outside_suspend .., running_suspend ..⟩
    | ended result =>
      cases result with
      | error f => exact ⟨tasks_conclude .., runs_conclude .., outside_conclude .., running_conclude ..⟩
      | ok ids =>
        cases h : ids ++ p.pending with
        | nil =>
          simp only [Pulse.after, Pulse.arrival, h, Pulse.next?]
          exact ⟨tasks_conclude .., runs_conclude .., outside_conclude .., running_conclude ..⟩
        | cons id rest =>
          simp only [Pulse.after, Pulse.arrival, h, Pulse.next?]
          exact ⟨rfl, rfl, rfl, rfl⟩

theorem advanceLookup_spec (thread : Thread Value) :
    (s.advanceLookup i t r thread).tasks =
      (s.tasks.modify i fun t => { t with work := .afterLookup (thread.perform (s.scene r)).2 }) ∧
    (s.advanceLookup i t r thread).runs =
      (s.runs.modify t.run fun k => { k with memory := (thread.perform (s.scene r)).1.memory }) ∧
    (s.advanceLookup i t r thread).outside = (thread.perform (s.scene r)).1.outside ∧
    (s.advanceLookup i t r thread).running = none := by
  unfold advanceLookup
  cases thread.perform (s.scene r) with
  | mk scene progress =>
    cases progress with
    | suspended thread =>
      exact ⟨tasks_suspend .., runs_suspend .., outside_suspend .., running_suspend ..⟩
    | ended result =>
      exact ⟨tasks_conclude .., runs_conclude .., outside_conclude .., running_conclude ..⟩

/-- What a turn of a task comes to: it does nothing, or what is left of its pulse or of its lookup
goes on in the scene of its run. -/
inductive Goes (t : Task) : Prop
  | rests (done : s.deeds i = []) (runs : (s.advance i).runs = s.runs) (outside : (s.advance i).outside = s.outside)
      (left : t.after s = t.work ∨ t.after s = .dropped) : Goes t
  | pulses {r : GraphRun} {p : Pulse} (run : s.runs[t.run]? = some r) (work : t.work = .pulse p)
      (done : s.deeds i = p.visit.deeds (s.scene r) ++ p.arrival (p.visit.perform (s.scene r)).2)
      (runs : (s.advance i).runs =
        s.runs.modify t.run fun k => { k with memory := (p.visit.perform (s.scene r)).1.memory })
      (outside : (s.advance i).outside = (p.visit.perform (s.scene r)).1.outside)
      (left : t.after s = p.after r.environment (p.visit.perform (s.scene r)).2) : Goes t
  | looks {r : GraphRun} {thread : Thread Value} (run : s.runs[t.run]? = some r) (work : t.work = .lookup thread)
      (done : s.deeds i = thread.deeds (s.scene r))
      (runs : (s.advance i).runs =
        s.runs.modify t.run fun k => { k with memory := (thread.perform (s.scene r)).1.memory })
      (outside : (s.advance i).outside = (thread.perform (s.scene r)).1.outside)
      (left : t.after s = .afterLookup (thread.perform (s.scene r)).2) : Goes t

theorem goes {t : Task} (task : s.tasks[i]? = some t) : s.Goes i t := by
  have rests (done : s.deeds i = []) (advanced : s.advance i = s.rest) (left : t.after s = t.work) : s.Goes i t :=
    .rests done (by rw [advanced]; rfl) (by rw [advanced]; rfl) (.inl left)
  by_cases cancelled : t.cancelled
  · have advanced : s.advance i = s.conclude i t.counted .dropped := by simp [advance, task, cancelled]
    refine .rests (by simp [deeds, task, cancelled]) ?_ ?_ (.inr (by simp [Task.after, cancelled]))
    · rw [advanced, runs_conclude]
    · rw [advanced, outside_conclude]
  · cases run : s.runs[t.run]? with
    | none =>
      exact rests (by simp [deeds, task, cancelled, run]) (by simp [advance, task, cancelled, run])
        (by simp [Task.after, cancelled, run])
    | some r =>
      cases work : t.work with
      | pulse p =>
        have advanced : s.advance i = s.advancePulse i t r p := by simp [advance, task, cancelled, run, work]
        obtain ⟨_, runs, outside, _⟩ := s.advancePulse_spec i t r p
        exact .pulses run work (by simp [deeds, task, cancelled, run, work]) (advanced ▸ runs) (advanced ▸ outside)
          (by simp [Task.after, cancelled, run, work])
      | lookup thread =>
        have advanced : s.advance i = s.advanceLookup i t r thread := by simp [advance, task, cancelled, run, work]
        obtain ⟨_, runs, outside, _⟩ := s.advanceLookup_spec i t r thread
        exact .looks run work (by simp [deeds, task, cancelled, run, work]) (advanced ▸ runs) (advanced ▸ outside)
          (by simp [Task.after, cancelled, run, work])
      | ended result =>
        exact rests (by simp [deeds, task, cancelled, run, work]) (by simp [advance, task, cancelled, run, work])
          (by simp [Task.after, cancelled, run, work])
      | dropped =>
        exact rests (by simp [deeds, task, cancelled, run, work]) (by simp [advance, task, cancelled, run, work])
          (by simp [Task.after, cancelled, run, work])

end Session

end ActionGraph
