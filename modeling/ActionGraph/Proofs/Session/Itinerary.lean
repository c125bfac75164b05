import ActionGraph.Proofs.Pulse.Visit
import ActionGraph.Proofs.Session.Record

/-!
Where a task is. Every deed of a pulse is the next request of the visit it is at, after the deeds
since it came there; and it comes only where execution edges lead.
-/

namespace ActionGraph

namespace Environment

/-- After these deeds a pulse is at this part of its way, and the last of the deeds belong to it. -/
inductive At (env : Environment) : List Deed → Action (List String) → List Deed → Prop
  | leaving (origin : Endpoint) (since : List Deed) : At env since (env.leave origin) since
  | visiting (earlier : List Deed) (id : String) (since : List Deed) :
      At env (earlier ++ .arrived id :: since) (env.visit id) since

/-- Some execution edge leads to this id. -/
def Leads (env : Environment) (id : String) : Prop := ∃ origin, id ∈ env.targets origin

/-- Each request is the next one of the visit it is made in, and each arrival is led to. -/
structure Course (env : Environment) (ds : List Deed) : Prop where
  asked : ∀ before after r x, ds = before ++ .asked r x :: after → ∃ a since, env.At before a since ∧ a.Requests since r
  arrived : ∀ id, .arrived id ∈ ds → env.Leads id

variable {env : Environment} {ds since : List Deed} {a : Action (List String)}

theorem At.more (h : env.At ds a since) (more : List Deed) : env.At (ds ++ more) a (since ++ more) := by
  cases h with
  | leaving origin since => exact .leaving origin _
  | visiting earlier id since =>
    rw [List.append_assoc, List.cons_append]
    exact .visiting earlier id _

theorem At.leads (h : env.At ds a since) {more : List Deed} {ids : List String} (ends : a.Yields more ids) :
    ∀ id ∈ ids, env.Leads id := by
  intro id listed
  cases h with
  | leaving origin _ =>
    obtain rfl : ids = env.targets origin := ends.ends (env.ends_leave origin)
    exact ⟨origin, listed⟩
  | visiting _ at_ _ =>
    cases exit : env.exit? at_ with
    | none =>
      obtain rfl : ids = [] := ends.ends (ends_visit_skip exit)
      cases listed
    | some port =>
      obtain rfl : ids = env.targets ⟨at_, port⟩ := ends.ends (ends_visit_emit exit)
      exact ⟨_, listed⟩

theorem course_nil : env.Course [] := ⟨fun before _ _ _ split => by simp at split, nofun⟩

theorem Course.visit (course : env.Course ds) (here : env.At ds a since) {t : Thread (List String)}
    (left : t.LeftOf a since) (s : Scene) : env.Course (ds ++ t.deeds s) := by
  refine ⟨fun before after r x split => ?_, fun id arrived => ?_⟩
  · rcases List.append_eq_append_iff.mp split with ⟨inner, rfl, rest⟩ | ⟨inner, eq, rest⟩
    · exact ⟨a, since ++ inner, here.more inner, left.requests rest⟩
    · cases inner with
      | nil =>
        have first : t.deeds s = [] ++ .asked r x :: after := by simpa using rest.symm
        rw [List.append_nil] at eq
        exact ⟨a, since ++ [], eq ▸ (by simpa using here), left.requests first⟩
      | cons d inner =>
        obtain ⟨rfl, _⟩ := List.cons.inj rest
        exact course.asked before inner r x eq
  · rcases List.mem_append.mp arrived with arrived | arrived
    · exact course.arrived id arrived
    · exact absurd arrived (Thread.not_arrived t s id)

theorem Course.arrive (course : env.Course ds) {id : String} (leads : env.Leads id) :
    env.Course (ds ++ [.arrived id]) := by
  refine ⟨fun before after r x split => ?_, fun other arrived => ?_⟩
  · rcases List.append_eq_append_iff.mp split with ⟨inner, _, rest⟩ | ⟨inner, eq, rest⟩
    · cases inner <;> simp at rest
    · cases inner with
      | nil => simp at rest
      | cons d inner =>
        obtain ⟨rfl, _⟩ := List.cons.inj rest
        exact course.asked before inner r x eq
  · rcases List.mem_append.mp arrived with arrived | last
    · exact course.arrived other arrived
    · cases List.mem_singleton.mp last
      exact leads

end Environment

/-- What is left of a task, after these deeds, is what is left of its visit, and ids that it is led to. -/
def Work.Proceeds (env : Environment) (ds : List Deed) : Work → Prop
  | .pulse p => (∃ a since, env.At ds a since ∧ p.visit.LeftOf a since) ∧ ∀ id ∈ p.pending, env.Leads id
  | .lookup _ => False
  | .ended _ => True
  | .dropped => True

namespace Work.Proceeds

variable {env : Environment} {ds : List Deed}

theorem settle {w : Work} (h : w.Proceeds env ds) (result : Except Fault Unit) :
    (w.settle result).Proceeds env ds := by
  cases w with
  | pulse p =>
    obtain ⟨⟨a, since, here, left⟩, pending⟩ := h
    exact ⟨⟨a, since, here, left.settle result⟩, pending⟩
  | lookup t => exact h
  | ended result => exact h
  | dropped => exact h

theorem after {p : Pulse} (h : (Work.pulse p).Proceeds env ds) (course : env.Course ds) (s : Scene) :
    env.Course (ds ++ (p.visit.deeds s ++ p.arrival (p.visit.perform s).2)) ∧
      (p.after env (p.visit.perform s).2).Proceeds env
        (ds ++ (p.visit.deeds s ++ p.arrival (p.visit.perform s).2)) := by
  obtain ⟨⟨a, since, here, left⟩, pending⟩ := h
  have visited := course.visit here left s
  have progress := left.perform s
  rw [← List.append_assoc]
  cases ended : (p.visit.perform s).2 with
  | suspended t =>
    rw [ended] at progress
    simp only [Pulse.arrival, List.append_nil, Pulse.after]
    exact ⟨visited, ⟨a, _, here.more _, progress⟩, pending⟩
  | ended result =>
    rw [ended] at progress
    cases result with
    | error f => simpa [Pulse.arrival, Pulse.after, Proceeds] using visited
    | ok ids =>
      have led : ∀ id ∈ ids ++ p.pending, env.Leads id := by
        intro id listed
        rcases List.mem_append.mp listed with next | later
        · exact here.leads progress id next
        · exact pending id later
      cases stack : ids ++ p.pending with
      | nil => simpa [Pulse.arrival, Pulse.after, Pulse.next?, stack, Proceeds] using visited
      | cons id rest =>
        rw [stack] at led
        simp only [Pulse.arrival, Pulse.after, Pulse.next?, stack, List.head?_cons, Option.toList_some, List.map_cons,
          List.map_nil]
        refine ⟨visited.arrive (led id List.mem_cons_self), ⟨_, [], .visiting _ id [], .start _⟩, fun other listed => ?_⟩
        exact led other (List.mem_cons_of_mem id listed)

end Work.Proceeds

namespace Session

variable {s : Session} {h : Chronicle}

/-- Every task has kept to its course. -/
def Coursed (s : Session) (h : Chronicle) : Prop :=
  ∀ (i : Nat) (t : Task), s.tasks[i]? = some t → ∃ env, s.environment? t.run = some env ∧
    env.Course (h.history.of i) ∧ t.work.Proceeds env (h.history.of i)

theorem coursed_turn {i : Nat} {t : Task} {env : Environment} (task : s.tasks[i]? = some t)
    (environment : s.environment? t.run = some env) {ds : List Deed} (course : env.Course ds)
    (proceeds : t.work.Proceeds env ds) :
    env.Course (ds ++ s.deeds i) ∧ (t.after s).Proceeds env (ds ++ s.deeds i) := by
  obtain ⟨r, run, rfl⟩ := Option.map_eq_some_iff.mp environment
  cases s.goes i task with
  | rests done _ _ left =>
    rw [done, List.append_nil]
    rcases left with same | dropped
    · exact ⟨course, same ▸ proceeds⟩
    · exact ⟨course, dropped ▸ trivial⟩
  | @pulses r' p run' work done _ _ left =>
    cases run.symm.trans run'
    rw [work] at proceeds
    rw [done, left]
    exact proceeds.after course (s.scene r)
  | looks _ work _ _ _ _ =>
    rw [work] at proceeds
    exact proceeds.elim

theorem steady_coursed : Steady Numbered Coursed where
  quiet {s s' h} _ coursed quiet := by
    intro i t' task'
    obtain ⟨t, task, run, work⟩ := quiet.task task'
    obtain ⟨env, environment, course, proceeds⟩ := coursed i t task
    refine ⟨env, by rw [quiet.environment?, run]; exact environment, course, ?_⟩
    rcases work with same | ⟨result, settled⟩
    · exact same ▸ proceeds
    · exact settled ▸ proceeds.settle result
  started {s h} env _ coursed := by
    intro i t task
    rw [tasks_start] at task
    obtain ⟨env', environment, course⟩ := coursed i t task
    exact ⟨env', (changed_start (s := s) env).environments _ _ environment, course⟩
  fired {s h l r} e numbered coursed _ run := by
    have environments := (grows_beginPulse (s := s) (l := l) (r := r) (by simp [Session.environment?, run])
      e).changed.environments
    intro i t task
    rw [Chronicle.history_firing]
    rcases task_begun task with old | ⟨new, rfl⟩
    · obtain ⟨env, environment, course⟩ := coursed i t old
      exact ⟨env, environments _ _ environment, course⟩
    · -- Nothing has been told of the pulse that has just begun.
      rw [numbered.untold new]
      have environment : s.environment? l.run = some r.environment := by simp [Session.environment?, run]
      exact ⟨r.environment, environments _ _ environment, Environment.course_nil,
        ⟨_, [], .leaving l.origin [], .start _⟩, fun id pending => absurd pending List.not_mem_nil⟩
  turned {s h i t} _ coursed task := by
    intro j t' task'
    have environments := (changed_advance (s := s) i).environments
    rcases task_turned task' with ⟨other, there⟩ | ⟨rfl, t₀, there, rfl⟩
    · obtain ⟨env, environment, course⟩ := coursed j t' there
      rw [Chronicle.of_turn_other h other]
      exact ⟨env, environments _ _ environment, course⟩
    · obtain ⟨env, environment, course, proceeds⟩ := coursed i t₀ there
      rw [Chronicle.of_turn_self]
      exact ⟨env, environments _ _ environment, coursed_turn there environment course proceeds⟩

end Session

end ActionGraph
