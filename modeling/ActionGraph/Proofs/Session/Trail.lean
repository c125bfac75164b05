import ActionGraph.Proofs.Pulse.Abreast
import ActionGraph.Proofs.Pulse.Order
import ActionGraph.Proofs.Session.Writes

/-!
The whole way of a pulse. Whatever happens in a session, what the pulse of a firing has done is the
beginning of a whole way from where its listener leaves, and all of one when it has ended; and it comes
only to the nodes of its cascade.
-/

namespace ActionGraph

/-- The beginning of a whole way from an output. -/
def Environment.Begins (env : Environment) (origin : Endpoint) (ds : List Deed) : Prop :=
  ∃ earlier a pending since b, ds = earlier ++ since ∧ env.Underway origin earlier a pending ∧ a.Reaches since b

theorem Environment.Whole.begins {env : Environment} {origin : Endpoint} {ds : List Deed} (whole : env.Whole origin ds) :
    env.Begins origin ds := by
  refine ⟨ds, .done [], [], [], _, (List.append_nil ds).symm, ⟨⟨[], [], rfl, .nil⟩, ?_⟩, .start _⟩
  rintro more next rest yields tours
  obtain ⟨rfl, rfl⟩ := Action.yields_done.mp yields
  cases tours
  simpa using whole

theorem Thread.LeftOf.reaches {α : Type} {a : Action α} {ds : List Deed} {t : Thread α} (left : t.LeftOf a ds) :
    ∃ b, a.Reaches ds b := by
  cases t with
  | ready b => exact ⟨b, left⟩
  | due b => exact ⟨b, left⟩
  | waiting gate next => exact ⟨_, left (.ok ())⟩

/-- What a pulse that has left by an output has done, if this is what it is about. -/
def Work.Trails (env : Environment) (origin : Endpoint) (ds : List Deed) : Work → Prop
  | .pulse p => ∃ earlier a since, ds = earlier ++ since ∧ env.Underway origin earlier a p.pending ∧
      p.visit.LeftOf a since
  | .lookup _ => False
  | .ended (.ok _) => env.Whole origin ds
  | .ended (.error _) => False
  | .dropped => env.Begins origin ds

/-- What was told of a pulse with this cascade is its way to what it is about now. -/
structure Work.Way (env : Environment) (origin : Endpoint) (nodes : List String) (ds : List Deed) (w : Work) : Prop where
  walks : w.Walks env nodes (env.dispatches ds)
  trails : w.Trails env origin ds

namespace Work

variable {env : Environment} {origin : Endpoint} {nodes : List String} {ds : List Deed}

theorem Trails.begins {w : Work} (h : w.Trails env origin ds) : env.Begins origin ds := by
  cases w with
  | pulse p =>
    obtain ⟨earlier, a, since, split, underway, left⟩ := h
    obtain ⟨b, reached⟩ := left.reaches
    exact ⟨earlier, a, _, since, b, split, underway, reached⟩
  | lookup t => exact h.elim
  | ended result =>
    cases result with
    | ok v => exact Environment.Whole.begins h
    | error f => exact h.elim
  | dropped => exact h

theorem Trails.settle {w : Work} (h : w.Trails env origin ds) (result : Except Fault Unit) :
    (w.settle result).Trails env origin ds := by
  cases w with
  | pulse p =>
    obtain ⟨earlier, a, since, split, underway, left⟩ := h
    exact ⟨earlier, a, since, split, underway, left.settle result⟩
  | lookup t => exact h
  | ended result => exact h
  | dropped => exact h

theorem Trails.after {p : Pulse} (h : (Work.pulse p).Trails env origin ds) (clear : ∀ f, ¬ env.Unclear f) (s : Scene) :
    (p.after env (p.visit.perform s).2).Trails env origin
      (ds ++ (p.visit.deeds s ++ p.arrival (p.visit.perform s).2)) := by
  obtain ⟨earlier, a, since, rfl, underway, left⟩ := h
  have progress := left.perform s
  cases ended : (p.visit.perform s).2 with
  | suspended t =>
    rw [ended] at progress
    exact ⟨earlier, a, _, by simp [Pulse.arrival], underway, progress⟩
  | ended result =>
    rw [ended] at progress
    cases result with
    | error f =>
      obtain ⟨_, _, onward, _⟩ := underway.onward
      exact absurd (Action.Reaches.throughout progress onward) (clear f)
    | ok ids =>
      cases stack : ids ++ p.pending with
      | nil =>
        have whole := underway.over progress stack
        simpa only [Pulse.arrival, Pulse.after, Pulse.next?, stack, Trails, List.append_assoc, List.head?_nil,
          Option.toList_none, List.map_nil, List.append_nil] using whole
      | cons id rest =>
        simp only [Pulse.arrival, Pulse.after, Pulse.next?, stack]
        exact ⟨_, _, [], by simp, underway.visiting progress stack, .start _⟩

theorem Way.leaving (finite : env.Unfolding (env.targets origin) nodes) :
    (Work.pulse (.leaving env origin)).Way env origin nodes [] :=
  ⟨.leaving finite, [], _, [], rfl, .leaving finite, .start _⟩

theorem Way.settle {w : Work} (h : w.Way env origin nodes ds) (result : Except Fault Unit) :
    (w.settle result).Way env origin nodes ds :=
  ⟨h.walks.settle result, h.trails.settle result⟩

theorem Way.comes {w : Work} (h : w.Way env origin nodes ds) {id : String} (came : .arrived id ∈ ds)
    (runs : (env.exit? id).isSome) : id ∈ nodes := by
  refine h.walks.isPrefix.subset ?_
  exact List.mem_filterMap.mpr ⟨_, came, if_pos runs⟩

end Work

namespace Session

variable {s : Session} {h : Chronicle}

/-- The pulse of every firing in a run with built-in behaviors goes its way, if its cascade is finite. -/
def Trailed (s : Session) (h : Chronicle) : Prop :=
  ∀ k f, (k, .fired f) ∈ h → ∃ t env, s.tasks[f.task]? = some t ∧ t.run = k ∧ s.environment? k = some env ∧
    (env.IsBuiltin → ∀ nodes, env.Unfolding (env.targets f.listener.origin) nodes →
      t.work.Way env f.listener.origin nodes (h.history.of f.task))

theorem way_turn {i : Nat} {t : Task} {env : Environment} (task : s.tasks[i]? = some t)
    (environment : s.environment? t.run = some env) (clear : ∀ f, ¬ env.Unclear f) {origin : Endpoint} {nodes : List String}
    {ds : List Deed} (way : t.work.Way env origin nodes ds) : (t.after s).Way env origin nodes (ds ++ s.deeds i) := by
  obtain ⟨r, run, rfl⟩ := Option.map_eq_some_iff.mp environment
  cases s.goes i task with
  | rests done _ _ left =>
    rw [done, List.append_nil]
    rcases left with same | dropped
    · exact same ▸ way
    · rw [dropped]
      exact ⟨way.walks.isPrefix, way.trails.begins⟩
  | @pulses r' p run' work done _ _ left =>
    cases run.symm.trans run'
    rw [work] at way
    rw [done, left]
    refine ⟨?_, way.trails.after clear (s.scene r)⟩
    rw [Environment.dispatches_append]
    exact way.walks.after (s.scene r)
  | looks _ work _ _ _ _ =>
    rw [work] at way
    exact way.trails.elim

theorem steady_trailed : Steady Numbered Trailed where
  quiet {s s' h} _ trailed quiet := by
    intro k f fired
    obtain ⟨t, env, task, own, environment, way⟩ := trailed k f fired
    obtain ⟨t', task', run, work⟩ := quiet.evolved _ t task
    refine ⟨t', env, task', run.trans own, (quiet.environment? k).trans environment, fun builtin nodes finite => ?_⟩
    rcases work with same | ⟨result, settled⟩
    · exact same ▸ way builtin nodes finite
    · exact settled ▸ (way builtin nodes finite).settle result
  started {s h} env _ trailed := by
    intro k f fired
    obtain ⟨t, env', task, own, environment, way⟩ := trailed k f fired
    exact ⟨t, env', by rw [tasks_start, task], own, (changed_start (s := s) env).environments _ _ environment, way⟩
  fired {s h l r} e numbered trailed _ run := by
    have environment : s.environment? l.run = some r.environment := by simp [Session.environment?, run]
    have environments := (grows_beginPulse (s := s) (l := l) (r := r) environment e).changed.environments
    have tasks := s.tasks_beginPulse r l e
    intro k f fired
    rw [Chronicle.history_firing]
    rcases List.mem_append.mp fired with fired | last
    · obtain ⟨t, env, task, own, environment, way⟩ := trailed k f fired
      have bound : f.task < s.tasks.length := (List.getElem?_eq_some_iff.mp task).1
      exact ⟨t, env, by rw [tasks, List.getElem?_append_left bound, task], own, environments _ _ environment, way⟩
    · cases List.mem_singleton.mp last
      refine ⟨_, r.environment, by rw [tasks, List.getElem?_concat_length], rfl, environments _ _ environment,
        fun _ nodes finite => ?_⟩
      -- Nothing has been told of the pulse that has just begun.
      rw [numbered.untold (Nat.le_refl _)]
      exact .leaving finite
  turned {s h i t} _ trailed task := by
    have environments := (changed_advance (s := s) i).environments
    intro k f fired
    have fired : (k, .fired f) ∈ h := by
      rcases List.mem_append.mp fired with fired | turned
      · exact fired
      · obtain ⟨d, _, same⟩ := List.mem_map.mp turned
        cases same
    obtain ⟨t₀, env, task₀, own, environment, way⟩ := trailed k f fired
    by_cases turn : i = f.task
    · subst turn
      cases task.symm.trans task₀
      have turned : (s.advance f.task).tasks[f.task]? = some { t with work := t.after s } := by simp [tasks_advance, task]
      refine ⟨_, env, turned, own, environments _ _ environment, fun builtin nodes finite => ?_⟩
      rw [Chronicle.of_turn_self]
      exact way_turn task (own ▸ environment) (Environment.not_unclear builtin) (way builtin nodes finite)
    · refine ⟨t₀, env, by simp [tasks_advance, turn, task₀], own, environments _ _ environment, ?_⟩
      rw [Chronicle.of_turn_other h turn]
      exact way

theorem trailed_follow (o : Outside) (moves : List Move) :
    ((empty o).follow moves).Trailed ((empty o).chronicle moves) := by
  have trailed : (empty o).Trailed [] := fun _ _ told => absurd told List.not_mem_nil
  exact ((steady_numbered.and steady_trailed).follow ⟨numbered_empty o, trailed⟩ moves).2

end Session

end ActionGraph
