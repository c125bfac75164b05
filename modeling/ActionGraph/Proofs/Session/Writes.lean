import ActionGraph.Proofs.Behavior.Constant
import ActionGraph.Proofs.Session.Itinerary
import Mathlib.Data.List.Induction

/-!
Who writes what. In every session that begins with nobody listening, whatever a run with built-in
behaviors publishes is the snapshot of an event, or was supplied by a passive producer, or is the
output of a node that a pulse has come to.
-/

namespace ActionGraph

/-- Nobody listens to the host yet. -/
def Outside.Unheard (o : Outside) : Prop := ∀ c, o.host.subscriptions.handlers c = []

/-- A host without a screen, before anything is done with it. -/
def Outside.fresh : Outside := ⟨.empty (.int 1), .plain, [], .steady (.int 0), .collecting, 0, 0, #[]⟩

theorem Outside.unheard_fresh : fresh.Unheard := fun _ => rfl

theorem Environment.wanted_builtin {env : Environment} (builtin : env.IsBuiltin) {k : Nat} {w : Subscription}
    (wanted : w ∈ env.wanted k) : ∃ node ∈ env.graph.nodes, node.type = "event.uiHover" ∧
      w.listener.origin = ⟨node.id, "exec_out"⟩ ∧ w.listener.eventPort = ⟨node.id, "data_out_event"⟩ := by
  obtain ⟨evaluate, eq⟩ := builtin
  obtain ⟨⟨node, index⟩, listed, given⟩ := List.mem_filterMap.mp wanted
  obtain ⟨⟨b, t⟩, triggers, rfl⟩ := Option.map_eq_some_iff.mp given
  obtain ⟨known, trigger⟩ := Repertoire.trigger?_eq_some triggers
  obtain ⟨type, rfl⟩ := Builtin.trigger_hover (eq ▸ known) trigger
  cases trigger
  exact ⟨node, List.fst_mem_of_mem_zipIdx listed, type, rfl, rfl⟩

namespace Chronicle

/-- How a run comes to publish a value on a port, after what was told before. -/
inductive Wrote (env : Environment) (before : Chronicle) (k : Nat) (port : Endpoint) (v : Value) : Happening → Prop
  | fired {f : Firing} {w : Subscription} : w ∈ env.wanted k → w.listener = f.listener →
      f.listener.eventPort = port → v = .event f.snapshot → Wrote env before k port v (.fired f)
  | supplied {i : Nat} {answer : Option Unit} {earlier later : List Deed} :
      before.history.of i = earlier ++ later → env.Supplies port v later →
      Wrote env before k port v (.did i (.asked (.publish port v) answer))
  | given {i : Nat} {answer : Option Unit} {earlier since : List Deed} :
      before.history.of i = earlier ++ .arrived port.node :: since → env.Gives port.node port.port v since →
      Wrote env before k port v (.did i (.asked (.publish port v) answer))

variable {h before after : Chronicle} {k i : Nat} {port : Endpoint}

theorem of_split (d : Deed) :
    (before ++ (k, .did i d) :: after).history.of i = before.history.of i ++ d :: after.history.of i := by
  simp [history, Happening.deed?, History.of]

theorem split_of {earlier later : List Deed} {d : Deed} (own : h.history.of i = earlier ++ d :: later) :
    ∃ (before after : Chronicle) (k : Nat), h = before ++ (k, .did i d) :: after ∧ before.history.of i = earlier := by
  unfold History.of history at own
  rw [List.filterMap_filterMap] at own
  obtain ⟨before, rest, rfl, first, second⟩ := List.filterMap_eq_append_iff.mp own
  obtain ⟨between, ⟨k, x⟩, after, rfl, none, chosen, _⟩ := List.filterMap_eq_cons_iff.mp second
  obtain rfl : x = .did i d := by
    cases x with
    | fired f => simp [Happening.deed?] at chosen
    | did j d' =>
      simp only [Happening.deed?, Option.bind_some, Option.ite_none_right_eq_some, Option.some.injEq] at chosen
      obtain ⟨rfl, rfl⟩ := chosen
      rfl
  refine ⟨before ++ between, after, k, by simp, ?_⟩
  unfold History.of history
  rw [List.filterMap_filterMap, List.filterMap_append, first, List.filterMap_eq_nil_iff.mpr none, List.append_nil]

theorem mem_written {v : Value} : v ∈ h.written k port ↔
    ∃ (before after : Chronicle) (x : Happening), h = before ++ (k, x) :: after ∧ x.write? = some (port, v) := by
  simp only [written, Cache.valuesOn, writes, List.mem_filterMap, mem_of, Option.ite_none_right_eq_some,
    Option.some.injEq]
  constructor
  · rintro ⟨⟨p, w⟩, ⟨x, told, write⟩, rfl, rfl⟩
    obtain ⟨before, after, rfl⟩ := List.append_of_mem told
    exact ⟨before, after, x, rfl, write⟩
  · rintro ⟨before, after, x, rfl, write⟩
    exact ⟨(port, v), ⟨x, by simp, write⟩, rfl, rfl⟩

theorem written_single (k : Nat) (port : Endpoint) (x : Nat × Happening) : written [x] k port = [] ∨
    ∃ y v, x = (k, y) ∧ y.write? = some (port, v) ∧ written [x] k port = [v] := by
  obtain ⟨j, y⟩ := x
  by_cases own : j = k
  · subst own
    cases write : y.write? with
    | none => simp [written, writes, of, Cache.valuesOn, write]
    | some w =>
      obtain ⟨p, v⟩ := w
      by_cases same : p = port
      · subst same
        exact .inr ⟨y, v, rfl, write, by simp [written, writes, of, Cache.valuesOn, write]⟩
      · simp [written, writes, of, Cache.valuesOn, write, same]
  · simp [written, writes, of, Cache.valuesOn, own]

theorem written_last {v : Value} (last : (h.written k port).getLast? = some v) :
    ∃ (before after : Chronicle) (x : Happening), h = before ++ (k, x) :: after ∧ x.write? = some (port, v) ∧
      after.written k port = [] := by
  induction h using List.reverseRecOn with
  | nil => simp [written, writes, of, Cache.valuesOn] at last
  | append_singleton h y ih =>
    rw [written_append] at last
    rcases written_single k port y with none | ⟨x, w, rfl, write, one⟩
    · rw [none, List.append_nil] at last
      obtain ⟨before, after, x, rfl, write, silent⟩ := ih last
      exact ⟨before, after ++ [y], x, by simp, write, by simp [silent, none]⟩
    · rw [one, List.getLast?_concat] at last
      cases last
      exact ⟨h, [], x, rfl, write, rfl⟩

end Chronicle

namespace Session

variable {s : Session} {h : Chronicle} {k : Nat} {env : Environment}

theorem Numbered.splits (numbered : s.Numbered h) {i : Nat} {d d' : Deed} (mine : (k, .did i d) ∈ h)
    (done : d' ∈ h.history.of i) : ∃ before after : Chronicle, h = before ++ (k, .did i d') :: after := by
  obtain ⟨earlier, later, own⟩ := List.append_of_mem done
  obtain ⟨before, after, k', split, _⟩ := Chronicle.split_of own
  obtain ⟨t, task, rfl⟩ := numbered.tasks k i d mine
  obtain ⟨t', task', rfl⟩ := numbered.tasks k' i d' (by simp [split])
  cases task.symm.trans task'
  exact ⟨before, after, split⟩

/-- All that a chronicle is true of. -/
structure Told (s : Session) (h : Chronicle) : Prop where
  attended : s.Attended h
  recorded : s.Recorded h
  numbered : s.Numbered h
  coursed : s.Coursed h

/-- Of every session that begins with nobody listening, its chronicle is true. -/
theorem told_follow {o : Outside} (unheard : o.Unheard) (moves : List Move) :
    ((empty o).follow moves).Told ((empty o).chronicle moves) := by
  have attended : (empty o).Attended [] := by
    refine ⟨fun c l listed => ?_, fun _ _ told => absurd told List.not_mem_nil⟩
    have none : (empty o).outside.host.subscriptions.handlers c = [] := unheard c
    simp [none] at listed
  have recorded : (empty o).Recorded [] :=
    ⟨fun _ _ run => by simp [empty] at run, fun _ told => absurd told List.not_mem_nil,
      fun before _ _ _ _ split => by simp at split⟩
  have coursed : (empty o).Coursed [] := fun _ _ task => by simp [empty] at task
  have numbered := numbered_empty o
  exact ⟨steady_attended.follow attended moves, steady_recorded.follow recorded moves,
    steady_numbered.follow numbered moves, ((steady_numbered.and steady_coursed).follow ⟨numbered, coursed⟩ moves).2⟩

theorem Told.environment (told : s.Told h) (environment : s.environment? k = some env) {i : Nat} {d : Deed}
    (done : (k, .did i d) ∈ h) : env.Course (h.history.of i) := by
  obtain ⟨t, task, rfl⟩ := told.numbered.tasks k i d done
  obtain ⟨env', environment', course, _⟩ := told.coursed i t task
  cases environment.symm.trans environment'
  exact course

theorem Told.given (told : s.Told h) (sound : s.outside.staging.faults = []) (i : Nat) :
    ∀ d ∈ h.history.of i, d.Given := by
  intro d done
  obtain ⟨earlier, later, own⟩ := List.append_of_mem done
  obtain ⟨before, after, k, split, _⟩ := Chronicle.split_of own
  have met := told.recorded.met before after k i d split
  cases d with
  | arrived id => trivial
  | asked r x =>
    cases r with
    | mount id =>
      cases x with
      | none => trivial
      | some x => exact met.mount sound
    | _ => trivial

/-- Every write of a run with built-in behaviors comes about in one of three ways. -/
theorem Told.wrote (told : s.Told h) (environment : s.environment? k = some env) (builtin : env.IsBuiltin)
    {before after : Chronicle} {x : Happening} {port : Endpoint} {v : Value} (split : h = before ++ (k, x) :: after)
    (write : x.write? = some (port, v)) : Chronicle.Wrote env before k port v x := by
  have listed : (k, x) ∈ h := by simp [split]
  cases x with
  | fired f =>
    obtain ⟨rfl, env', environment', w, wanted, own⟩ := told.attended.fired k f listed
    cases environment.symm.trans environment'
    cases write
    exact .fired wanted own rfl rfl
  | did i d =>
    obtain ⟨answer, rfl⟩ : ∃ answer, d = .asked (.publish port v) answer := by
      simp only [Happening.write?, Deed.write?] at write
      split at write
      · cases write
        exact ⟨_, rfl⟩
      · cases write
    have course := told.environment environment listed
    rw [split, Chronicle.of_split] at course
    obtain ⟨a, since, here, requested⟩ := course.asked _ _ _ _ rfl
    generalize own : before.history.of i = ds at here
    cases here with
    | leaving origin _ => exact (requested.asks (Environment.notes_leave origin)).elim
    | visiting earlier id _ =>
      rcases Environment.published_visit builtin requested with ⟨first, later, rfl, supplies⟩ | ⟨rfl, gives⟩
      · have done : before.history.of i = (earlier ++ .arrived id :: first) ++ later := by simpa using own
        exact .supplied done supplies
      · exact .given own gives

end Session

end ActionGraph
