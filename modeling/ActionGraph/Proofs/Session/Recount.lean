import ActionGraph.Proofs.Session.Audience
import ActionGraph.Proofs.Session.Chronicle

/-!
How a session and its chronicle go on together. Whatever the move, a session goes on by four kinds
of things only: a run is started, a listener accepts an event, a task does what it does in its turn,
or nothing happens that a chronicle tells. What each of the four keeps holds in every session.
-/

namespace ActionGraph

/-- What the tasks of a run go by. -/
def GraphRun.kept (r : GraphRun) : Environment × Memory := (r.environment, r.memory)

namespace Session

/-- Nothing has happened that a chronicle tells. A task may have been settled, cancelled or taken
note of, listeners may have gone, and it may be the turn of another. -/
structure Quiet (s s' : Session) : Prop where
  stock : s'.outside.stock = s.outside.stock
  heard : ∀ A, s.outside.HeardBy A → s'.outside.HeardBy A
  runs : s'.runs.map GraphRun.kept = s.runs.map GraphRun.kept
  tasks : s'.tasks.length = s.tasks.length
  evolved : ∀ (i : Nat) (t : Task), s.tasks[i]? = some t →
    ∃ t', s'.tasks[i]? = some t' ∧ t'.run = t.run ∧ (t'.work = t.work ∨ ∃ result, t'.work = t.work.settle result)

/-- Someone calls this listener: the host, or whoever has its handler. -/
def Hears (s : Session) (l : Listener) : Prop :=
  (∃ c, l ∈ s.outside.host.subscriptions.handlers c) ∨ ∃ run place, s.handler? run place = some l

/-- What sessions and their chronicles keep, whatever happens, as long as `K` holds of them. -/
structure Steady (K P : Session → Chronicle → Prop) : Prop where
  quiet : ∀ {s s' : Session} {h : Chronicle}, K s h → P s h → s.Quiet s' → P s' h
  started : ∀ {s : Session} {h : Chronicle} (env : Environment), K s h → P s h → P (s.start env).1 h
  fired : ∀ {s : Session} {h : Chronicle} {l : Listener} {r : GraphRun} (e : Snapshot), K s h → P s h → s.Hears l →
    s.runs[l.run]? = some r → P (s.beginPulse r l e) (h ++ [Firing.happening ⟨l, e, s.tasks.length⟩])
  turned : ∀ {s : Session} {h : Chronicle} {i : Nat} {t : Task}, K s h → P s h → s.tasks[i]? = some t →
    P (s.advance i) (h ++ Chronicle.deeds t.run i (s.deeds i))

variable {s s' : Session} {K P : Session → Chronicle → Prop} {h : Chronicle}

theorem Quiet.of_same (stock : s'.outside.stock = s.outside.stock)
    (heard : ∀ A, s.outside.HeardBy A → s'.outside.HeardBy A)
    (runs : s'.runs.map GraphRun.kept = s.runs.map GraphRun.kept) (tasks : s'.tasks = s.tasks) : s.Quiet s' where
  stock := stock
  heard := heard
  runs := runs
  tasks := by rw [tasks]
  evolved i t task := ⟨t, by rw [tasks, task], rfl, .inl rfl⟩

theorem quiet_settle (gate : Nat) (result : Except Fault Unit) : s.Quiet (s.settle gate result).1 := by
  have heard : ∀ A, s.outside.HeardBy A → (s.settle gate result).1.outside.HeardBy A := by
    unfold settle
    split <;> exact fun _ heard => heard
  have runs := congrArg (List.map GraphRun.kept) (runs_settle (s := s) gate result)
  rcases tasks_settle (s := s) gate result with same | ⟨j, changed⟩
  · exact .of_same (s.stock_settle gate result) heard runs same
  · refine ⟨s.stock_settle gate result, heard, runs, by simp [changed], fun i t task => ?_⟩
    by_cases own : j = i
    · subst own
      exact ⟨{ t with work := t.work.settle result }, by simp [changed, task], rfl, .inr ⟨result, rfl⟩⟩
    · exact ⟨t, by simp [changed, own, task], rfl, .inl rfl⟩

theorem quiet_stop (run : Nat) : s.Quiet (s.stop run) := by
  refine stop_keeps (P := Quiet s) (.of_same rfl (fun _ heard => heard) rfl rfl) run fun ws => ?_
  exact .of_same (s.outside.stock_disarm ws) (fun _ heard => heard.disarm ws) (map_modify_same fun _ => rfl) rfl

theorem quiet_cancel (run : Nat) : s.Quiet (s.cancel run) := by
  refine ⟨s.stock_cancel run, ?_, by rw [runs_cancel], length_cancel run, fun i t task => ?_⟩
  · intro A heard
    refine cancel_keeps (P := fun s => s.outside.HeardBy A) (fun s' i heard => ?_) heard run
    unfold cancelTask
    split
    · exact heard
    · dsimp only
      split <;> exact heard
  · obtain ⟨c, found⟩ := tasks_cancel run task
    exact ⟨_, found, rfl, .inl rfl⟩

theorem quiet_prefer (place : Nat) : s.Quiet (s.prefer place) := by
  unfold prefer
  split <;> exact .of_same rfl (fun _ heard => heard) rfl rfl

theorem quiet_addTarget (selector : String) : s.Quiet (s.addTarget selector) := by
  refine .of_same (s.stock_addTarget selector) (fun A heard => heard.of_premises ?_) rfl rfl
  unfold addTarget Outside.premises
  dsimp only [Host.addTarget]
  split <;> rfl

theorem quiet_clock (eventClass : String) (payload : Value) : s.Quiet (s.snapshot eventClass payload).1 :=
  .of_same rfl (fun _ heard => heard) rfl rfl

theorem quiet_step (idle : s.running = none) : s.Quiet (s.step?.getD s) := by
  have same : s.Quiet s := .of_same rfl (fun _ heard => heard) rfl rfl
  refine step_keeps (P := Quiet s) s same (fun i turned => ?_) (fun i rest _ _ => ?_) fun i rest _ _ => ?_
  · simp [idle] at turned
  · exact .of_same rfl (fun _ heard => heard) rfl rfl
  · exact .of_same (stock_complete _ i) (fun _ heard => heard.of_premises (premises_complete _ i))
      (runs_complete (s := { s with queue := rest }) (fun _ _ => rfl) i) (tasks_complete i)

theorem handler?_eq (run place : Nat) : s.handler? run place = (s.environment? run).bind fun env =>
    ((env.wanted run).find? fun w => w.listener.index == place).map (·.listener) := by
  unfold handler? environment?
  cases s.runs[run]? <;> rfl

theorem Hears.notify {k : Listener} (hears : s.Hears k) (l : Listener) (payload : Value) :
    (s.notify l payload).1.Hears k := by
  have subscriptions : (s.notify l payload).1.outside.host.subscriptions = s.outside.host.subscriptions := by
    have called := notified s l payload
    generalize s.notify l payload = result at called
    cases called <;> rfl
  rcases hears with ⟨c, listed⟩ | ⟨run, place, found⟩
  · exact .inl ⟨c, subscriptions ▸ listed⟩
  · refine .inr ⟨run, place, ?_⟩
    rw [handler?_eq] at found ⊢
    rwa [environment?_of_fixed (grows_notify l payload).runs]

/-- What is kept as long as `K` holds is kept together with `K`, if `K` itself always is. -/
theorem Steady.and (first : Steady (fun _ _ => True) K) (second : Steady K P) :
    Steady (fun _ _ => True) fun s h => K s h ∧ P s h where
  quiet _ held quiet := ⟨first.quiet trivial held.1 quiet, second.quiet held.1 held.2 quiet⟩
  started env _ held := ⟨first.started env trivial held.1, second.started env held.1 held.2⟩
  fired e _ held hears run := ⟨first.fired e trivial held.1 hears run, second.fired e held.1 held.2 hears run⟩
  turned _ held task := ⟨first.turned trivial held.1 task, second.turned held.1 held.2 task⟩

namespace Steady

variable (steady : Steady (fun _ _ => True) P)

include steady

theorem notify (held : P s h) {l : Listener} (hears : s.Hears l) (payload : Value) :
    P (s.notify l payload).1 (h ++ (s.firing? l payload).toList.map Firing.happening) := by
  unfold firing?
  have called := notified s l payload
  generalize s.notify l payload = result at called
  cases called with
  | unarmed _ => simpa using held
  | refused _ _ _ => simpa using steady.quiet trivial held (quiet_clock _ _)
  | begun run _ made =>
    have noted := steady.quiet trivial held (quiet_clock l.eventClass payload)
    rw [made]
    exact steady.fired _ trivial noted hears run

theorem notifyAll (held : P s h) {ls : List Listener} (hears : ∀ l ∈ ls, s.Hears l) (payload : Value) :
    P (s.notifyAll payload ls).1 (h ++ (s.firings payload ls).map Firing.happening) := by
  induction ls generalizing s h with
  | nil => simpa [Session.notifyAll, firings] using held
  | cons l ls ih =>
    have first := steady.notify held (hears l List.mem_cons_self) payload
    have still : ∀ k ∈ ls, (s.notify l payload).1.Hears k :=
      fun k listed => (hears k (List.mem_cons_of_mem l listed)).notify l payload
    unfold Session.notifyAll firings
    rcases called : s.notify l payload with ⟨s', _ | _⟩
    · simpa [called] using first
    · rw [called] at first still
      simpa [List.append_assoc] using ih first still

theorem step (held : P s h) : P (s.step?.getD s) (h ++ s.turnOf (.cue .step)) := by
  unfold turnOf
  cases turned : s.running with
  | none => simpa using steady.quiet trivial held (quiet_step turned)
  | some i =>
    rw [step_running turned]
    cases task : s.tasks[i]? with
    | none =>
      have rested : P s.rest h := steady.quiet trivial held (.of_same rfl (fun _ heard => heard) rfl rfl)
      simpa [advance, task] using rested
    | some t => simpa [task] using steady.turned trivial held task

theorem undergo (held : P s h) (idle : s.running = none) (m : Move) :
    P (s.undergo m) (h ++ (s.firingsOf m).map Firing.happening) := by
  unfold firingsOf
  cases m with
  | cue c =>
    cases c with
    | happen c x y =>
      have hears : ∀ l ∈ s.outside.host.listeners c, s.Hears l := by
        intro l listed
        unfold Host.listeners at listed
        split at listed
        · exact .inl ⟨c, listed⟩
        · cases listed
      simpa [idle, Session.undergo, happen] using steady.notifyAll held hears (Host.payload c.eventClass x y)
    | call run place payload =>
      cases found : s.handler? run place with
      | none => simpa [idle, Session.undergo, call, found] using held
      | some l => simpa [idle, Session.undergo, call, found] using steady.notify held (.inr ⟨run, place, found⟩) payload
    | step => simpa [idle, Session.undergo] using held
    | prefer place => simpa [idle, Session.undergo] using steady.quiet trivial held (quiet_prefer place)
    | addTarget selector => simpa [idle, Session.undergo] using steady.quiet trivial held (quiet_addTarget selector)
    | settle gate result => simpa [idle, Session.undergo] using steady.quiet trivial held (quiet_settle gate result)
    | stop run => simpa [idle, Session.undergo] using steady.quiet trivial held (quiet_stop run)
  | start env => simpa [idle, Session.undergo] using steady.started env trivial held
  | cancel run => simpa [idle, Session.undergo] using steady.quiet trivial held (quiet_cancel run)

theorem move (held : P s h) (m : Move) : P (s.move m) (h ++ s.happenings m) := by
  by_cases steps : m = .cue .step
  · subst steps
    have none : s.firingsOf (.cue .step) = [] := by simp [firingsOf]
    simpa [happenings, none, Session.move] using steady.step held
  · have none : s.turnOf m = [] := by
      unfold turnOf
      split
      · exact absurd rfl steps
      · rfl
    rw [move_other steps, happenings, none, List.append_nil]
    cases idle : s.running with
    | some i => simpa [firingsOf, idle] using held
    | none => simpa using steady.undergo held idle m

/-- What every kind of happening keeps holds of every session and what has happened in it. -/
theorem follow (held : P s h) (moves : List Move) : P (s.follow moves) (h ++ s.chronicle moves) :=
  chronicle_keeps (P := P) (fun _ _ m held => steady.move held m) held moves

end Steady

end Session

end ActionGraph
