import ActionGraph.Proofs.Session.Turn

/-!
How the tasks of a session change with its moves. A task changes by its own turns and when what it
waits for is settled; new tasks are the pulses that events begin. Graphs and behaviors of the runs
there are never change.
-/

namespace ActionGraph

/-- How a task is after a move, and what it did in it. -/
inductive Task.Evolves (s : Session) (i : Nat) (t : Task) : Task → List Deed → Prop
  | stays {t' : Task} : t'.run = t.run → t'.work = t.work → Evolves s i t t' []
  | settles (result : Except Fault Unit) : Evolves s i t { t with work := t.work.settle result } []
  | advances : Evolves s i t { t with work := t.after s } (s.deeds i)

/-- A pulse that an event of a run has just begun. -/
def Task.Begun (s : Session) (t : Task) : Prop :=
  ∃ env origin, s.environment? t.run = some env ∧ t = ⟨t.run, true, false, .pulse (.leaving env origin)⟩

theorem Task.Evolves.run_eq {s : Session} {i : Nat} {t t' : Task} {ds : List Deed}
    (h : t.Evolves s i t' ds) : t'.run = t.run := by
  cases h with
  | stays run work => exact run
  | settles result => rfl
  | advances => rfl

/-- A run without what its pulses change. -/
def GraphRun.fixed (r : GraphRun) : GraphRun := { r with memory := .empty, inFlight := [] }

namespace Session

theorem environment?_of_fixed {s s' : Session} (h : s'.runs.map GraphRun.fixed = s.runs.map GraphRun.fixed)
    (k : Nat) : s'.environment? k = s.environment? k := by
  have item := congrArg (fun l => (l[k]?).map (·.environment)) h
  simp only [List.getElem?_map, Option.map_map] at item
  exact item

/-- Pulses are begun, and nothing else happens to tasks and runs. -/
structure Grows (s s' : Session) : Prop where
  tasks : ∃ begun, s'.tasks = s.tasks ++ begun ∧ ∀ t ∈ begun, t.Begun s
  runs : s'.runs.map GraphRun.fixed = s.runs.map GraphRun.fixed

theorem Grows.of_eq {s s' : Session} (tasks : s'.tasks = s.tasks) (runs : s'.runs = s.runs) : Grows s s' :=
  ⟨⟨[], by rw [tasks, List.append_nil], nofun⟩, by rw [runs]⟩

theorem Grows.trans {a b c : Session} (h : Grows a b) (k : Grows b c) : Grows a c := by
  obtain ⟨first, hf, bornFirst⟩ := h.tasks
  obtain ⟨second, hs, bornSecond⟩ := k.tasks
  refine ⟨⟨first ++ second, by rw [hs, hf, List.append_assoc], ?_⟩, k.runs.trans h.runs⟩
  intro t ht
  rcases List.mem_append.mp ht with ht | ht
  · exact bornFirst t ht
  · obtain ⟨env, origin, he, eq⟩ := bornSecond t ht
    exact ⟨env, origin, environment?_of_fixed h.runs _ ▸ he, eq⟩

variable {s : Session}

theorem map_modify_same {α β : Type} {l : List α} {i : Nat} {f : α → α} {g : α → β}
    (same : ∀ x, g (f x) = g x) : (l.modify i f).map g = l.map g := by
  apply List.ext_getElem?
  intro j
  simp only [List.getElem?_map, List.getElem?_modify]
  cases l[j]? with
  | none => rfl
  | some x => by_cases h : i = j <;> simp [h, same]

/-- All that a call of a listener can come to: nothing, a snapshot that cannot be made, or a pulse. -/
inductive Notified (s : Session) (l : Listener) (payload : Value) : Session × Except Fault Bool → Prop
  | unarmed : (∀ r, s.runs[l.run]? = some r → r.armed = false) → Notified s l payload (s, .ok false)
  | refused {r : GraphRun} {f : Fault} : s.runs[l.run]? = some r → r.armed = true →
      (s.snapshot l.eventClass payload).2 = .error f →
      Notified s l payload ((s.snapshot l.eventClass payload).1, .error f)
  | begun {r : GraphRun} {e : Snapshot} : s.runs[l.run]? = some r → r.armed = true →
      (s.snapshot l.eventClass payload).2 = .ok e →
      Notified s l payload ((s.snapshot l.eventClass payload).1.beginPulse r l e, .ok true)

theorem notified (s : Session) (l : Listener) (payload : Value) : s.Notified l payload (s.notify l payload) := by
  unfold notify
  split
  · rename_i none
    exact .unarmed fun r hr => by simp [none] at hr
  · rename_i r hr
    split
    · rename_i armed
      split
      · rename_i s' f h
        have refused : s.Notified l payload _ := .refused hr armed (congrArg Prod.snd h)
        rwa [h] at refused
      · rename_i s' e h
        have begun : s.Notified l payload _ := .begun hr armed (congrArg Prod.snd h)
        rwa [h] at begun
    · rename_i unarmed
      exact .unarmed fun k hk => by simp_all

theorem snapshot_fst (eventClass : String) (payload : Value) :
    (s.snapshot eventClass payload).1 = { s with outside := s.outside.readClock.2 } := rfl

section

variable (s : Session) (r : GraphRun) (l : Listener) (e : Snapshot)

theorem tasks_beginPulse : (s.beginPulse r l e).tasks =
    s.tasks ++ [⟨l.run, true, false, .pulse (.leaving r.environment l.origin)⟩] := rfl

/-- A run in which a pulse has begun remembers the event, and the pulse is in flight. Other runs are as
they were. -/
theorem runs_beginPulse : (s.beginPulse r l e).runs = s.runs.modify l.run fun q => { q with
    memory := ⟨r.memory.cache.publish l.eventPort (.event e), some e⟩
    inFlight := q.inFlight ++ [s.tasks.length] } := by
  unfold beginPulse
  simp only [modifyRun, adopt, spawn, enqueue, scene, Scene.publish, List.modify_modify_eq]
  rfl

theorem length_beginPulse : (s.beginPulse r l e).runs.length = s.runs.length := by
  rw [runs_beginPulse, List.length_modify]

end

theorem grows_beginPulse {r : GraphRun} {l : Listener} (hr : s.environment? l.run = some r.environment)
    (e : Snapshot) : Grows s (s.beginPulse r l e) := by
  refine ⟨⟨[⟨l.run, true, false, .pulse (.leaving r.environment l.origin)⟩], tasks_beginPulse s r l e, ?_⟩, ?_⟩
  · intro t ht
    rw [List.mem_singleton.mp ht]
    exact ⟨r.environment, l.origin, hr, rfl⟩
  · rw [runs_beginPulse]
    exact map_modify_same fun _ => rfl

theorem grows_notify (l : Listener) (payload : Value) : Grows s (s.notify l payload).1 := by
  have h := notified s l payload
  generalize s.notify l payload = result at h
  cases h with
  | unarmed _ => exact .of_eq rfl rfl
  | refused _ _ _ => exact .of_eq rfl rfl
  | begun hr _ _ =>
    have clock : Grows s (s.snapshot l.eventClass payload).1 := .of_eq rfl rfl
    exact clock.trans (grows_beginPulse (by simp [environment?, snapshot_fst, hr]) _)

/-- What every call keeps holds after all of them, however many there are before one fails. -/
theorem notifyAll_keeps {P : Session → Prop} (payload : Value) {ls : List Listener}
    (keeps : ∀ s, ∀ l ∈ ls, P s → P (s.notify l payload).1) (h : P s) : P (s.notifyAll payload ls).1 := by
  induction ls generalizing s with
  | nil => exact h
  | cons l ls ih =>
    have first := keeps s l List.mem_cons_self h
    unfold notifyAll
    generalize s.notify l payload = called at first
    obtain ⟨s', result⟩ := called
    cases result with
    | error f => exact first
    | ok _ => exact ih (fun s k listed => keeps s k (List.mem_cons_of_mem l listed)) first

theorem grows_notifyAll (payload : Value) (ls : List Listener) : Grows s (s.notifyAll payload ls).1 :=
  notifyAll_keeps (P := Grows s) payload (fun _ l _ h => h.trans (grows_notify l payload)) (.of_eq rfl rfl)

theorem grows_happen (c : Channel) (x y : Value) : Grows s (s.happen c x y).1 :=
  grows_notifyAll _ _

theorem grows_call (run place : Nat) (payload : Value) : Grows s (s.call run place payload) := by
  unfold call
  split
  · exact grows_notify _ _
  · exact .of_eq rfl rfl

theorem modify_congr {α : Type} {l : List α} {i : Nat} {x : α} (h : l[i]? = some x) {f g : α → α}
    (same : f x = g x) : l.modify i f = l.modify i g := by
  apply List.ext_getElem?
  intro j
  by_cases hij : i = j
  · subst hij
    simp [h, same]
  · simp [hij]

theorem tasks_advance (i : Nat) :
    (s.advance i).tasks = s.tasks.modify i fun t => { t with work := t.after s } := by
  unfold advance
  split
  · rename_i none
    exact (List.modify_eq_self (List.getElem?_eq_none_iff.mp none)).symm
  · rename_i t ht
    split
    · rename_i cancelled
      rw [tasks_conclude]
      exact modify_congr ht (by simp [Task.after, cancelled])
    · rename_i active
      split
      · rename_i r p hr hw
        rw [(advancePulse_spec s i t r p).1]
        exact modify_congr ht (by simp [Task.after, active, hr, hw])
      · rename_i r thread hr hw
        rw [(advanceLookup_spec s i t r thread).1]
        exact modify_congr ht (by simp [Task.after, active, hr, hw])
      · rename_i noPulse noLookup
        have same : t.after s = t.work := by
          unfold Task.after
          rw [if_neg active]
          split
          · exact absurd ‹_› (noPulse _ _ ‹_›)
          · exact absurd ‹_› (noLookup _ _ ‹_›)
          · rfl
        rw [modify_congr ht (g := id) (by simp [same]), List.modify_id]
        rfl

theorem runs_advance {β : Type} {g : GraphRun → β}
    (blind : ∀ (r : GraphRun) (m : Memory), g { r with memory := m } = g r) (i : Nat) :
    (s.advance i).runs.map g = s.runs.map g := by
  unfold advance
  split
  · rfl
  · split
    · rw [runs_conclude]
    · split
      · rw [(advancePulse_spec s i _ _ _).2.1]
        exact map_modify_same fun r => blind r _
      · rw [(advanceLookup_spec s i _ _ _).2.1]
        exact map_modify_same fun r => blind r _
      · rfl

theorem fixed_advance (i : Nat) : (s.advance i).runs.map GraphRun.fixed = s.runs.map GraphRun.fixed :=
  runs_advance (fun _ _ => rfl) i

@[simp] theorem tasks_complete (i : Nat) : (s.complete i).tasks = s.tasks := by
  unfold complete
  split
  · rfl
  · dsimp only
    split <;> rfl

theorem runs_complete {β : Type} {g : GraphRun → β}
    (blind : ∀ (r : GraphRun) (ids : List Nat), g { r with inFlight := ids } = g r) (i : Nat) :
    (s.complete i).runs.map g = s.runs.map g := by
  unfold complete
  split
  · rfl
  · dsimp only
    split <;> exact map_modify_same fun r => blind r _

theorem fixed_complete (i : Nat) : (s.complete i).runs.map GraphRun.fixed = s.runs.map GraphRun.fixed :=
  runs_complete (fun _ _ => rfl) i

theorem tasks_settle (gate : Nat) (result : Except Fault Unit) :
    (s.settle gate result).1.tasks = s.tasks ∨
      ∃ i, (s.settle gate result).1.tasks = s.tasks.modify i fun t => { t with work := t.work.settle result } := by
  unfold settle
  split
  · exact .inl rfl
  · exact .inr ⟨_, rfl⟩

theorem runs_settle (gate : Nat) (result : Except Fault Unit) : (s.settle gate result).1.runs = s.runs := by
  unfold settle
  split <;> rfl

theorem tasks_cancelTask (i j : Nat) {t : Task} (h : s.tasks[j]? = some t) :
    ∃ c, (s.cancelTask i).tasks[j]? = some { t with cancelled := c } := by
  unfold cancelTask
  split
  · exact ⟨t.cancelled, h⟩
  · refine ⟨if i = j then true else t.cancelled, ?_⟩
    dsimp only
    split <;> by_cases hij : i = j <;> simp [enqueue, h, hij]

theorem length_cancelTask (i : Nat) : (s.cancelTask i).tasks.length = s.tasks.length := by
  unfold cancelTask
  split
  · rfl
  · dsimp only
    split <;> simp [enqueue]

theorem runs_cancelTask (i : Nat) : (s.cancelTask i).runs = s.runs := by
  unfold cancelTask
  split
  · rfl
  · dsimp only
    split <;> rfl

theorem cancel_keeps {P : Session → Prop} (keeps : ∀ s i, P s → P (s.cancelTask i))
    (h : P s) (run : Nat) : P (s.cancel run) := by
  unfold cancel
  split
  · exact h
  · rename_i r found
    clear found
    generalize r.inFlight = ids
    induction ids generalizing s with
    | nil => exact h
    | cons i ids ih => exact ih (keeps s i h)

theorem tasks_cancel (run : Nat) {t : Task} {j : Nat} (h : s.tasks[j]? = some t) :
    ∃ c, (s.cancel run).tasks[j]? = some { t with cancelled := c } := by
  refine cancel_keeps (P := fun s' => ∃ c, s'.tasks[j]? = some { t with cancelled := c }) ?_ ⟨t.cancelled, h⟩ run
  rintro s' i ⟨c, hc⟩
  obtain ⟨c', hc'⟩ := tasks_cancelTask i j hc
  exact ⟨c', hc'⟩

theorem length_cancel (run : Nat) : (s.cancel run).tasks.length = s.tasks.length :=
  cancel_keeps (P := fun s' => s'.tasks.length = s.tasks.length)
    (fun _ i h => (length_cancelTask i).trans h) rfl run

theorem runs_cancel (run : Nat) : (s.cancel run).runs = s.runs :=
  cancel_keeps (P := fun s' => s'.runs = s.runs) (fun _ i h => (runs_cancelTask i).trans h) rfl run

theorem tasks_start (env : Environment) : (s.start env).1.tasks = s.tasks := by
  unfold start
  dsimp only
  split <;> rfl

theorem runs_start (env : Environment) :
    ∃ r, (s.start env).1.runs = s.runs ++ [r] ∧ r.environment = env ∧ r.memory = .empty := by
  unfold start
  dsimp only
  split <;> exact ⟨_, rfl, rfl, rfl⟩

def disarmed (r : GraphRun) : GraphRun := { r with armed := false, subscriptions := [], stopped := true }

theorem stop_keeps {P : Session → Prop} (h : P s) (run : Nat)
    (disarms : ∀ ws, P { s.modifyRun run disarmed with
      outside := (s.outside.disarm ws).diagnose "[LISTENERS] Disarmed" }) : P (s.stop run) := by
  unfold stop
  split
  · exact h
  · split
    · exact h
    · exact disarms _

theorem grows_prefer (place : Nat) : Grows s (s.prefer place) := by
  unfold prefer
  split <;> exact .of_eq rfl rfl

/-- What a move does to tasks: those there are do what they do in their own turns and otherwise
change only when they are settled, new ones have just begun, and no environment changes. -/
structure Changed (s : Session) (ds : Nat → List Deed) (s' : Session) : Prop where
  evolved : ∀ (i : Nat) (t : Task), s.tasks[i]? = some t →
    ∃ t', s'.tasks[i]? = some t' ∧ t.Evolves s i t' (ds i)
  begun : ∀ (i : Nat) (t' : Task), s'.tasks[i]? = some t' → s.tasks[i]? = none → t'.Begun s
  environments : ∀ (k : Nat) (env : Environment), s.environment? k = some env → s'.environment? k = some env

theorem Changed.of_length {s s' : Session} {ds : Nat → List Deed} (same : s'.tasks.length = s.tasks.length)
    (evolved : ∀ (i : Nat) (t : Task), s.tasks[i]? = some t →
      ∃ t', s'.tasks[i]? = some t' ∧ t.Evolves s i t' (ds i))
    (environments : ∀ (k : Nat) (env : Environment), s.environment? k = some env → s'.environment? k = some env) :
    s.Changed ds s' := by
  refine ⟨evolved, fun i t' ht new => ?_, environments⟩
  have bound := (List.getElem?_eq_some_iff.mp ht).1
  have beyond := List.getElem?_eq_none_iff.mp new
  omega

theorem Changed.of_tasks {s' : Session} (same : s'.tasks = s.tasks)
    (environments : ∀ (k : Nat) (env : Environment), s.environment? k = some env → s'.environment? k = some env) :
    s.Changed (fun _ => []) s' :=
  .of_length (congrArg List.length same) (fun _ t ht => ⟨t, by rw [same, ht], .stays rfl rfl⟩) environments

theorem Grows.changed {s' : Session} (h : Grows s s') : s.Changed (fun _ => []) s' := by
  obtain ⟨begun, eq, born⟩ := h.tasks
  refine ⟨fun i t ht => ?_, fun i t' ht new => ?_, fun k env hk => (environment?_of_fixed h.runs k).trans hk⟩
  · have bound : i < s.tasks.length := (List.getElem?_eq_some_iff.mp ht).1
    exact ⟨t, by rw [eq, List.getElem?_append_left bound, ht], .stays rfl rfl⟩
  · rw [eq, List.getElem?_append_right (List.getElem?_eq_none_iff.mp new)] at ht
    exact born t' (List.mem_of_getElem? ht)

theorem changed_settle (gate : Nat) (result : Except Fault Unit) :
    s.Changed (fun _ => []) (s.settle gate result).1 := by
  have environments : ∀ (k : Nat) (env : Environment),
      s.environment? k = some env → (s.settle gate result).1.environment? k = some env := by
    intro k env hk
    rwa [environment?, runs_settle]
  rcases tasks_settle (s := s) gate result with eq | ⟨j, eq⟩
  · exact .of_tasks eq environments
  · refine .of_length (by rw [eq, List.length_modify]) (fun i t ht => ?_) environments
    rw [eq]
    by_cases h : j = i
    · subst h
      exact ⟨_, by rw [List.getElem?_modify_eq, ht]; rfl, .settles result⟩
    · exact ⟨t, by rw [List.getElem?_modify_ne _ _ h, ht], .stays rfl rfl⟩

theorem changed_start (env : Environment) : s.Changed (fun _ => []) (s.start env).1 := by
  refine .of_tasks (tasks_start env) fun k own hk => ?_
  obtain ⟨r, eq, _⟩ := runs_start (s := s) env
  obtain ⟨run, found, rfl⟩ := Option.map_eq_some_iff.mp hk
  have bound : k < s.runs.length := (List.getElem?_eq_some_iff.mp found).1
  rw [environment?, eq, List.getElem?_append_left bound, found]
  rfl

theorem changed_stop (run : Nat) : s.Changed (fun _ => []) (s.stop run) := by
  refine stop_keeps (.of_tasks rfl fun _ _ h => h) run fun ws => .of_tasks rfl fun k env hk => ?_
  obtain ⟨r, found, rfl⟩ := Option.map_eq_some_iff.mp hk
  simp only [environment?, modifyRun, List.getElem?_modify, found]
  by_cases h : run = k <;> simp [h, disarmed]

theorem changed_cancel (run : Nat) : s.Changed (fun _ => []) (s.cancel run) := by
  refine .of_length (length_cancel run) (fun i t ht => ?_) fun k env hk => ?_
  · obtain ⟨c, hc⟩ := tasks_cancel run ht
    exact ⟨_, hc, .stays rfl rfl⟩
  · rwa [environment?, runs_cancel]

theorem changed_advance (j : Nat) : s.Changed (History.of ((s.deeds j).map fun d => (j, d))) (s.advance j) := by
  refine .of_length (by rw [tasks_advance, List.length_modify]) (fun i t ht => ?_)
    fun k env hk => (environment?_of_fixed (fixed_advance j) k).trans hk
  rw [tasks_advance]
  by_cases h : j = i
  · subst h
    rw [History.of_map_self]
    exact ⟨_, by rw [List.getElem?_modify_eq, ht]; rfl, .advances⟩
  · rw [History.of_map_other h]
    exact ⟨t, by rw [List.getElem?_modify_ne _ _ h, ht], .stays rfl rfl⟩

theorem fixed_step : (s.step?.getD s).runs.map GraphRun.fixed = s.runs.map GraphRun.fixed :=
  step_keeps (P := fun s' => s'.runs.map GraphRun.fixed = s.runs.map GraphRun.fixed) s rfl
    (fun i _ => fixed_advance i) (fun _ _ _ _ => rfl) fun i _ _ _ => fixed_complete i

theorem changed_step : s.Changed (s.deedsOf (.cue .step)).of (s.step?.getD s) := by
  have environments : ∀ (k : Nat) (env : Environment),
      s.environment? k = some env → (s.step?.getD s).environment? k = some env :=
    fun k env hk => (environment?_of_fixed fixed_step k).trans hk
  unfold deedsOf
  cases turned : s.running with
  | some i =>
    rw [step_running turned]
    exact changed_advance i
  | none =>
    refine .of_tasks ?_ environments
    refine step_keeps (P := fun s' => s'.tasks = s.tasks) s rfl (fun i turn => ?_) (fun _ _ _ _ => rfl)
      fun i _ _ _ => ?_
    · rw [turned] at turn
      cases turn
    · exact tasks_complete i

theorem changed_undergo (m : Move) : s.Changed (fun _ => []) (s.undergo m) := by
  cases m with
  | cue c =>
    cases c with
    | step => exact .of_tasks rfl fun _ _ h => h
    | prefer place => exact (grows_prefer place).changed
    | addTarget selector => exact .of_tasks rfl fun _ _ h => h
    | happen channel x y => exact (grows_happen channel x y).changed
    | call run place payload => exact (grows_call run place payload).changed
    | settle gate result => exact changed_settle gate result
    | stop run => exact changed_stop run
  | start env => exact changed_start env
  | cancel run => exact changed_cancel run

theorem changed_move (m : Move) : s.Changed (s.deedsOf m).of (s.move m) := by
  by_cases steps : m = .cue .step
  · subst steps
    exact changed_step
  · rw [deedsOf_other s steps, move_other steps]
    split
    · exact .of_tasks rfl fun _ _ h => h
    · exact changed_undergo m

theorem environment?_follow {k : Nat} {env : Environment} (environment : s.environment? k = some env)
    (moves : List Move) : (s.follow moves).environment? k = some env :=
  follow_keeps (fun s m h => (s.changed_move m).environments k env h) environment moves

theorem environment?_first (o : Outside) (env : Environment) (moves : List Move) :
    ((empty o).follow (.start env :: moves)).environment? 0 = some env := by
  have started : ((empty o).start env).1.environment? 0 = some env := by
    obtain ⟨r, runs, rfl, _⟩ := runs_start (s := empty o) env
    rw [environment?, runs]
    rfl
  exact environment?_follow started moves

end Session

end ActionGraph
