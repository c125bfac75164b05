import ActionGraph.Proofs.Pulse.Abreast
import ActionGraph.Proofs.Session.Delivery
import ActionGraph.Proofs.Session.Ending
import ActionGraph.Proofs.Session.Replies

/-!
Whether a session comes to rest. On a host that settles its animations itself, pulses on finite ways all
end, however many there are, whatever they do in between and in whichever order they take their turns: every
turn takes one of them a step further, and between two turns the queue only gets shorter.
-/

namespace ActionGraph

/-- One member of a list is replaced. -/
inductive OnePlace {α : Type} (r : α → α → Prop) : List α → List α → Prop
  | here {a b : α} {l : List α} : r a b → OnePlace r (a :: l) (b :: l)
  | there {a : α} {l l' : List α} : OnePlace r l l' → OnePlace r (a :: l) (a :: l')

namespace OnePlace

variable {α : Type} {r : α → α → Prop} {a : α} {l : List α}

theorem acc_cons (head : Acc r a) (tail : Acc (OnePlace r) l) : Acc (OnePlace r) (a :: l) := by
  induction tail generalizing a with
  | intro l _ inTail =>
    induction head with
    | intro a below inHead =>
      refine .intro _ fun before replaced => ?_
      cases replaced with
      | here smaller => exact inHead _ smaller
      | there shorter => exact inTail _ shorter (.intro a below)

/-- If no member can be replaced forever, then the list cannot be changed forever. -/
theorem acc (members : ∀ a ∈ l, Acc r a) : Acc (OnePlace r) l := by
  induction l with
  | nil => exact .intro _ fun _ replaced => nomatch replaced
  | cons a l ih =>
    exact acc_cons (members a List.mem_cons_self) (ih fun b listed => members b (List.mem_cons_of_mem a listed))

theorem modify {i : Nat} (there : l[i]? = some a) {f : α → α} (replaced : r (f a) a) : OnePlace r (l.modify i f) l := by
  induction l generalizing i with
  | nil => cases there
  | cons b l ih =>
    cases i with
    | zero =>
      cases there
      exact .here replaced
    | succ i => exact .there (ih there)

end OnePlace

/-- A pulse on a finite way, in this environment, that was not cancelled and waits for nothing from outside. -/
structure Task.Unhindered (env : Environment) (t : Task) : Prop where
  active : t.cancelled = false
  awake : t.work.waits = false
  kept : t.work ≠ .dropped
  finite : t.work.Finite env
  roams : ∃ stack came, t.work.Roams env stack came

/-- All tasks are such pulses, on a host that settles its animations itself and scales time like this. -/
structure Session.Unhindered (T : Value) (env : Environment) (s : Session) : Prop where
  landing : ∃ noted, s.Landing noted
  usual : s.outside.Usual T
  tasks : ∀ t ∈ s.tasks, t.Unhindered env ∧ s.environment? t.run = some env

/-- Nobody has the turn, and nobody is due to have it. -/
structure Session.Resting (s : Session) : Prop where
  running : s.running = none
  queue : s.queue = []

/-- Whoever has the turn goes on; if nobody has it, the turn at this place in the queue is taken. -/
def Session.turnBy (s : Session) (place : Nat) : Session := (s.move (.cue (.prefer place))).move (.cue .step)

/-- Goes on for a number of steps. For each of them the order tells which turn in the queue comes next. -/
def Session.drainBy (order : Nat → Nat) : (fuel : Nat) → Session → Session
  | 0, s => s
  | fuel + 1, s => drainBy (fun n => order (n + 1)) fuel (s.turnBy (order 0))

theorem Task.unhindered_leaving {env : Environment} {origin : Endpoint} (finite : ¬ env.Circular origin) (run : Nat) :
    (⟨run, true, false, .pulse (.leaving env origin)⟩ : Task).Unhindered env where
  active := rfl
  awake := rfl
  kept := nofun
  finite := Work.finite_leaving (Environment.finishes_of (.inl finite))
  roams := ⟨_, _, .leaving⟩

theorem Pulse.after_kept {env : Environment} {p : Pulse} (progress : Progress (List String)) :
    p.after env progress ≠ .dropped := by
  unfold Pulse.after
  split
  · exact nofun
  · exact nofun
  · split <;> exact nofun

namespace Session

variable {s : Session} {T : Value} {env : Environment}

theorem Unhindered.goes (free : s.Unhindered T env) {i : Nat} (turn : s.running = some i) :
    ∃ t p scene, s.tasks[i]? = some t ∧ t.work = .pulse p ∧ p.visit.waits = false ∧
      t.after s = p.after env (p.visit.perform scene).2 := by
  obtain ⟨noted, landing⟩ := free.landing
  obtain ⟨t, task, left, _⟩ := landing.live turn
  obtain ⟨way, environment⟩ := free.tasks t (List.mem_of_getElem? task)
  obtain ⟨r, run, rfl⟩ := Option.map_eq_some_iff.mp environment
  cases work : t.work with
  | pulse p =>
    have awake : p.visit.waits = false := by simpa [Work.waits, work] using way.awake
    exact ⟨t, p, s.scene r, task, work, awake, by simp [Task.after, way.active, run, work]⟩
  | lookup thread =>
    obtain ⟨_, _, roams⟩ := way.roams
    rw [work] at roams
    exact roams.heads.elim
  | ended result => simp [Work.spent, work] at left
  | dropped => exact absurd work way.kept

/-- In its turn a pulse gets one step further, and nothing else changes about the tasks. -/
theorem Unhindered.onward (free : s.Unhindered T env) {i : Nat} (turn : s.running = some i) :
    OnePlace (fun after before => Work.Leads env before after) ((s.advance i).tasks.map Task.work)
      (s.tasks.map Task.work) := by
  obtain ⟨t, p, scene, task, work, awake, after⟩ := free.goes turn
  have works : (s.advance i).tasks.map Task.work = (s.tasks.map Task.work).modify i fun _ => t.after s := by
    rw [tasks_advance]
    apply List.ext_getElem?
    intro j
    by_cases own : i = j
    · subst own
      simp [task]
    · simp [own]
  rw [works]
  refine .modify (a := t.work) (by rw [List.getElem?_map, task]; rfl) ?_
  rw [work, after]
  exact .goes scene awake

theorem Unhindered.advance (free : s.Unhindered T env) {i : Nat} (turn : s.running = some i) :
    (s.advance i).Unhindered T env := by
  obtain ⟨noted, landing⟩ := free.landing
  refine ⟨⟨noted, landing.advance turn⟩, (Outside.lasting_usual T).advance free.usual i, fun t' listed => ?_⟩
  rw [environment?_of_fixed (fixed_advance i)]
  obtain ⟨j, there⟩ := List.mem_iff_getElem?.mp listed
  rw [tasks_advance, List.getElem?_modify] at there
  obtain ⟨t, task, same⟩ := Option.map_eq_some_iff.mp there
  obtain ⟨way, environment⟩ := free.tasks t (List.mem_of_getElem? task)
  by_cases own : i = j
  · subst own
    obtain ⟨_, p, scene, task', work, awake, after⟩ := free.goes turn
    obtain rfl := Option.some.inj (task.symm.trans task')
    obtain ⟨stack, came, roams⟩ := way.roams
    have leads : t.work.Leads env (t.after s) := by
      rw [work, after]
      exact .goes scene awake
    rw [if_pos rfl] at same
    subst same
    exact ⟨⟨way.active, unwaiting_turn task free.usual way.awake, after ▸ Pulse.after_kept _, way.finite.inv leads,
      stack, _, roams_after task environment roams⟩, environment⟩
  · rw [if_neg own] at same
    exact same ▸ ⟨way, environment⟩

theorem Unhindered.step (free : s.Unhindered T env) : (s.step?.getD s).Unhindered T env := by
  obtain ⟨noted, landing⟩ := free.landing
  refine step_keeps (P := fun s' => s'.Unhindered T env) s free (fun i turn => free.advance turn)
    (fun i rest idle queue => ?_) fun i rest _ queue => ?_
  · exact ⟨⟨noted, landing.resumed idle queue⟩, free.usual, free.tasks⟩
  · have usual := (Outside.lasting_usual T).complete (s := { s with queue := rest }) free.usual i
    refine ⟨⟨_, landing.completed queue⟩, usual, ?_⟩
    rw [tasks_complete]
    intro t listed
    rw [environment?_of_fixed (fixed_complete i)]
    exact free.tasks t listed

theorem prefer_queue (s : Session) (place : Nat) : s.prefer place = { s with queue := (s.prefer place).queue } := by
  unfold Session.prefer
  split <;> rfl

theorem Unhindered.prefer (free : s.Unhindered T env) (place : Nat) : (s.prefer place).Unhindered T env := by
  obtain ⟨noted, landing⟩ := free.landing
  refine ⟨⟨noted, landing.undergo (.cue (.prefer place))⟩, ?_, ?_⟩
  · rw [prefer_queue]
    exact free.usual
  · rw [prefer_queue]
    exact free.tasks

theorem move_prefer (s : Session) (place : Nat) :
    s.move (.cue (.prefer place)) = if s.running.isSome then s else s.prefer place := rfl

section

variable {P : Session → Prop} (preferred : ∀ s place, P s → P (s.prefer place)) (keeps : ∀ s, P s → P (s.step?.getD s))

include preferred keeps

theorem turnBy_keeps (h : P s) (place : Nat) : P (s.turnBy place) := by
  unfold turnBy
  rw [move_prefer]
  split
  · exact keeps s h
  · exact keeps _ (preferred s place h)

theorem drainBy_keeps (h : P s) (order : Nat → Nat) (fuel : Nat) : P (s.drainBy order fuel) := by
  induction fuel generalizing s order with
  | zero => exact h
  | succ fuel ih => exact ih (turnBy_keeps preferred keeps h (order 0)) _

end

theorem turnBy_running {i : Nat} (turn : s.running = some i) (place : Nat) : s.turnBy place = s.advance i := by
  have still : s.move (.cue (.prefer place)) = s := by
    rw [move_prefer, turn]
    rfl
  rw [turnBy, still]
  exact step_running turn

theorem turnBy_idle (idle : s.running = none) (place : Nat) :
    s.turnBy place = (s.prefer place).step?.getD (s.prefer place) := by
  have preferred : s.move (.cue (.prefer place)) = s.prefer place := by
    rw [move_prefer, idle]
    rfl
  rw [turnBy, preferred]
  rfl

theorem turnBy_zero (s : Session) : s.turnBy 0 = s.step?.getD s := by
  cases turn : s.running with
  | some i => rw [turnBy_running turn, step_running turn]
  | none =>
    have same : s.prefer 0 = s := by
      unfold prefer
      split
      · rename_i turn found
        obtain ⟨rest, queue⟩ := List.head?_eq_some_iff.mp (List.head?_eq_getElem? .. ▸ found)
        rw [queue, List.eraseIdx_cons_zero, ← queue]
      · rfl
    rw [turnBy_idle turn, same]

theorem Resting.turnBy (rests : s.Resting) (place : Nat) : s.turnBy place = s := by
  have same : s.prefer place = s := by simp [prefer, rests.queue]
  rw [turnBy_idle rests.running, same, step_idle rests.running rests.queue]

theorem Resting.drainBy (rests : s.Resting) (order : Nat → Nat) (fuel : Nat) : s.drainBy order fuel = s := by
  induction fuel generalizing order with
  | zero => rfl
  | succ fuel ih => rw [Session.drainBy, rests.turnBy, ih]

theorem drainBy_add (s : Session) (order : Nat → Nat) (n m : Nat) :
    s.drainBy order (n + m) = (s.drainBy order n).drainBy (fun k => order (k + n)) m := by
  induction n generalizing s order with
  | zero => simp [drainBy]
  | succ n ih =>
    rw [Nat.add_right_comm, drainBy, ih, drainBy]
    rfl

/-- The queue is the order in which the first turn is always next. -/
theorem drain_first (s : Session) (fuel : Nat) : s.drain fuel = s.drainBy (fun _ => 0) fuel := by
  rw [drain_follow]
  induction fuel generalizing s with
  | zero => rfl
  | succ fuel ih =>
    rw [drainBy, turnBy_zero]
    exact ih (s.move (.cue .step))

theorem drain_keeps {P : Session → Prop} (keeps : ∀ s, P s → P (s.step?.getD s)) (h : P s) (fuel : Nat) :
    P (s.drain fuel) := by
  rw [drain_follow]
  induction fuel generalizing s with
  | zero => exact h
  | succ fuel ih => exact ih (keeps s h)

/-- The next turn is that of a task, or the end of one is taken note of, which makes the queue shorter. -/
theorem Unhindered.taken (free : s.Unhindered T env) (idle : s.running = none) (place : Nat) :
    s.Resting ∨ (s.turnBy place).Unhindered T env ∧ (s.turnBy place).tasks = s.tasks ∧
      ((∃ i, (s.turnBy place).running = some i) ∨
        (s.turnBy place).running = none ∧ (s.turnBy place).queue.length < s.queue.length) := by
  have next := (free.prefer place).step
  have kept : (s.prefer place).running = none ∧ (s.prefer place).tasks = s.tasks ∧
      (s.prefer place).queue.length = s.queue.length := by
    unfold Session.prefer
    split
    · rename_i turn found
      have bound := (List.getElem?_eq_some_iff.mp found).1
      refine ⟨idle, rfl, ?_⟩
      rw [List.length_cons, List.length_eraseIdx_of_lt bound]
      omega
    · exact ⟨idle, rfl, rfl⟩
  obtain ⟨idle', tasks, length⟩ := kept
  rw [← turnBy_idle idle] at next
  cases queue : (s.prefer place).queue with
  | nil =>
    rw [queue] at length
    exact .inl ⟨idle, List.eq_nil_of_length_eq_zero length.symm⟩
  | cons turn rest =>
    rw [queue, List.length_cons] at length
    have taken : s.turnBy place = ({ s.prefer place with queue := rest } : Session).take turn := by
      rw [turnBy_idle idle, step_turn idle' queue]
    refine .inr ⟨next, ?_⟩
    rw [taken]
    cases turn with
    | resume i => exact ⟨tasks, .inl ⟨i, rfl⟩⟩
    | complete i =>
      refine ⟨(tasks_complete i).trans tasks, .inr ⟨(running_complete i).trans idle', ?_⟩⟩
      have shorter : (({ s.prefer place with queue := rest } : Session).complete i).queue = rest := queue_complete i
      rw [take, shorter]
      omega

/-- In whichever order the turns are taken, one of a task is among the next, or there is none left. -/
theorem Unhindered.served (free : s.Unhindered T env) (idle : s.running = none) (order : Nat → Nat) :
    ∃ n, (s.drainBy order n).Unhindered T env ∧ (s.drainBy order n).tasks = s.tasks ∧
      ((s.drainBy order n).Resting ∨ ∃ i, (s.drainBy order n).running = some i) := by
  generalize due : s.queue.length = length
  induction length using Nat.strongRecOn generalizing s order with
  | ind length ih =>
    rcases free.taken idle (order 0) with rests | ⟨free', tasks, turn | ⟨idle', shorter⟩⟩
    · exact ⟨0, free, rfl, .inl rests⟩
    · exact ⟨1, free', tasks, .inr turn⟩
    · obtain ⟨n, further, same, reached⟩ := ih _ (due ▸ shorter) free' idle' (fun n => order (n + 1)) rfl
      exact ⟨n + 1, further, same.trans tasks, reached⟩

theorem Unhindered.exists_rest (free : s.Unhindered T env) (order : Nat → Nat) :
    ∃ n, (s.drainBy order n).Resting := by
  have finite : Acc (OnePlace fun after before => Work.Leads env before after) (s.tasks.map Task.work) := by
    refine OnePlace.acc fun w listed => ?_
    obtain ⟨t, there, rfl⟩ := List.mem_map.mp listed
    exact (free.tasks t there).1.finite
  -- The induction is on what the pulses still have before them.
  generalize works : s.tasks.map Task.work = ahead at finite
  induction finite generalizing s order with
  | intro ahead _ further =>
    have goesOn : ∀ {s' : Session} {i : Nat} (order : Nat → Nat), s'.Unhindered T env → s'.tasks = s.tasks →
        s'.running = some i → ∃ n, (s'.drainBy order n).Resting := by
      intro s' i order free' same turn
      have ahead' := free'.onward turn
      rw [same, works] at ahead'
      obtain ⟨n, rests⟩ := further _ ahead' (free'.advance turn) (fun n => order (n + 1)) rfl
      refine ⟨n + 1, ?_⟩
      rw [Session.drainBy, turnBy_running turn]
      exact rests
    cases turn : s.running with
    | some i => exact goesOn order free rfl turn
    | none =>
      obtain ⟨n, free', tasks, rests | ⟨i, turn'⟩⟩ := free.served turn order
      · exact ⟨n, rests⟩
      · obtain ⟨m, rests⟩ := goesOn (fun k => order (k + n)) free' tasks turn'
        exact ⟨n + m, by rwa [drainBy_add]⟩

/-- Where nobody has the turn, or is due to have it, all pulses have ended, and this was taken note of. -/
theorem Unhindered.over (free : s.Unhindered T env) (rests : s.Resting) (clear : ∀ f, ¬ env.Unclear f) :
    (∀ t ∈ s.tasks, ∃ v, t.work = .ended (.ok v)) ∧ ∀ k, s.isIdle k = true := by
  obtain ⟨noted, landing⟩ := free.landing
  have spent : ∀ {i : Nat} {t : Task}, s.tasks[i]? = some t → t.work.spent = true := by
    intro i t task
    have way := (free.tasks t (List.mem_of_getElem? task)).1
    have due := landing.turns i
    simpa [turns, rests.running, rests.queue, task, Task.ready, way.awake] using due
  constructor
  · intro t listed
    obtain ⟨i, task⟩ := List.mem_iff_getElem?.mp listed
    obtain ⟨way, -⟩ := free.tasks t listed
    obtain ⟨stack, came, roams⟩ := way.roams
    have settled := spent task
    cases work : t.work with
    | pulse p => simp [work, Work.spent] at settled
    | lookup thread => simp [work, Work.spent] at settled
    | dropped => exact absurd work way.kept
    | ended result =>
      cases result with
      | ok v => exact ⟨v, rfl⟩
      | error f =>
        -- A pulse fails only where its graph is unclear.
        rw [work] at roams
        obtain ⟨_, id, _, _, unclear⟩ := roams.heads
        exact absurd (Environment.unclear_of_arrive unclear) (clear f)
  · intro k
    unfold isIdle
    cases run : s.runs[k]? with
    | none => rfl
    | some r =>
      have inFlight := landing.inFlight k r.inFlight (by rw [List.getElem?_map, run]; rfl)
      -- Each of its tasks is spent and due to nobody, so its end was noted.
      have none : (s.started k).filter (· ∉ noted) = [] := by
        refine List.filter_eq_nil_iff.mpr fun i listed => ?_
        obtain ⟨t, task, _⟩ := mem_started.mp listed
        have once := landing.ends i
        rw [rests.queue, task, Option.any_some, spent task, List.count_nil, Nat.zero_add, if_pos rfl] at once
        have positive : 0 < noted.count i := by omega
        simpa using List.count_pos_iff.mp positive
      rw [none] at inFlight
      simp [inFlight]

end Session

end ActionGraph
