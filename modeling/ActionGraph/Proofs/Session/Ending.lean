import ActionGraph.Proofs.Action.Memory
import ActionGraph.Proofs.Pulse.Cascade
import ActionGraph.Proofs.Pulse.Order
import ActionGraph.Proofs.Pulse.Routes
import ActionGraph.Proofs.Session.Landing

/-!
Whether a pulse ends. A pulse that is served whenever it can go on ends if the cascade from where it
began is finite, and otherwise goes on forever. That is read off the way it takes over the node ids:
every visit makes finitely many requests, and where it leads is up to the graph alone.
-/

namespace ActionGraph

/-- The node ids among the deeds of a task that its pulse came to. -/
def Deed.arrivals (ds : List Deed) : List String :=
  ds.filterMap fun
    | .arrived id => some id
    | .asked .. => none

namespace Environment

variable (env : Environment)

/-- How a visit can end: with what follows on its id, or where a way is unclear. -/
def Passes (id : String) : Except Fault (List String) → Prop
  | .ok ids => ids = env.beyond id
  | .error f => env.arrive id = .unclear f

/-- A pulse with these ids to visit comes to one of which it cannot tell whether pulses run it. -/
def Stops (stack : List String) (f : Fault) : Prop :=
  ∃ came id left, env.Comes stack came (id :: left) ∧ env.arrive id = .unclear f

/-- A pulse that leaves by this output fails somewhere, since it cannot tell whether to run a node. -/
def Stuck (origin : Endpoint) : Prop := ∃ f, env.Stops (env.targets origin) f

/-- A pulse with these ids to visit comes to an end. -/
inductive Finishes : List String → Prop
  | done : Finishes []
  | stops {id : String} {ids : List String} {f : Fault} : env.arrive id = .unclear f → Finishes (id :: ids)
  | onward {id : String} {ids : List String} : Finishes (env.beyond id ++ ids) → Finishes (id :: ids)

/-- What a pulse is about that has these ids to visit. -/
def goingOn (ids : List String) : Work :=
  match Pulse.next? env ids with
  | some p => .pulse p
  | none => .ended (.ok .null)

variable {env} {id : String} {stack came left : List String}

theorem ends_leave_ok (origin : Endpoint) : (env.leave origin).Ends (· = .ok (env.targets origin)) := by
  unfold leave
  dsimp only
  split
  · exact ⟨trivial, fun _ => rfl⟩
  · exact rfl

theorem ends_visit (id : String) : (env.visit id).Ends (env.Passes id) := by
  have stays (none : env.exit? id = none) : env.Passes id (.ok []) := (beyond_of_none none).symm
  unfold visit
  split
  · rename_i arrived
    exact ⟨trivial, fun _ => stays (by simp [exit?, arrived])⟩
  · rename_i node arrived
    exact ⟨trivial, fun _ => ⟨trivial, fun _ => stays (by simp [exit?, arrived])⟩⟩
  · rename_i node arrived
    exact stays (by simp [exit?, arrived])
  · assumption
  · rename_i node b arrived
    have below : env.beyond id = env.targets ⟨node.id, b.execOut⟩ := by
      rw [id_of_arrive arrived]
      exact beyond_of_some (by simp [exit?, arrived])
    have leaves : (env.leave ⟨node.id, b.execOut⟩).Ends (env.Passes id) := by
      apply Action.Throughout.mono (ends_leave_ok _) fun _ _ h => h
      rintro _ rfl
      exact below.symm
    have rest : ((env.contain node b).andThen fun _ => env.leave ⟨node.id, b.execOut⟩).Ends (env.Passes id) :=
      (env.ends_contain node b).andThen (fun _ _ => leaves) fun _ h => absurd h Bool.false_ne_true
    exact ⟨trivial, fun _ => rest⟩

theorem Comes.finishes (comes : env.Comes stack came left) (rest : env.Finishes left) : env.Finishes stack := by
  induction comes with
  | start stack => exact rest
  | next _ ih => exact .onward (ih rest)

theorem finishes_of {origin : Endpoint} (ends : ¬ env.Circular origin ∨ env.Stuck origin) :
    env.Finishes (env.targets origin) := by
  rcases ends with finite | ⟨f, came, id, left, comes, unclear⟩
  · obtain ⟨came, comes⟩ := exists_comes finite
    exact comes.finishes .done
  · exact comes.finishes (.stops unclear)

end Environment

/-- What a task is about changes. -/
inductive Work.Leads (env : Environment) : Work → Work → Prop
  | goes {p : Pulse} (scene : Scene) : p.visit.waits = false →
      Leads env (.pulse p) (p.after env (p.visit.perform scene).2)
  | settled {p : Pulse} (result : Except Fault Unit) : p.visit.waits = true →
      Leads env (.pulse p) (.pulse { p with visit := p.visit.settle result })
  | dropped {w : Work} : w ≠ .dropped → Leads env w .dropped

/-- There are only so many changes in what a task is about. -/
def Work.Finite (env : Environment) (w : Work) : Prop := Acc (fun after before => Work.Leads env before after) w

/-- Where the rest of a task leads that began with the first ids to visit and has come to the second. -/
def Work.Heads (env : Environment) (stack came : List String) : Work → Prop
  | .pulse p => p.visit.Throughout (fun _ _ => True) fun
    | .ok ids => env.Comes stack came (ids ++ p.pending)
    | .error f => env.Stops stack f
  | .lookup _ => False
  | .ended (.ok _) => env.Comes stack came []
  | .ended (.error f) => env.Stops stack f
  | .dropped => True

/-- Where a task is that began with the first ids to visit and has come to the second. -/
structure Work.Roams (env : Environment) (stack came : List String) (w : Work) : Prop where
  comes : ∃ left, env.Comes stack came left
  heads : w.Heads env stack came

namespace Work

variable {env : Environment} {stack came ids pending : List String} {w : Work}

theorem finite_dropped : Work.dropped.Finite env := by
  refine .intro _ fun w leads => ?_
  cases leads with
  | dropped other => exact absurd rfl other

theorem finite_ended (result : Except Fault Value) : (Work.ended result).Finite env := by
  refine .intro _ fun w leads => ?_
  cases leads with
  | dropped _ => exact finite_dropped

theorem finite_goes {p : Pulse} (awake : p.visit.waits = false)
    (further : ∀ scene, (p.after env (p.visit.perform scene).2).Finite env) : (Work.pulse p).Finite env := by
  refine .intro _ fun w leads => ?_
  cases leads with
  | goes scene _ => exact further scene
  | settled result waits => simp [awake] at waits
  | dropped _ => exact finite_dropped

theorem finite_waits {gate : Nat} {next : Except Fault Unit → Action (List String)}
    (further : ∀ result, (Work.pulse ⟨.ready (next result), pending⟩).Finite env) :
    (Work.pulse ⟨.waiting gate next, pending⟩).Finite env := by
  refine .intro _ fun w leads => ?_
  cases leads with
  | goes scene awake => cases awake
  | settled result _ => exact further result
  | dropped _ => exact finite_dropped

/-- A visit makes finitely many requests. -/
theorem finite_visit {a : Action (List String)} (ends : a.Ends fun
      | .ok ids => (env.goingOn (ids ++ pending)).Finite env
      | .error _ => True) : (Work.pulse ⟨.ready a, pending⟩).Finite env := by
  induction a with
  | done ids => exact finite_goes rfl fun _ => ends
  | failed f => exact finite_goes rfl fun _ => finite_ended _
  | ask r next ih =>
    have rest : ∀ x, (Work.pulse ⟨.ready (next x), pending⟩).Finite env := fun x => ih x (ends.2 x)
    have met : ∀ (due : Bool), (due = false → (Work.pulse ⟨.due (.ask r next), pending⟩).Finite env) →
        ∀ scene, (Pulse.after env ⟨.ready (.ask r next), pending⟩ ((Action.ask r next).perform due scene).2).Finite env := by
      intro due putOff scene
      rw [Action.perform]
      rcases met : scene.meet due r with ⟨scene', x | x | _ | ⟨gate, answer⟩⟩
      · exact (rest x).inv (.goes scene' rfl)
      · exact rest x
      · cases due with
        | false => exact putOff rfl
        | true => exact absurd met (Scene.not_again _)
      · exact finite_waits fun result => rest (answer result)
    have due : (Work.pulse ⟨.due (.ask r next), pending⟩).Finite env := finite_goes rfl (met true (by simp))
    exact finite_goes rfl (met false fun _ => due)

theorem finite_goingOn (finishes : env.Finishes ids) : (env.goingOn ids).Finite env := by
  induction finishes with
  | done => exact finite_ended _
  | @stops id ids f unclear =>
    have visit : env.goingOn (id :: ids) = .pulse ⟨.ready (.failed f), ids⟩ := by
      simp [Environment.goingOn, Pulse.next?, Environment.visit, unclear]
    rw [visit]
    exact finite_visit trivial
  | @onward id ids _ ih =>
    apply finite_visit
    apply Action.Throughout.mono (Environment.ends_visit id) fun _ _ h => h
    intro outcome passes
    cases outcome with
    | ok next => exact passes.symm ▸ ih
    | error f => trivial

theorem finite_leaving {origin : Endpoint} (finishes : env.Finishes (env.targets origin)) :
    (Work.pulse (.leaving env origin)).Finite env := by
  apply finite_visit
  apply Action.Throughout.mono (Environment.ends_leave_ok origin) fun _ _ h => h
  rintro _ rfl
  exact finite_goingOn (by rwa [List.append_nil])

namespace Roams

theorem leaving {origin : Endpoint} : (Work.pulse (.leaving env origin)).Roams env (env.targets origin) [] := by
  refine ⟨⟨_, .start _⟩, ?_⟩
  apply Action.Throughout.mono (Environment.ends_leave_ok origin) fun _ _ h => h
  rintro _ rfl
  have all : env.Comes (env.targets origin) [] (env.targets origin ++ []) := (List.append_nil _).symm ▸ .start _
  exact all

theorem settle (h : w.Roams env stack came) (result : Except Fault Unit) : (w.settle result).Roams env stack came := by
  cases w with
  | pulse p => exact ⟨h.comes, Thread.throughout_settle h.heads result⟩
  | lookup t => exact h.heads.elim
  | ended result => exact h
  | dropped => exact h

theorem goOn (comes : env.Comes stack came ids) :
    (env.goingOn ids).Roams env stack (came ++ Deed.arrivals (ids.head?.toList.map .arrived)) := by
  cases ids with
  | nil =>
    have ended : env.Comes stack (came ++ []) [] := (List.append_nil came).symm ▸ comes
    exact ⟨⟨[], ended⟩, ended⟩
  | cons id ids =>
    refine ⟨⟨_, comes.arrive⟩, ?_⟩
    apply Action.Throughout.mono (Environment.ends_visit id) fun _ _ h => h
    intro outcome passes
    cases outcome with
    | ok next => exact passes.symm ▸ comes.arrive
    | error f => exact ⟨came, id, ids, comes, passes⟩

theorem after {p : Pulse} (h : (Work.pulse p).Roams env stack came) (s : Scene) :
    (p.after env (p.visit.perform s).2).Roams env stack
      (came ++ Deed.arrivals (p.visit.deeds s ++ p.arrival (p.visit.perform s).2)) := by
  have progress := Thread.throughout_perform h.heads s
  have quiet : Deed.arrivals (p.visit.deeds s) = [] := by
    refine List.filterMap_eq_nil_iff.mpr fun d done => ?_
    cases d with
    | arrived id => exact absurd done (p.visit.not_arrived s id)
    | asked r x => rfl
  rw [Deed.arrivals, List.filterMap_append]
  rw [Deed.arrivals] at quiet
  rw [quiet, List.nil_append]
  cases ended : (p.visit.perform s).2 with
  | suspended visit =>
    rw [ended] at progress
    exact (List.append_nil came).symm ▸ ⟨h.comes, progress⟩
  | ended result =>
    rw [ended] at progress
    cases result with
    | error f => exact (List.append_nil came).symm ▸ ⟨h.comes, progress⟩
    | ok next => exact goOn progress

end Roams

end Work

namespace Session

/-- The first moves of a schedule. -/
def first (schedule : Nat → Move) (k : Nat) : List Move := (List.range k).map schedule

/-- A session after the first moves of a schedule. -/
def through (s : Session) (schedule : Nat → Move) (k : Nat) : Session := s.follow (first schedule k)

/-- A task that was not cancelled goes on in a move, with a pulse that does not wait for anything. -/
structure GoesOn (s : Session) (i : Nat) (m : Move) : Prop where
  steps : m = .cue .step
  turn : s.running = some i
  task : ∃ t p, s.tasks[i]? = some t ∧ t.cancelled = false ∧ t.work = .pulse p ∧ p.visit.waits = false

/-- As long as a task has not ended, it goes on some time later. -/
def Serves (s : Session) (i : Nat) (schedule : Nat → Move) : Prop :=
  ∀ k, (s.through schedule k).result? i = none →
    ∃ later, k ≤ later ∧ (s.through schedule later).GoesOn i (schedule later)

/-- A task of a run in this environment began with the first ids to visit and has come to the second. -/
structure Roams (s : Session) (i : Nat) (env : Environment) (stack came : List String) : Prop where
  task : ∃ t, s.tasks[i]? = some t ∧ s.environment? t.run = some env ∧ t.work.Roams env stack came

variable {s : Session} {i : Nat} {env : Environment} {stack came : List String} {m : Move} {schedule : Nat → Move}

theorem through_succ (schedule : Nat → Move) (k : Nat) :
    s.through schedule (k + 1) = (s.through schedule k).move (schedule k) := by
  rw [through, first, List.range_succ, List.map_append, follow_append]
  rfl

theorem roams_after {t : Task} (task : s.tasks[i]? = some t) (environment : s.environment? t.run = some env)
    (h : t.work.Roams env stack came) : (t.after s).Roams env stack (came ++ Deed.arrivals (s.deeds i)) := by
  obtain ⟨r, run, rfl⟩ := Option.map_eq_some_iff.mp environment
  unfold Task.after deeds
  rw [task]
  dsimp only
  split
  · exact (List.append_nil came).symm ▸ ⟨h.comes, trivial⟩
  · rw [run]
    cases work : t.work with
    | pulse p =>
      rw [work] at h
      exact h.after _
    | lookup thread =>
      rw [work] at h
      exact h.heads.elim
    | ended result =>
      rw [work] at h
      exact (List.append_nil came).symm ▸ h
    | dropped =>
      rw [work] at h
      exact (List.append_nil came).symm ▸ h

theorem Roams.move (h : s.Roams i env stack came) (m : Move) :
    (s.move m).Roams i env stack (came ++ Deed.arrivals ((s.deedsOf m).of i)) := by
  obtain ⟨t, task, environment, roams⟩ := h.task
  have changed := s.changed_move m
  obtain ⟨t', task', evolves⟩ := changed.evolved i t task
  refine ⟨t', task', evolves.run_eq ▸ changed.environments _ _ environment, ?_⟩
  generalize (s.deedsOf m).of i = ds at evolves
  cases evolves with
  | stays _ work =>
    rw [work]
    exact (List.append_nil came).symm ▸ roams
  | settles result => exact (List.append_nil came).symm ▸ roams.settle result
  | advances => exact roams_after task environment roams

theorem Roams.follow (h : s.Roams i env stack came) (moves : List Move) :
    (s.follow moves).Roams i env stack (came ++ Deed.arrivals ((s.history moves).of i)) := by
  induction moves generalizing s came with
  | nil => exact (List.append_nil came).symm ▸ h
  | cons m moves ih =>
    rw [history, History.of_append, Deed.arrivals, List.filterMap_append, ← List.append_assoc]
    exact ih (h.move m)

theorem GoesOn.leads (goes : s.GoesOn i m) {t : Task} (task : s.tasks[i]? = some t)
    (environment : s.environment? t.run = some env) :
    ∃ t', (s.move m).tasks[i]? = some t' ∧ t.work.Leads env t'.work := by
  obtain ⟨_, p, same, active, work, awake⟩ := goes.task
  obtain rfl := Option.some.inj (task.symm.trans same)
  obtain ⟨r, run, rfl⟩ := Option.map_eq_some_iff.mp environment
  have moved : s.move m = s.advance i := by
    rw [goes.steps]
    exact step_running goes.turn
  have after : t.after s = p.after r.environment (p.visit.perform (s.scene r)).2 := by
    simp [Task.after, active, run, work]
  refine ⟨{ t with work := t.after s }, by simp [moved, tasks_advance, task], ?_⟩
  rw [work, after]
  exact .goes _ awake

end Session

-- A pulse that divides in two, and both parts lead to the same node.
namespace Fork

def node (id type : String) : Node := ⟨id, type, none, none, [], []⟩

def edge (id source target : String) : Edge := ⟨id, .exec, ⟨source, "exec_out"⟩, ⟨target, "exec_in"⟩⟩

def graph : Graph where
  schemaVersion := Graph.currentSchema
  graphId := none
  name := none
  nodes := [node "hover" "event.uiHover", node "left" "debug.log", node "right" "debug.log", node "both" "debug.log"]
  edges := [edge "1" "hover" "left", edge "2" "hover" "right", edge "3" "left" "both", edge "4" "right" "both"]

def environment : Environment := Rehearsal.environment graph

/-- Its trigger was called. -/
def begun : Session :=
  (((Rehearsal.session environment ⟨[], 0, 0, .int 1, .steady (.int 0), 0⟩).start environment).1).call 0 0 .null

def steps : Nat → Move := fun _ => .cue .step

theorem goesOn_through : (begun.through steps 5).GoesOn 0 (steps 5) := ⟨rfl, rfl, _, _, rfl, rfl, rfl, rfl⟩

theorem result_through : (begun.through steps 6).result? 0 = some (.ok .null) := rfl

theorem idle_through : (begun.through steps 7).running = none ∧ (begun.through steps 7).queue = [] := ⟨rfl, rfl⟩

theorem through_idle (k : Nat) : begun.through steps (7 + k) = begun.through steps 7 := by
  have idle := idle_through
  induction k with
  | zero => rfl
  | succ k ih =>
    rw [← Nat.add_assoc, Session.through_succ, ih, steps]
    generalize begun.through _ 7 = s at idle
    exact Session.step_idle idle.1 idle.2

theorem served : begun.Serves 0 steps := by
  intro k none
  by_cases early : k ≤ 5
  · exact ⟨5, early, goesOn_through⟩
  · have ended : (begun.through steps k).result? 0 = some (.ok .null) := by
      by_cases last : k = 6
      · exact last ▸ result_through
      · obtain ⟨d, rfl⟩ := Nat.exists_eq_add_of_le (show 7 ≤ k by omega)
        rw [through_idle]
        rfl
    rw [ended] at none
    cases none

end Fork

namespace Session

open Fork

end Session

end ActionGraph
