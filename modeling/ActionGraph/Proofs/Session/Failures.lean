import ActionGraph.Behavior.Probe
import ActionGraph.Proofs.Pulse.Abreast
import ActionGraph.Proofs.Session.Containment

/-!
Failing nodes over whole runs. Whatever a session undergoes after a node was come to, its run stays
comparable with the one that is forgiven, and no pulse fails but where it cannot tell whether to run a
node.
-/

namespace ActionGraph

namespace Session

variable {s s' : Session} {i k : Nat} {env : Environment} {node : Node} {b : Behavior} {ids : List String}
  {moves : List Move}

theorem chronicle_append (s : Session) (moves more : List Move) :
    s.chronicle (moves ++ more) = s.chronicle moves ++ (s.follow moves).chronicle more := by
  induction moves generalizing s with
  | nil => rfl
  | cons m moves ih => simp only [List.cons_append, chronicle, follow, ih, List.append_assoc]

/-- One of these moves completes the work of the node that the task runs, with this outcome. -/
def Worked (s : Session) (i k : Nat) (env : Environment) (node : Node) (b : Behavior) (ids : List String)
    (moves : List Move) (o : Except Fault Ports) : Prop :=
  ∃ earlier later v, moves = earlier ++ .cue .step :: later ∧ (s.follow earlier).Runs i k env node b ids v ∧
    (s.follow earlier).Completes i v o

/-- How a session `s` in which task `i` has come to a node stands after these moves to a session `s'` in which
that run of the node is forgiven. -/
inductive Contained (s s' : Session) (i k : Nat) (env : Environment) (node : Node) (b : Behavior) (ids : List String)
    (moves : List Move) : Prop
  /-- The node is at its work, of which the same is left in both. -/
  | works (v : Thread Ports) (left : v.LeftOf (env.begun node b) ((s.chronicle moves).history.of i))
      (runs : (s.follow moves).Runs i k env node b ids v) (alike : s'.chronicle moves = s.chronicle moves)
      (spared : s'.follow moves = (s.follow moves).swap i (env.sparing node b ids v))
  /-- The task was cancelled while the node was at its work. -/
  | cancelled (earlier later : List Move) (v : Thread Ports) (t : Task) (split : moves = earlier ++ later)
      (runs : (s.follow earlier).Runs i k env node b ids v) (task : (s.follow earlier).tasks[i]? = some t)
      (given : t.cancelled = true) (alike : s'.chronicle moves = s.chronicle moves)
      (same : s'.follow moves = s.follow moves)
  /-- The work of the node has come to outputs. -/
  | ended (outputs : Ports) (worked : s.Worked i k env node b ids moves (.ok outputs))
      (alike : s'.chronicle moves = s.chronicle moves) (same : s'.follow moves = s.follow moves)
  /-- The work of the node has failed. There is one report of that more, and the rest is the same. -/
  | failed (f : Fault) (worked : s.Worked i k env node b ids moves (.error f)) (before after : Chronicle)
      (seen later : List Entry) (fails : (env.begun node b).Reaches (before.history.of i) (.failed f))
      (told : s.chronicle moves = before ++ Chronicle.deeds k i (node.reported f) ++ after)
      (spared : s'.chronicle moves = before ++ after)
      (observed : (s'.follow moves).outside.watch = s.outside.watch.notes (seen ++ later))
      (same : s.follow moves = watched (s'.follow moves) (s.outside.watch.notes (seen ++ node.complaint f ++ later)))

theorem Worked.append {o : Except Fault Ports} (worked : s.Worked i k env node b ids moves o) (more : List Move) :
    s.Worked i k env node b ids (moves ++ more) o := by
  obtain ⟨earlier, later, v, rfl, runs, completes⟩ := worked
  exact ⟨earlier, later ++ more, v, by simp, runs, completes⟩

theorem chronicle_snoc (s : Session) (moves : List Move) (m : Move) :
    s.chronicle (moves ++ [m]) = s.chronicle moves ++ (s.follow moves).happenings m := by
  simp [chronicle_append, chronicle]

theorem follow_snoc (s : Session) (moves : List Move) (m : Move) : s.follow (moves ++ [m]) = (s.follow moves).move m :=
  s.follow_append moves [m]

theorem Contained.working {v : Thread Ports} (left : v.LeftOf (env.begun node b) ((s.chronicle moves).history.of i))
    (runs : (s.follow moves).Runs i k env node b ids v) (alike : s'.chronicle moves = s.chronicle moves)
    (spared : s'.follow moves = (s.follow moves).swap i (env.sparing node b ids v)) (m : Move) :
    s.Contained s' i k env node b ids (moves ++ [m]) := by
  have worked {o : Except Fault Ports} (steps : m = .cue .step) (completes : (s.follow moves).Completes i v o) :
      s.Worked i k env node b ids (moves ++ [m]) o := ⟨moves, [], v, by rw [steps], runs, completes⟩
  have fares := runs.move left m
  rw [← spared] at fares
  cases fares with
  | works v' left' runs' alike' spared' =>
    refine .works v' ?_ (by rwa [follow_snoc]) (by rw [chronicle_snoc, chronicle_snoc, alike, alike'])
      (by rw [follow_snoc, follow_snoc, spared'])
    rwa [chronicle_snoc, Chronicle.history_append, History.of_append, history_happenings]
  | cancelled t task given alike' same =>
    exact .cancelled moves [m] v t rfl runs task given (by rw [chronicle_snoc, chronicle_snoc, alike, alike'])
      (by rw [follow_snoc, follow_snoc, same])
  | ended outputs steps completes alike' same =>
    exact .ended outputs (worked steps completes) (by rw [chronicle_snoc, chronicle_snoc, alike, alike'])
      (by rw [follow_snoc, follow_snoc, same])
  | failed f steps completes did after seen later fails told spared' observed same =>
    obtain ⟨earlier, watching, _⟩ := (unaware_follow moves).observes s
    have watching : (s.follow moves).outside.watch = s.outside.watch.notes earlier := watching
    refine .failed f (worked steps completes) (s.chronicle moves ++ Chronicle.deeds k i did) (Chronicle.deeds k i after)
      (earlier ++ seen) later ?_ ?_ ?_ ?_ ?_
    · rwa [Chronicle.of_turn_self]
    · rw [chronicle_snoc, told]
      simp [Chronicle.deeds]
    · rw [chronicle_snoc, alike, spared']
      simp [Chronicle.deeds]
    · rw [follow_snoc, observed, watching, ← Watch.notes_append, List.append_assoc]
    · rw [follow_snoc, follow_snoc, same, watching, ← Watch.notes_append]
      simp only [List.append_assoc]

theorem Contained.move (contained : s.Contained s' i k env node b ids moves) (m : Move) :
    s.Contained s' i k env node b ids (moves ++ [m]) := by
  cases contained with
  | works v left runs alike spared => exact .working left runs alike spared m
  | cancelled earlier later v t split runs task given alike same =>
    exact .cancelled earlier (later ++ [m]) v t (by rw [split, List.append_assoc]) runs task given
      (by rw [chronicle_snoc, chronicle_snoc, alike, same]) (by rw [follow_snoc, follow_snoc, same])
  | ended outputs worked alike same =>
    exact .ended outputs (worked.append [m]) (by rw [chronicle_snoc, chronicle_snoc, alike, same])
      (by rw [follow_snoc, follow_snoc, same])
  | failed f worked before after seen later fails told spared observed same =>
    -- The other session does not tell that it is watched differently.
    obtain ⟨more, watching, unaware⟩ := (unaware_move m).observes (s'.follow moves)
    have happened : (s.follow moves).happenings m = (s'.follow moves).happenings m := by
      rw [same]
      exact blind_happenings m _ _
    have watching : ((s'.follow moves).move m).outside.watch = (s'.follow moves).outside.watch.notes more := watching
    have moved : (s.follow moves).move m = watched ((s'.follow moves).move m)
        ((s.outside.watch.notes (seen ++ node.complaint f ++ later)).notes more) := by
      rw [same]
      exact unaware _
    refine .failed f (worked.append [m]) before (after ++ (s'.follow moves).happenings m) seen (later ++ more) fails
      ?_ ?_ ?_ ?_
    · rw [chronicle_snoc, told, happened, List.append_assoc]
    · rw [chronicle_snoc, spared, List.append_assoc]
    · rw [follow_snoc, watching, observed, ← Watch.notes_append, List.append_assoc]
    · rw [follow_snoc, follow_snoc, moved, ← Watch.notes_append, List.append_assoc (_ ++ _)]

/-- A task has come to a node that pulses run. -/
structure CameTo (s : Session) (i k : Nat) (env : Environment) (node : Node) (b : Behavior) (ids : List String) : Prop where
  task : ∃ t, s.tasks[i]? = some t ∧ t.run = k ∧ t.work = .pulse ⟨.ready (env.visit node.id), ids⟩
  environment : s.environment? k = some env
  arrives : env.arrive node.id = .runnable node b

/-- The session in which that run of the node is forgiven: the work is the same up to a failure, and then there
are no outputs. -/
def forgive (s : Session) (i : Nat) (env : Environment) (node : Node) (b : Behavior) (ids : List String) : Session :=
  s.swap i ⟨.ready (env.run node (env.forgiving b)), ids⟩

theorem CameTo.runs (came : s.CameTo i k env node b ids) : s.Runs i k env node b ids (.ready (env.begun node b)) := by
  obtain ⟨t, task, run, work⟩ := came.task
  have visit : env.visit node.id = env.stage node b (env.begun node b) := by
    simp only [Environment.visit, came.arrives, Environment.run_eq_stage]
  exact ⟨⟨t, task, run, work.trans (by rw [visit]; rfl)⟩, came.environment⟩

theorem CameTo.contained (came : s.CameTo i k env node b ids) (moves : List Move) :
    s.Contained (s.forgive i env node b ids) i k env node b ids moves := by
  induction moves using List.reverseRecOn with
  | nil =>
    have spared : s.forgive i env node b ids = s.swap i (env.sparing node b ids (.ready (env.begun node b))) := by
      rw [forgive, Environment.run_forgiving]
      rfl
    exact .works (.ready (env.begun node b)) (.start _) came.runs rfl spared
  | append_singleton moves m ih => exact ih.move m

/-- Every task began as a pulse of its run, and has come as far as that goes. -/
def Roaming (s : Session) : Prop :=
  ∀ (i : Nat) (t : Task), s.tasks[i]? = some t → ∃ env stack came, s.environment? t.run = some env ∧ t.work.Roams env stack came

theorem Roaming.move (roaming : s.Roaming) (m : Move) : (s.move m).Roaming := by
  intro i t task
  have changed := s.changed_move m
  cases earlier : s.tasks[i]? with
  | none =>
    obtain ⟨env, origin, environment, same⟩ := changed.begun i t task earlier
    exact ⟨env, _, _, changed.environments _ _ environment, by rw [same]; exact .leaving⟩
  | some before =>
    obtain ⟨env, stack, came, environment, roams⟩ := roaming i before earlier
    have here : s.Roams i env stack came := ⟨before, earlier, environment, roams⟩
    obtain ⟨t', task', environment', roams'⟩ := (here.move m).task
    cases task.symm.trans task'
    exact ⟨env, stack, _, environment', roams'⟩

theorem Roaming.unclear (roaming : s.Roaming) {t : Task} (task : s.tasks[i]? = some t)
    (environment : s.environment? t.run = some env) {f : Fault} (failed : t.work = .ended (.error f)) : env.Unclear f := by
  obtain ⟨env', stack, came, environment', roams⟩ := roaming i t task
  cases environment.symm.trans environment'
  rw [failed] at roams
  obtain ⟨_, id, left, _, unclear⟩ := roams.heads
  exact Environment.unclear_of_arrive unclear

end Session

-- A trigger that leads to a node of some type, and then to one that logs.
namespace Mishap

def node (id type : String) : Node := ⟨id, type, none, none, [], []⟩

def edge (id target : String) : Edge := ⟨id, .exec, ⟨"hover", "exec_out"⟩, ⟨target, "exec_in"⟩⟩

def environment (types : Repertoire) (type : String) : Environment where
  graph := ⟨Graph.currentSchema, none, none, [node "hover" "event.uiHover", node "first" type, node "second" "debug.log"],
    [edge "1" "first", edge "2" "second"]⟩
  repertoire := types
  settings := .standard

def outside : Outside := ⟨Host.empty (.int 1), .plain, [], .steady (.int 0), .collecting, 0, 0, #[]⟩

/-- The trigger is called, and its pulse comes to the first node. -/
def come (types : Repertoire) (type : String) : List Move :=
  [.start (environment types type), .cue (.call 0 0 .null), .cue .step, .cue .step]

def session (types : Repertoire) (type : String) : Session := (Session.empty outside).follow (come types type)

end Mishap

end ActionGraph
