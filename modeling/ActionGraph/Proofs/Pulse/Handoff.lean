import ActionGraph.Proofs.Behavior.Builtin
import ActionGraph.Proofs.Pulse.Unfolding
import ActionGraph.Proofs.Pulse.Visit
import ActionGraph.Proofs.Session.Visits

/-!
From the node that publishes a value to the next node that reads it, a pulse of built-in behaviors
does not let anybody else go on. What it reads there is therefore its own value, however many
pulses publish on the same port.
-/

namespace ActionGraph

namespace Action

variable {α β γ : Type} {Q : (r : Request) → (r.Answer → Action α) → Prop} {P : Except Fault α → Prop}
  {Q' : (r : Request) → (r.Answer → Action γ) → Prop} {P' : Except Fault γ → Prop}

theorem Throughout.tried {a : Action α} {f : α → Action β} {k : Except Fault β → Action γ}
    (first : a.Throughout Q P)
    (ask : ∀ r next, Q r next → Q' r fun x => (((next x).andThen f).attempt).andThen k)
    (done : ∀ x, P (.ok x) → ((f x).attempt.andThen k).Throughout Q' P')
    (failed : ∀ e, P (.error e) → (k (.error e)).Throughout Q' P') :
    ((a.andThen f).attempt.andThen k).Throughout Q' P' := by
  induction a with
  | done x => exact done x first
  | failed e => exact failed e first
  | ask r next ih => exact ⟨ask r next first.1, fun x => ih x (first.2 x)⟩

theorem perform_diagnoses {ids : α} {a : Action α}
    (h : a.Throughout (fun r _ => ∃ line, r = .diagnose line) (· = .ok ids)) (due : Bool) (s : Scene) :
    ∃ s', a.perform due s = (s', .ended (.ok ids)) ∧ s'.memory = s.memory := by
  induction a generalizing due s with
  | done x =>
    obtain rfl : x = ids := Except.ok.inj h
    exact ⟨s, rfl, rfl⟩
  | failed f => cases h
  | ask r next ih =>
    obtain ⟨⟨line, rfl⟩, rest⟩ := h
    obtain ⟨s', performed, memory⟩ := ih () (rest ()) false ⟨s.memory, s.outside.diagnose line⟩
    exact ⟨s', performed, memory⟩

end Action

namespace Environment

def IsBuiltin (env : Environment) : Prop := ∃ evaluate, env.repertoire = Builtin.repertoire evaluate

/-- Asks for what is there already, or publishes it for a node that pulses do not run. -/
def Inquires (env : Environment) : Request → Prop
  | .log .. | .diagnose _ | .cached _ | .mount _ => True
  | .publish port _ => env.exit? port.node = none
  | _ => False

/-- Met at once, and publishes nothing for nodes that pulses run. -/
def Reads (env : Environment) (r : Request) : Prop :=
  r.Prompt ∧ ∀ port v, r = .publish port v → env.exit? port.node = none

/-- After a node that pulses run has published, only diagnostics follow before the pulse leaves it. -/
def HandsOff (env : Environment) : Conduct
  | .publish source _, next => ∀ port, env.exit? source.node = some port →
      (next ()).Throughout (fun r _ => ∃ line, r = .diagnose line) (· = .ok (env.targets ⟨source.node, port⟩))
  | _, _ => True

variable {env : Environment}

theorem Reads.spares {r : Request} (h : env.Reads r) {source : Endpoint} {port : String}
    (executes : env.exit? source.node = some port) : r.Spares source := by
  cases r with
  | publish other v =>
    rintro rfl
    rw [h.2 other v rfl] at executes
    cases executes
  | _ => exact trivial

theorem Inquires.reads {r : Request} (h : env.Inquires r) : env.Reads r := by
  cases r with
  | publish port v =>
    refine ⟨trivial, fun other w same => ?_⟩
    cases same
    exact h
  | log message data => exact ⟨trivial, nofun⟩
  | diagnose line => exact ⟨trivial, nofun⟩
  | cached port => exact ⟨trivial, nofun⟩
  | mount id => exact ⟨trivial, nofun⟩
  | _ => exact h.elim

theorem inquires_of_mounts {r : Request} (h : r.Mounts) : env.Inquires r := by
  cases r with
  | mount id => exact trivial
  | _ => exact h.elim

theorem HandsOff.of_silent {r : Request} {next : r.Answer → Action (List String)}
    (h : ∀ port v, r = .publish port v → env.exit? port.node = none) : env.HandsOff r next := by
  cases r with
  | publish source v =>
    intro port executes
    rw [h source v rfl] at executes
    cases executes
  | _ => exact trivial

theorem exit?_of_passive {id : String} {producer : Node} {b : Behavior} (found : env.graph.node? id = some producer)
    (known : env.repertoire.find? producer.type = some b) (passive : b.executable = .ok false) :
    env.exit? producer.id = none := by
  rw [Graph.id_of_node? found, exit?_eq, found]
  simp only [Option.map_some, Option.bind_some, way?, known, passive]

/-- What is done for an input when nothing is published where its edge starts: a passive producer is
asked, and where there is none, nothing is found. -/
inductive Search (env : Environment) (edge : Edge) : Action Value → Prop
  | astray : env.graph.node? edge.source.node = none → Search env edge
      (.ask (.diagnose ("[RESOLVER] WARNING: edge " ++ edge.id ++ " starts at unknown node " ++ edge.source.node))
        fun _ => .done .absent)
  | vain {producer : Node} : env.graph.node? edge.source.node = some producer →
      (∀ b, env.repertoire.find? producer.type = some b → b.producer ≠ .passive) → Search env edge (.done .absent)
  | asked {producer : Node} {b : Behavior} : env.graph.node? edge.source.node = some producer →
      env.repertoire.find? producer.type = some b → b.producer = .passive →
      Search env edge (env.supply producer b edge.source.port)

theorem resolve_eq_done {input : Endpoint} (unfed : env.graph.incoming? input = none) :
    env.resolve input = .done .absent := by
  rw [resolve, unfed]

/-- To resolve an input is to look where its edge starts, and to search only if nothing is there. -/
theorem resolve_eq_andThen {input : Endpoint} {edge : Edge} (fed : env.graph.incoming? input = some edge) :
    ∃ missing, env.Search edge missing ∧ env.resolve input = (Action.cached edge.source).andThen fun existing =>
      if existing.isAbsent then missing else .done existing := by
  unfold resolve
  rw [fed]
  dsimp only
  cases found : env.graph.node? edge.source.node with
  | none => exact ⟨_, .astray found, rfl⟩
  | some producer =>
    cases known : env.repertoire.find? producer.type with
    | none =>
      refine ⟨_, .vain found fun b other => ?_, ?_⟩
      · cases known.symm.trans other
      · simp only [known]
        rfl
    | some b =>
      by_cases passive : b.producer = .passive
      · refine ⟨_, .asked found known passive, ?_⟩
        simp only [known, passive, if_true]
        rfl
      · refine ⟨_, .vain found fun b' other => ?_, ?_⟩
        · cases known.symm.trans other
          exact passive
        · simp only [known, passive, if_false]
          rfl

section Builtin

variable (builtin : env.IsBuiltin)

include builtin

theorem asks_supply {id : String} {producer : Node} {b : Behavior} (found : env.graph.node? id = some producer)
    (known : env.repertoire.find? producer.type = some b) (passive : b.producer = .passive) (port : String) :
    (env.supply producer b port).Asks env.Inquires := by
  obtain ⟨evaluate, eq⟩ := builtin
  obtain ⟨asks, idle⟩ := Builtin.passive_supply env.settings producer (eq ▸ known) passive port
  refine Action.Asks.andThen (asks.attempt.mono fun r => inquires_of_mounts) fun outcome => ?_
  cases outcome with
  | error f => exact ⟨trivial, fun _ => ⟨trivial, fun _ => trivial⟩⟩
  | ok v =>
    dsimp only
    split
    · exact trivial
    · exact ⟨trivial, fun _ => ⟨exit?_of_passive found known idle, fun _ => trivial⟩⟩

theorem asks_resolve (input : Endpoint) : (env.resolve input).Asks env.Inquires := by
  cases fed : env.graph.incoming? input with
  | none =>
    rw [resolve_eq_done fed]
    exact trivial
  | some edge =>
    obtain ⟨missing, search, eq⟩ := resolve_eq_andThen fed
    rw [eq]
    refine ⟨trivial, fun existing => ?_⟩
    change Action.Asks env.Inquires (ite _ _ _)
    split
    · cases search with
      | astray _ => exact ⟨trivial, fun _ => trivial⟩
      | vain _ _ => exact trivial
      | asked found known passive => exact asks_supply builtin found known passive _
    · exact trivial

theorem inquires_readInputs (node : Node) (specs : List Input) (ports : Ports) :
    (env.readInputs node specs ports).Asks env.Inquires := by
  induction specs generalizing ports with
  | nil => exact trivial
  | cons spec specs ih =>
    refine Action.Asks.andThen (asks_resolve builtin _) fun wired => ?_
    exact Action.Asks.andThen (Action.asks_ofExcept _) fun v => ih _

theorem asks_readInputs (node : Node) (specs : List Input) (ports : Ports) :
    (env.readInputs node specs ports).Asks env.Reads :=
  (inquires_readInputs builtin node specs ports).mono fun _ h => h.reads

end Builtin

theorem diagnoses_leave (origin : Endpoint) :
    (env.leave origin).Throughout (fun r _ => ∃ line, r = .diagnose line) (· = .ok (env.targets origin)) := by
  unfold leave
  dsimp only
  split
  · exact ⟨⟨_, rfl⟩, fun _ => rfl⟩
  · exact rfl

theorem handsOff_leave (origin : Endpoint) : (env.leave origin).Throughout env.HandsOff fun _ => True := by
  refine (diagnoses_leave origin).mono (fun r next diagnoses => ?_) fun _ _ => trivial
  obtain ⟨line, rfl⟩ := diagnoses
  exact trivial

theorem handsOff_goOn (node : Node) (b : Behavior) (outcome : Except Fault Unit) :
    (env.goOn node b outcome).Throughout env.HandsOff fun _ => True := by
  cases outcome with
  | ok _ => exact handsOff_leave _
  | error f => exact ⟨trivial, fun _ => ⟨trivial, fun _ => handsOff_leave _⟩⟩

theorem handsOff_publishAll {id : String} {node : Node} {b : Behavior} (arrived : env.arrive id = .runnable node b)
    {outputs : Ports} (single : outputs.length ≤ 1) :
    ((publishAll node outputs).attempt.andThen (env.goOn node b)).Throughout env.HandsOff fun _ => True := by
  match outputs, single with
  | [], _ => exact handsOff_goOn node b _
  | [(port, v)], _ =>
    refine ⟨fun exit executes => ?_, fun _ => handsOff_goOn node b _⟩
    have known : env.exit? node.id = some b.execOut := by
      rw [id_of_arrive arrived, exit?, arrived]
    obtain rfl : b.execOut = exit := Option.some.inj (known.symm.trans executes)
    exact diagnoses_leave _

theorem handsOff_visit (builtin : env.IsBuiltin) (id : String) :
    (env.visit id).Throughout env.HandsOff fun _ => True := by
  unfold visit
  split
  · exact ⟨trivial, fun _ => trivial⟩
  · exact ⟨trivial, fun _ => ⟨trivial, fun _ => trivial⟩⟩
  · exact trivial
  · exact trivial
  · rename_i node b arrived
    rw [run_eq]
    refine ⟨trivial, fun _ => ?_⟩
    refine (asks_readInputs builtin node b.inputs []).tried (fun r next reads => .of_silent reads.2)
      (fun inputs _ => ?_) fun f _ => handsOff_goOn node b _
    obtain ⟨evaluate, eq⟩ := builtin
    have known := (found_of_arrive arrived).2.1
    refine (Builtin.modest_effect env.settings node inputs (eq ▸ known)).tried ?_
      (fun outputs single => handsOff_publishAll arrived (single outputs rfl)) fun f _ => handsOff_goOn node b _
    intro r next unpublished
    refine .of_silent fun port v same => ?_
    subst same
    exact absurd rfl (unpublished port)

theorem handsOff_conducted : Conducted IsBuiltin HandsOff where
  leave _ origin _ := handsOff_leave origin
  visit _ id builtin := handsOff_visit builtin id

end Environment

namespace Action

variable {env : Environment} {n q port : String} {v : Value}

/-- Once a node that pulses run has published, its visit goes on to its end, and what was published
is still there. -/
theorem handed_over {a : Action (List String)} (h : a.Throughout env.HandsOff fun _ => True)
    {due : Bool} {s : Scene} {answer : Option Unit} (published : .asked (.publish ⟨n, q⟩ v) answer ∈ a.deeds due s)
    (executes : env.exit? n = some port) :
    ∃ s', a.perform due s = (s', .ended (.ok (env.targets ⟨n, port⟩))) ∧ s'.memory.cache.value ⟨n, q⟩ = v := by
  induction a generalizing due s with
  | done x => cases published
  | failed f => cases published
  | ask r next ih =>
    rcases mem_deeds_ask published with ⟨first, same⟩ | ⟨s', x, met, later⟩
    · obtain ⟨rfl, _⟩ := Deed.asked.inj same
      -- Nothing but diagnostics is left, so nobody else gets a turn before the end.
      obtain ⟨s', performed, memory⟩ := perform_diagnoses (h.1 port executes) false (s.publish ⟨n, q⟩ v)
      refine ⟨s', performed, ?_⟩
      rw [memory]
      exact (Cache.value_publish _ _ _ _).trans (if_pos rfl)
    · rw [perform, met]
      exact ih x (h.2 x) later

end Action

theorem Thread.handed_over {env : Environment} {n q port : String} {v : Value} {visit : Thread (List String)}
    (h : visit.Throughout env.HandsOff fun _ => True) {s : Scene} {answer : Option Unit}
    (published : .asked (.publish ⟨n, q⟩ v) answer ∈ visit.deeds s) (executes : env.exit? n = some port) :
    ∃ s', visit.perform s = (s', .ended (.ok (env.targets ⟨n, port⟩))) ∧ s'.memory.cache.value ⟨n, q⟩ = v := by
  cases visit with
  | ready a => exact Action.handed_over h published executes
  | due a => exact Action.handed_over h published executes
  | waiting gate next => cases published

namespace Environment

variable (env : Environment)

def opening (node : Node) (before : List Input) : Action Ports := do
  Action.diagnose ("[ENGINE] Executing node: " ++ node.id ++ " (" ++ node.type ++ ")")
  env.readInputs node before []

/-- How a visit comes by an input: it is resolved right after the inputs before it, unless one of
these cannot be read, and the pulse that reads it finds this value without waiting. -/
structure Finds (id : String) (node : Node) (before : List Input) (port : String) (s : Scene) (v : Value) : Prop where
  visit : ∃ rest, env.visit id = ((env.opening node before).andThen fun ports =>
    (env.resolve ⟨node.id, port⟩).andThen fun wired => .done (ports, wired)).attempt.andThen rest
  resolved : ∃ s' read, (env.opening node before).perform false s = (s', .ended read) ∧
    ∀ ports, read = .ok ports → (env.resolve ⟨node.id, port⟩).perform false s' = (s', .ended (.ok v))

variable {env}

theorem readInputs_append (node : Node) (before after : List Input) (ports : Ports) :
    env.readInputs node (before ++ after) ports =
      (env.readInputs node before ports).andThen (env.readInputs node after) := by
  induction before generalizing ports with
  | nil => rfl
  | cons spec before ih =>
    simp only [List.cons_append, readInputs, Action.bind_eq, Action.andThen_assoc, ih]

theorem visit_opening {id : String} {node : Node} {b : Behavior} (arrived : env.arrive id = .runnable node b)
    {before after : List Input} {spec : Input} (inputs : b.inputs = before ++ spec :: after) :
    ∃ rest, env.visit id = ((env.opening node before).andThen fun ports =>
      (env.resolve ⟨node.id, spec.port⟩).andThen fun wired => .done (ports, wired)).attempt.andThen rest := by
  let read := (env.readInputs node before []).andThen fun ports =>
    (env.resolve ⟨node.id, spec.port⟩).andThen fun wired => .done (ports, wired)
  let finish (found : Ports × Value) : Action Unit :=
    (Action.ofExcept (spec.value node found.2)).andThen fun v =>
      (env.readInputs node after (Keyed.put spec.port v found.1)).andThen fun inputs =>
        (b.effect env.settings node inputs).andThen (publishAll node)
  have performed : env.perform node b = read.andThen finish := by
    simp only [perform, inputs, readInputs_append, readInputs, Action.bind_eq, Action.andThen_assoc,
      Action.done_andThen, read, finish]
  let rest : Except Fault (Ports × Value) → Action (List String)
    | .ok found => (finish found).attempt.andThen (env.goOn node b)
    | .error f => env.goOn node b (.error f)
  have tried : (env.perform node b).attempt.andThen (env.goOn node b) = read.attempt.andThen rest := by
    rw [performed, Action.attempt_andThen, Action.andThen_assoc]
    refine congrArg _ (funext fun outcome => ?_)
    cases outcome <;> rfl
  refine ⟨rest, ?_⟩
  unfold visit
  rw [arrived]
  dsimp only
  rw [run_eq, tried]
  rfl

theorem resolve_published {input source : Endpoint} {edge : Edge} {v : Value} {s : Scene}
    (fed : env.graph.incoming? input = some edge) (leaves : edge.source = source)
    (published : s.memory.cache.value source = v) (present : v.isAbsent = false) :
    (env.resolve input).perform false s = (s, .ended (.ok v)) := by
  subst leaves published
  rw [resolve, fed]
  change Action.perform false s (ite _ _ _) = _
  rw [present]
  rfl

theorem finds_published (builtin : env.IsBuiltin) {id : String} {node : Node} {b : Behavior}
    (arrived : env.arrive id = .runnable node b) {before after : List Input} {spec : Input}
    (inputs : b.inputs = before ++ spec :: after) {n q port : String} (executes : env.exit? n = some port)
    {edge : Edge} (fed : env.graph.incoming? ⟨node.id, spec.port⟩ = some edge) (source : edge.source = ⟨n, q⟩)
    {s : Scene} (prompt : s.outside.staging.deferred = false) {v : Value}
    (published : s.memory.cache.value ⟨n, q⟩ = v) (present : v.isAbsent = false) :
    env.Finds id node before spec.port s v := by
  have reads : (env.opening node before).Asks env.Reads :=
    ⟨⟨trivial, nofun⟩, fun _ => asks_readInputs builtin node before []⟩
  have prompted := reads.mono (S := Request.Prompt) fun _ h => h.1
  have spared := reads.mono (S := Request.Spares ⟨n, q⟩) fun _ h => h.spares executes
  obtain ⟨s', read, performed⟩ := Action.perform_prompt prompted false s prompt
  have kept := Action.cache_perform spared false s
  rw [performed, published] at kept
  exact ⟨visit_opening arrived inputs, s', read, performed, fun _ _ => resolve_published fed source kept present⟩

end Environment

namespace Session

/-- Task `i` keeps the turn, and a visit of this id is the only thing that can happen next. -/
structure ComesTo (s : Session) (i : Nat) (r : GraphRun) (id : String) : Prop where
  turn : s.running = some i
  work : ∃ t pending, s.tasks[i]? = some t ∧ t.cancelled = false ∧ s.runs[t.run]? = some r ∧
    t.work = .pulse ⟨.ready (r.environment.visit id), pending⟩
  alone : ∀ m, s.move m = s ∨ s.move m = s.advance i

theorem move_of_running {s : Session} {i : Nat} (turn : s.running = some i) (m : Move) :
    s.move m = s ∨ s.move m = s.advance i := by
  unfold move
  split
  · exact .inr (step_running turn)
  · rw [turn]
    exact .inl rfl

/-- A task that publishes is a pulse under way, which conducts itself as built-in behaviors do. -/
theorem publishing {o : Outside} {moves : List Move} {s : Session} (reached : (empty o).follow moves = s) {i : Nat}
    {t : Task} {r : GraphRun} (task : s.tasks[i]? = some t) (run : s.runs[t.run]? = some r)
    (builtin : r.environment.IsBuiltin) {port : Endpoint} {v : Value} {answer : Option Unit}
    (published : .asked (.publish port v) answer ∈ s.deeds i) :
    ∃ p, t.cancelled = false ∧ t.work = .pulse p ∧ p.visit.Throughout r.environment.HandsOff (fun _ => True) ∧
      .asked (.publish port v) answer ∈ p.visit.deeds (s.scene r) := by
  have visited := visits_follow Environment.handsOff_conducted o moves
  rw [reached] at visited
  obtain ⟨env, environment, visits⟩ := visited i t task
  obtain rfl : r.environment = env := by simpa [environment?, run] using environment
  have visits := visits builtin
  unfold deeds at published
  rw [task] at published
  dsimp only at published
  split at published
  · cases published
  · rename_i active
    rw [run] at published
    cases work : t.work with
    | pulse p =>
      rw [work] at published visits
      refine ⟨p, Bool.eq_false_iff.mpr active, rfl, visits, ?_⟩
      rcases List.mem_append.mp published with published | arrives
      · exact published
      · unfold Pulse.arrival at arrives
        split at arrives
        · obtain ⟨id, _, same⟩ := List.mem_map.mp arrives
          cases same
        · cases arrives
    | lookup thread =>
      rw [work] at visits
      exact visits.elim
    | ended result =>
      rw [work] at published
      cases published
    | dropped =>
      rw [work] at published
      cases published

/-- Atomic hand-off. On a host that does not defer, in any state that a session can come to, let a
pulse of a run with built-in behaviors publish a value for a node that pulses run. It then comes to
the first node that follows, before anything else can happen; and every input of that node that
is fed from the port finds this very value, as long as the inputs before it can be read. -/
theorem handoff {o : Outside} (prompt : o.staging.deferred = false) {moves : List Move} {s : Session}
    (reached : (empty o).follow moves = s) {i : Nat} {t : Task} {r : GraphRun} (turn : s.running = some i)
    (task : s.tasks[i]? = some t) (run : s.runs[t.run]? = some r) (builtin : r.environment.IsBuiltin)
    {n q port : String} {v : Value} {answer : Option Unit}
    (published : .asked (.publish ⟨n, q⟩ v) answer ∈ s.deeds i) (present : v.isAbsent = false)
    (executes : r.environment.exit? n = some port) {m : String} {others : List String}
    (follows : r.environment.targets ⟨n, port⟩ = m :: others) {node : Node} {b : Behavior}
    (arrived : r.environment.arrive m = .runnable node b) :
    ∃ r', r'.environment = r.environment ∧ (s.advance i).ComesTo i r' m ∧
      ∀ before spec after edge, b.inputs = before ++ spec :: after →
        r.environment.graph.incoming? ⟨node.id, spec.port⟩ = some edge → edge.source = ⟨n, q⟩ →
        r.environment.Finds m node before spec.port ((s.advance i).scene r') v := by
  have staging : (s.advance i).outside.staging.deferred = false := by
    rw [staging_advance, ← reached, staging_follow]
    exact prompt
  obtain ⟨p, active, work, visits, published⟩ := publishing reached task run builtin published
  obtain ⟨s', performed, value⟩ := p.visit.handed_over visits published executes
  rw [follows] at performed
  have advanced : s.advance i = s.advancePulse i t r p := advance_pulse task active run work
  obtain ⟨tasks, runs, outside, running⟩ := advancePulse_spec s i t r p
  rw [performed] at tasks runs outside running
  rw [← advanced] at tasks runs outside running
  let r' : GraphRun := { r with memory := s'.memory }
  refine ⟨r', rfl, ⟨running.trans turn,
    ⟨{ t with work := .pulse ⟨.ready (r.environment.visit m), others ++ p.pending⟩ }, others ++ p.pending, ?_, active,
      ?_, rfl⟩, move_of_running (running.trans turn)⟩, ?_⟩
  · rw [tasks, List.getElem?_modify_eq, task]
    rfl
  · rw [runs, List.getElem?_modify_eq, run]
    rfl
  · intro before spec after edge inputs fed source
    have memory : ((s.advance i).scene r').memory = s'.memory := rfl
    exact Environment.finds_published builtin arrived inputs executes fed source staging
      (memory ▸ value) present

end Session

namespace Handoff

def graph : Graph where
  schemaVersion := Graph.currentSchema
  graphId := none
  name := none
  nodes := [⟨"hover", "event.uiHover", none, none, [], []⟩, ⟨"calc", "logic.eval", none, none, [], []⟩,
    ⟨"show", "debug.log", none, none, [], []⟩]
  edges := [⟨"e1", .exec, ⟨"hover", "exec_out"⟩, ⟨"calc", "exec_in"⟩⟩,
    ⟨"e2", .exec, ⟨"calc", "exec_out"⟩, ⟨"show", "exec_in"⟩⟩,
    ⟨"e3", .data, ⟨"calc", "data_out"⟩, ⟨"show", "data_in"⟩⟩]

/-- Every script of this environment gives seven. -/
def environment : Environment := ⟨graph, Builtin.repertoire fun _ _ _ => .ended (.ok (.int 7)), .standard⟩

def calculating : Session :=
  (Session.empty ⟨.empty (.int 1), .plain, [], .steady (.int 0), .collecting, 0, 0, #[]⟩).follow
    [.start environment, .cue (.call 0 0 .null), .cue .step, .cue .step]

theorem handoff_calculating : ∃ r' : GraphRun, r'.environment = environment ∧
    (calculating.advance 0).ComesTo 0 r' "show" ∧
    environment.Finds "show" ⟨"show", "debug.log", none, none, [], []⟩ [] "data_in"
      ((calculating.advance 0).scene r') (.int 7) := by
  have published : .asked (.publish ⟨"calc", "data_out"⟩ (.int 7)) (some ()) ∈ calculating.deeds 0 :=
    List.mem_of_getElem? (i := 3) rfl
  obtain ⟨r', same, comes, finds⟩ := Session.handoff (s := calculating) (i := 0) rfl rfl rfl rfl rfl ⟨_, rfl⟩
    published rfl rfl rfl rfl
  exact ⟨r', same, comes, finds [] (.wired "data_in") [] ⟨"e3", .data, ⟨"calc", "data_out"⟩, ⟨"show", "data_in"⟩⟩
    rfl rfl rfl⟩

end Handoff

end ActionGraph
