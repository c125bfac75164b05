import ActionGraph.Proofs.Action.Runs
import ActionGraph.Proofs.Pulse.Publication

/-!
The outputs that settings alone determine: texts, numbers and mounts. On a host that does not fail,
their nodes supply nothing else, and whoever resolves an input that is fed from them finds it.
-/

namespace ActionGraph

/-- An action that can come to nothing but this value: it is known, or it is a mount that the host is
asked for. -/
def Action.Pledges (a : Action Value) (v : Value) : Prop :=
  a = .done v ∧ (∀ e, v ≠ .element e) ∨ ∃ id, v = .element (.mount id) ∧ a = Action.mount id

namespace Builtin

/-- The value of an output that the settings of its node determine. -/
inductive Constant (settings : Settings) (node : Node) : String → Value → Prop
  | text : node.type = "data.constString" →
      Constant settings node "data_out" (.text (Value.textOr (node.setting? "value") ""))
  | number : node.type = "data.constNumber" →
      Constant settings node "data_out" (numberSetting node "value" (.int 0)).toValue
  | mount : node.type = "tool.uiRoot" →
      Constant settings node "tool_out" (.element (.mount (Value.textOr (node.setting? "mountId") settings.mountId)))

variable {settings : Settings} {node : Node} {port : String} {v : Value}

theorem Constant.present (constant : Constant settings node port v) : v.isAbsent = false := by
  cases constant with
  | text _ => rfl
  | number _ => cases numberSetting node "value" (.int 0) <;> rfl
  | mount _ => rfl

theorem Constant.not_event (constant : Constant settings node port v) : port ≠ "data_out_event" := by
  cases constant <;> decide

/-- The node of a constant is computed on demand, and comes to nothing else. -/
theorem Constant.behavior (constant : Constant settings node port v) (evaluate : Script.Evaluator) :
    ∃ b, (repertoire evaluate).find? node.type = some b ∧ b.producer = .passive ∧ b.executable = .ok false ∧
      (b.supply settings node port).Pledges v := by
  cases constant with
  | text type =>
    rw [type]
    exact ⟨constString, rfl, rfl, rfl, .inl ⟨rfl, nofun⟩⟩
  | number type =>
    rw [type]
    refine ⟨constNumber, rfl, rfl, rfl, .inl ⟨rfl, ?_⟩⟩
    cases numberSetting node "value" (.int 0) <;> nofun
  | mount type =>
    rw [type]
    exact ⟨uiRoot, rfl, rfl, rfl, .inr ⟨_, rfl, rfl⟩⟩

end Builtin

/-- Whoever asks for a mount is given it. -/
def Deed.Given : Deed → Prop
  | .asked (.mount id) (some x) => x = .ok (.element (.mount id))
  | _ => True

namespace Action

variable {id : String} {ds : List Deed} {w : Value}

theorem yields_mount (yields : (mount id).Yields ds w) (given : ∀ d ∈ ds, d.Given) :
    w = .element (.mount id) ∧ .asked (.mount id) (some (.ok w)) ∈ ds := by
  obtain ⟨x, rest, ended, rfl⟩ := yields.of_ask trivial
  obtain ⟨rfl, rfl⟩ := yields_ofExcept.mp ended
  have mine : Except.ok w = .ok (.element (.mount id)) := given _ List.mem_cons_self
  exact ⟨Except.ok.inj mine, List.mem_cons_self⟩

theorem not_fails_mount {e : Fault} (given : ∀ d ∈ ds, d.Given) : ¬ (mount id).Reaches ds (.failed e) := by
  intro reached
  cases reached with
  | answered x reached =>
    have mine : x = .ok (.element (.mount id)) := given _ List.mem_cons_self
    subst mine
    cases reached
  | settled slow x reached => exact slow trivial

variable {a : Action Value} {v : Value}

theorem Pledges.yields (pledges : a.Pledges v) (yields : a.Yields ds w) (given : ∀ d ∈ ds, d.Given) :
    w = v ∧ ∀ id, v = .element (.mount id) → .asked (.mount id) (some (.ok v)) ∈ ds := by
  rcases pledges with ⟨rfl, other⟩ | ⟨id, rfl, rfl⟩
  · obtain ⟨rfl, rfl⟩ := yields_done.mp yields
    exact ⟨rfl, fun id same => absurd same (other _)⟩
  · obtain ⟨rfl, asked⟩ := yields_mount yields given
    refine ⟨rfl, fun other same => ?_⟩
    cases same
    exact asked

theorem Pledges.not_fails (pledges : a.Pledges v) {e : Fault} (given : ∀ d ∈ ds, d.Given) :
    ¬ a.Reaches ds (.failed e) := by
  rcases pledges with ⟨rfl, _⟩ | ⟨id, rfl, rfl⟩
  · intro reached
    cases reached
  · exact not_fails_mount given

theorem Pledges.runs (pledges : a.Pledges v) {s : Scene} (prompt : s.outside.staging.deferred = false)
    (sound : s.outside.staging.faults = []) : ∃ ds s', a.Runs s ds s' (.ok v) := by
  rcases pledges with ⟨rfl, _⟩ | ⟨id, rfl, rfl⟩
  · exact ⟨_, _, runs_done v s⟩
  · obtain ⟨o, met, _⟩ := s.meet_mount prompt sound id
    exact ⟨_, _, .ask met (runs_done _ _)⟩

end Action

namespace Environment

variable {env : Environment} {c port : String} {node : Node} {v : Value}

/-- The node under an id has an output that its settings determine. -/
structure Determines (env : Environment) (c port : String) (v : Value) : Prop where
  builtin : env.IsBuiltin
  node : ∃ node, env.graph.node? c = some node ∧ Builtin.Constant env.settings node port v

theorem Determines.producer (determines : env.Determines c port v) : ∃ node b,
    env.graph.node? c = some node ∧ env.repertoire.find? node.type = some b ∧ b.producer = .passive ∧
      b.executable = .ok false ∧ (b.supply env.settings node port).Pledges v := by
  obtain ⟨⟨evaluate, eq⟩, node, found, constant⟩ := determines
  obtain ⟨b, known, rest⟩ := constant.behavior evaluate
  exact ⟨node, b, found, eq ▸ known, rest⟩

theorem Determines.present (determines : env.Determines c port v) : v.isAbsent = false := by
  obtain ⟨_, node, _, constant⟩ := determines
  exact constant.present

variable {ds : List Deed} {w : Value}

/-- What is supplied is the constant, and a mount is supplied only when the host has given it. -/
theorem Determines.supplies (determines : env.Determines c port v) (supplies : env.Supplies ⟨c, port⟩ w ds)
    (given : ∀ d ∈ ds, d.Given) : w = v ∧ ∀ id, v = .element (.mount id) → .asked (.mount id) (some (.ok v)) ∈ ds := by
  obtain ⟨node, b, found, known, _, _, pledges⟩ := determines.producer
  cases supplies with
  | intro found' known' passive vain present yields =>
    cases found.symm.trans found'
    cases known.symm.trans known'
    obtain ⟨rfl, asked⟩ := pledges.yields yields fun d listed => given d (by simp [listed])
    exact ⟨rfl, fun id same => by simp [asked id same]⟩

section

variable {input : Endpoint} {edge : Edge} (fed : env.graph.incoming? input = some edge)
  (source : edge.source = ⟨c, port⟩)

include fed source

/-- To resolve an input is to look at its port, and to ask the node if nothing is there. -/
theorem Determines.resolve_eq (determines : env.Determines c port v) : ∃ node b,
    (b.supply env.settings node port).Pledges v ∧
    env.resolve input = (Action.cached ⟨c, port⟩).andThen fun existing =>
      if existing.isAbsent then env.supply node b port else .done existing := by
  obtain ⟨node, b, found, known, passive, _, pledges⟩ := determines.producer
  refine ⟨node, b, pledges, ?_⟩
  unfold resolve
  simp only [fed, source, found, known, passive, if_true]
  rfl

/-- However a reader of the constant was answered, it has found the constant, on its port or because
the node was asked for it. -/
theorem Determines.read (determines : env.Determines c port v) (yields : (env.resolve input).Yields ds w)
    (given : ∀ d ∈ ds, d.Given)
    (cached : ∀ x, .asked (.cached ⟨c, port⟩) (some x) ∈ ds → x.isAbsent = true ∨ x = v) :
    w = v ∧ (.asked (.cached ⟨c, port⟩) (some v) ∈ ds ∨
      ∀ id, v = .element (.mount id) → .asked (.mount id) (some (.ok v)) ∈ ds) := by
  obtain ⟨node, b, pledges, resolve⟩ := determines.resolve_eq fed source
  rw [resolve] at yields
  obtain ⟨existing, asked, rest, rfl, looked, found⟩ := yields.of_andThen
  obtain rfl := looked.of_request trivial
  rcases cached existing (by simp) with missing | rfl
  · simp only [missing, if_true] at found
    obtain ⟨outcome, supplied, rest, rfl, tried, reported⟩ := found.of_andThen
    have honest : ∀ d ∈ supplied, d.Given := fun d listed => given d (by simp [listed])
    rcases tried.of_attempt with ⟨y, rfl, yields⟩ | ⟨e, rfl, fails⟩
    · obtain ⟨rfl, mount⟩ := pledges.yields yields honest
      simp only [determines.present] at reported
      obtain ⟨_, _, published, _⟩ := Action.Yields.of_ask reported trivial
      obtain ⟨_, _, ended, _⟩ := Action.Yields.of_ask published trivial
      exact ⟨(Action.yields_done.mp ended).2, .inr fun id same => by simp [mount id same]⟩
    · exact absurd fails (pledges.not_fails honest)
  · simp only [determines.present] at found
    exact ⟨(Action.yields_done.mp found).2, .inl (by simp)⟩

/-- On a host that neither defers nor fails, a reader of the constant finds it without waiting. -/
theorem Determines.resolves (determines : env.Determines c port v) {s : Scene}
    (prompt : s.outside.staging.deferred = false) (sound : s.outside.staging.faults = [])
    (cached : (s.memory.cache.value ⟨c, port⟩).isAbsent = true ∨ s.memory.cache.value ⟨c, port⟩ = v) :
    ∃ s', (env.resolve input).perform false s = (s', .ended (.ok v)) := by
  obtain ⟨node, b, pledges, resolve⟩ := determines.resolve_eq fed source
  rw [resolve]
  change ∃ s', Action.perform false s (ite _ _ _) = _
  rcases cached with missing | found
  · rw [if_pos missing]
    obtain ⟨ds, s', runs⟩ := pledges.runs prompt sound
    unfold Environment.supply
    rw [Action.bind_eq, (runs.attempt.leads _).performed]
    simp only [determines.present]
    exact ⟨_, rfl⟩
  · rw [if_neg (by simp [found, determines.present]), found]
    exact ⟨s, rfl⟩

end

end Environment

end ActionGraph
