import ActionGraph.Proofs.Pulse.Resolution
import ActionGraph.Proofs.Session.Writes

/-!
The outputs of nodes that pulses run. Nobody but a pulse that has come to the node publishes there,
and only what the node has given it; so whoever is wired to it finds nothing that was not given, and
of what was given the latest.
-/

namespace ActionGraph

namespace Chronicle

/-- The last value on an output of a node was published by a pulse that had come to the node, and the
node had given it. -/
inductive LastGiven (env : Environment) (h : Chronicle) (k : Nat) (port : Endpoint) (v : Value) : Prop
  | intro {before after : Chronicle} {i : Nat} {answer : Option Unit} {earlier since : List Deed} :
      h = before ++ (k, .did i (.asked (.publish port v) answer)) :: after →
      before.history.of i = earlier ++ .arrived port.node :: since → env.Gives port.node port.port v since →
      after.written k port = [] → LastGiven env h k port v

end Chronicle

namespace Session

variable {s : Session} {h before after : Chronicle} {k : Nat} {env : Environment} {n q : String} {node : Node}
  {b : Behavior} {v : Value}

section

variable (told : s.Told h) (environment : s.environment? k = some env) (builtin : env.IsBuiltin)
  (distinct : (env.graph.nodes.map (·.id)).Nodup) (found : env.graph.node? n = some node)
  (known : env.repertoire.find? node.type = some b) (active : b.producer = .active)

include told environment builtin distinct found known active

theorem Told.given_write {x : Happening}
    (split : h = before ++ (k, x) :: after) (write : x.write? = some (⟨n, q⟩, v)) :
    ∃ i answer earlier since, x = .did i (.asked (.publish ⟨n, q⟩ v) answer) ∧
      before.history.of i = earlier ++ .arrived n :: since ∧ env.Gives n q v since := by
  cases told.wrote environment builtin split write with
  | fired wanted own on _ =>
    obtain ⟨other, listed, type, _, events⟩ := Environment.wanted_builtin builtin wanted
    rw [← own, events] at on
    cases on
    cases found.symm.trans (Graph.node?_of_mem distinct listed)
    obtain ⟨evaluate, eq⟩ := builtin
    rw [eq, type] at known
    cases known
    cases active
  | supplied _ supplies => cases active.symm.trans (supplies.passive known found)
  | given own gives => exact ⟨_, _, _, _, rfl, own, gives⟩

/-- What is on such an output, at any moment, is what the node gave last, and nothing before that. -/
theorem Told.last_given (split : h = before ++ after) :
    before.written k ⟨n, q⟩ = [] ∧ (before.memory k).cache.value ⟨n, q⟩ = .absent ∨
      before.LastGiven env k ⟨n, q⟩ ((before.memory k).cache.value ⟨n, q⟩) := by
  rw [Chronicle.value_memory]
  cases last : (before.written k ⟨n, q⟩).getLast? with
  | none => exact .inl ⟨List.getLast?_eq_none_iff.mp last, rfl⟩
  | some v =>
    obtain ⟨first, later, x, rfl, write, silent⟩ := Chronicle.written_last last
    have happened : h = first ++ (k, x) :: (later ++ after) := by simp [split]
    obtain ⟨i, answer, earlier, since, rfl, own, gives⟩ :=
      told.given_write environment builtin distinct found known active happened write
    exact .inr (.intro rfl own gives silent)

end

/-- No phantoms. In whatever happens to a session that begins with nobody listening, let a run have
built-in behaviors and nodes with distinct ids, and let pulses run one of these nodes. On an output of
it only pulses publish that have come to the node and run it, and what they publish is what the node
has given there. So at every moment there is a value for the output, nothing as long as no such pulse
has published there, and else what the last of them has published: this every task is answered that
then looks there, and this every input that is fed from the output is resolved to, without changing
anything. To resolve an input nobody is asked for more than what is there, lines of a log, or mounts,
and it does not matter what nodes would do if they were run. -/
theorem outputs_given {o : Outside} (unheard : o.Unheard) (moves : List Move)
    (environment : ((empty o).follow moves).environment? k = some env) (builtin : env.IsBuiltin)
    (distinct : (env.graph.nodes.map (·.id)).Nodup) (found : env.graph.node? n = some node)
    (known : env.repertoire.find? node.type = some b) (active : b.producer = .active) :
    (∀ (before after : Chronicle) x q v, (empty o).chronicle moves = before ++ (k, x) :: after →
      x.write? = some (⟨n, q⟩, v) → ∃ i answer earlier since, x = .did i (.asked (.publish ⟨n, q⟩ v) answer) ∧
        before.history.of i = earlier ++ .arrived n :: since ∧ env.Gives n q v since) ∧
    (∀ (before after : Chronicle) q, (empty o).chronicle moves = before ++ after →
      ∃ v, (before.written k ⟨n, q⟩ = [] ∧ v = .absent ∨ before.LastGiven env k ⟨n, q⟩ v) ∧
        (∀ i x rest, after = (k, .did i (.asked (.cached ⟨n, q⟩) (some x))) :: rest → x = v) ∧
        ∀ input edge, env.graph.incoming? input = some edge → edge.source = ⟨n, q⟩ →
          ∀ s : Scene, s.memory = before.memory k → (env.resolve input).perform false s = (s, .ended (.ok v))) ∧
    (∀ input, (env.resolve input).Asks env.Inquires) ∧
    ∀ other input, env.SuppliesAs other → other.resolve input = env.resolve input := by
  have told := told_follow unheard moves
  refine ⟨fun before after x q v split write => ?_, fun before after q split => ?_, fun input => ?_, ?_⟩
  · exact told.given_write environment builtin distinct found known active split write
  · refine ⟨_, told.last_given environment builtin distinct found known active split, fun i x rest next => ?_,
      fun input edge fed source s memory => ?_⟩
    · subst next
      exact (told.recorded.met before rest k i _ split).cached
    · have stored : b.producer ≠ .passive := by simp [active]
      rw [Environment.resolve_stored fed source found known stored, memory]
  · exact Environment.asks_resolve builtin input
  · exact fun other input same => same.resolve_eq input

/-- The trigger of a graph is called, and the pulse runs the node that it comes to. -/
def calculated : List Move :=
  [.start Handoff.environment, .cue (.call 0 0 .null), .cue .step, .cue .step, .cue .step]

theorem outputs_given_calculated :
    ∃ v, ((empty .fresh).chronicle calculated).LastGiven Handoff.environment 0 ⟨"calc", "data_out"⟩ v ∧
      ∀ s : Scene, s.memory = ((empty .fresh).chronicle calculated).memory 0 →
        (Handoff.environment.resolve ⟨"show", "data_in"⟩).perform false s = (s, .ended (.ok v)) := by
  have environment : ((empty .fresh).follow calculated).environment? 0 = some Handoff.environment :=
    environment?_first _ _ _
  have whole : (empty .fresh).chronicle calculated = (empty .fresh).chronicle calculated ++ [] :=
    (List.append_nil _).symm
  have given := outputs_given Outside.unheard_fresh calculated (n := "calc") environment ⟨_, rfl⟩ (by decide) rfl rfl rfl
  obtain ⟨v, ⟨none, _⟩ | last, _, resolved⟩ := given.2.1 _ [] "data_out" whole
  · have some : (((empty .fresh).chronicle calculated).written 0 ⟨"calc", "data_out"⟩).isEmpty = false := by
      decide +kernel
    rw [none] at some
    cases some
  · exact ⟨v, last, resolved ⟨"show", "data_in"⟩ _ rfl rfl⟩

end Session

end ActionGraph
