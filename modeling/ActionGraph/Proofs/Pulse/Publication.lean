import ActionGraph.Proofs.Action.Course
import ActionGraph.Proofs.Pulse.Handoff

/-!
Where published values come from. A visit of built-in behaviors publishes in two ways only: a passive
producer supplies a value that was missing, or the node that is visited gives it as its output.
-/

namespace ActionGraph

/-- Only tells what is going on. -/
def Request.Notes : Request → Prop
  | .log .. | .diagnose _ => True
  | _ => False

namespace Environment

/-- These deeds lead to a value being published on a port by its node, a passive producer: it was
missing, and the node has supplied it. -/
inductive Supplies (env : Environment) (port : Endpoint) (v : Value) : List Deed → Prop
  | intro {producer : Node} {b : Behavior} {existing : Value} {supplied : List Deed} {line : String} :
      env.graph.node? port.node = some producer → env.repertoire.find? producer.type = some b →
      b.producer = .passive → existing.isAbsent = true → v.isAbsent = false →
      (b.supply env.settings producer port.port).Yields supplied v →
      Supplies env port v (.asked (.cached port) (some existing) ::
        (supplied ++ [.asked (.diagnose line) (some ())]))

/-- In these deeds the node under an id is run: its inputs are read, and then its effect gives this
value on an output. -/
inductive Gives (env : Environment) (id port : String) (v : Value) : List Deed → Prop
  | intro {node : Node} {b : Behavior} {first : Deed} {reading doing : List Deed} {inputs : Ports} :
      env.arrive id = .runnable node b → (env.readInputs node b.inputs []).Yields reading inputs →
      (b.effect env.settings node inputs).Yields doing [(port, v)] →
      Gives env id port v (first :: (reading ++ doing))

variable {env : Environment} {ds : List Deed} {port : Endpoint} {v : Value}

section

variable {node : Node} {b : Behavior} (known : env.repertoire.find? node.type = some b)

include known

theorem Supplies.passive (supplies : env.Supplies port v ds) (found : env.graph.node? port.node = some node) :
    b.producer = .passive := by
  cases supplies with
  | intro found' known' passive _ _ _ =>
    cases found.symm.trans found'
    cases known.symm.trans known'
    exact passive

theorem Gives.runs {id q : String} (gives : env.Gives id q v ds) (found : env.graph.node? id = some node) :
    b.executable = .ok true := by
  cases gives with
  | intro arrived _ _ =>
    obtain ⟨found', known', runs⟩ := found_of_arrive arrived
    cases found.symm.trans found'
    cases known.symm.trans known'
    exact runs

end

theorem notes_leave (origin : Endpoint) : (env.leave origin).Asks Request.Notes := by
  refine (diagnoses_leave origin).mono (fun r _ diagnoses => ?_) fun _ _ => trivial
  obtain ⟨line, rfl⟩ := diagnoses
  exact trivial

theorem notes_goOn (node : Node) (b : Behavior) (outcome : Except Fault Unit) :
    (env.goOn node b outcome).Asks Request.Notes := by
  cases outcome with
  | ok _ => exact notes_leave _
  | error f => exact ⟨trivial, fun _ => ⟨trivial, fun _ => notes_leave _⟩⟩

/-- All that a visit does besides taking notes belongs to performing the node. -/
theorem performs_visit {id : String} {r : Request} (requested : (env.visit id).Requests ds r) (acts : ¬ r.Notes) :
    ∃ node b first rest, env.arrive id = .runnable node b ∧ ds = first :: rest ∧
      (env.perform node b).Requests rest r := by
  unfold visit at requested
  split at requested
  · exact absurd (requested.asks ⟨trivial, fun _ => trivial⟩) acts
  · exact absurd (requested.asks ⟨trivial, fun _ => ⟨trivial, fun _ => trivial⟩⟩) acts
  · exact absurd requested Action.not_requests_done
  · exact absurd requested Action.not_requests_failed
  · rename_i node b arrived
    rw [run_eq] at requested
    obtain ⟨_, rest, tried, rfl⟩ := requested.past trivial fun same => acts (same ▸ trivial)
    rcases tried.of_andThen with trial | ⟨outcome, _, _, _, _, ended⟩
    · exact ⟨node, b, _, rest, arrived, rfl, trial.of_attempt⟩
    · exact absurd (ended.asks (notes_goOn node b outcome)) acts

section Builtin

variable (builtin : env.IsBuiltin)

include builtin

theorem supplies_of_supply {producer : Node} {b : Behavior} (known : env.repertoire.find? producer.type = some b)
    (passive : b.producer = .passive) {q : String}
    (published : (env.supply producer b q).Requests ds (.publish port v)) :
    port = ⟨producer.id, q⟩ ∧ v.isAbsent = false ∧ ∃ supplied line, (b.supply env.settings producer q).Yields supplied v ∧
      ds = supplied ++ [.asked (.diagnose line) (some ())] := by
  obtain ⟨evaluate, eq⟩ := builtin
  have asks := (Builtin.passive_supply env.settings producer (eq ▸ known) passive q).1
  rcases published.of_andThen with trial | ⟨outcome, supplied, rest, rfl, tried, reported⟩
  · exact (trial.of_attempt.asks asks).elim
  · rcases tried.of_attempt with ⟨w, rfl, yields⟩ | ⟨f, rfl, _⟩
    · dsimp only at reported
      split at reported
      · exact absurd reported Action.not_requests_done
      · rename_i present
        obtain ⟨_, rest, publishes, rfl⟩ := reported.past trivial nofun
        rcases publishes.of_ask trivial with ⟨rfl, same⟩ | ⟨_, _, done, _⟩
        · cases same
          exact ⟨rfl, Bool.eq_false_iff.mpr present, supplied, _, yields, rfl⟩
        · exact absurd done Action.not_requests_done
    · obtain ⟨_, _, logged, _⟩ := reported.past trivial nofun
      obtain ⟨_, _, done, _⟩ := logged.past trivial nofun
      exact absurd done Action.not_requests_done

theorem supplies_of_resolve {input : Endpoint} (published : (env.resolve input).Requests ds (.publish port v)) :
    env.Supplies port v ds := by
  cases fed : env.graph.incoming? input with
  | none =>
    rw [resolve_eq_done fed] at published
    exact absurd published Action.not_requests_done
  | some edge =>
    obtain ⟨missing, search, eq⟩ := resolve_eq_andThen fed
    rw [eq] at published
    obtain ⟨existing, rest, searches, rfl⟩ := published.past trivial nofun
    split at searches
    · rename_i vain
      cases search with
      | astray _ =>
        obtain ⟨_, _, done, _⟩ := searches.past trivial nofun
        exact absurd done Action.not_requests_done
      | vain _ _ => exact absurd searches Action.not_requests_done
      | @asked producer b found known passive =>
        obtain ⟨rfl, present, supplied, line, yields, rfl⟩ := supplies_of_supply builtin known passive searches
        have same := Graph.id_of_node? found
        have source : edge.source = ⟨producer.id, edge.source.port⟩ := by rw [same]
        rw [source]
        exact .intro (same.symm ▸ found) known passive vain present yields
    · exact absurd searches Action.not_requests_done

theorem supplies_of_readInputs {node : Node} {specs : List Input} {ports : Ports}
    (published : (env.readInputs node specs ports).Requests ds (.publish port v)) :
    ∃ earlier later, ds = earlier ++ later ∧ env.Supplies port v later := by
  induction specs generalizing ports ds with
  | nil => exact absurd published Action.not_requests_done
  | cons spec specs ih =>
    rcases published.of_andThen with resolving | ⟨wired, resolved, rest, rfl, _, coerced⟩
    · exact ⟨[], ds, rfl, supplies_of_resolve builtin resolving⟩
    · rcases coerced.of_andThen with coercion | ⟨x, none, rest, rfl, _, further⟩
      · exact absurd coercion Action.not_requests_ofExcept
      · obtain ⟨earlier, later, rfl, supplies⟩ := ih further
        exact ⟨resolved ++ (none ++ earlier), later, by simp, supplies⟩

theorem published_visit {id : String} (published : (env.visit id).Requests ds (.publish port v)) :
    (∃ earlier later, ds = earlier ++ later ∧ env.Supplies port v later) ∨
      port.node = id ∧ env.Gives id port.port v ds := by
  obtain ⟨node, b, first, rest, arrived, rfl, performed⟩ := performs_visit published nofun
  rcases performed.of_andThen with read | ⟨inputs, reading, rest, rfl, read, performed⟩
  · obtain ⟨earlier, later, rfl, supplies⟩ := supplies_of_readInputs builtin read
    exact .inl ⟨first :: earlier, later, rfl, supplies⟩
  · obtain ⟨evaluate, eq⟩ := builtin
    have modest := Builtin.modest_effect env.settings node inputs (eq ▸ (found_of_arrive arrived).2.1)
    rcases performed.of_andThen with effect | ⟨outputs, doing, rest, rfl, gives, publishes⟩
    · have unpublished := effect.asks (modest.mono (fun _ _ h => h) fun _ _ => trivial)
      exact absurd rfl (unpublished port)
    · have single : outputs.length ≤ 1 := gives.ends (modest.mono (fun _ _ _ => trivial) fun _ h => h) _ rfl
      match outputs, single with
      | [], _ => exact absurd publishes Action.not_requests_done
      | [(q, w)], _ =>
        rcases publishes.of_ask trivial with ⟨rfl, same⟩ | ⟨_, _, done, _⟩
        · cases same
          refine .inr ⟨id_of_arrive arrived, ?_⟩
          rw [List.append_nil]
          exact .intro arrived read gives
        · exact absurd done Action.not_requests_done

end Builtin

end Environment

end ActionGraph
