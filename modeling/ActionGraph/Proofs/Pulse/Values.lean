import ActionGraph.Proofs.Behavior.Constant
import ActionGraph.Proofs.Pulse.Resolution
import ActionGraph.Proofs.Pulse.Spawning
import ActionGraph.Proofs.Script.Answers

/-!
What values the built-in node types supply and give. A producer supplies what its settings determine.
A node that is run gives an element that was made for it, what it found at its input, what its script
has answered, or what its script failed with.
-/

namespace ActionGraph

/-- Of the values that the built-in node types come to by themselves. -/
inductive Value.Own : Value → Prop
  | nothing : Own .null
  | text (s : String) : Own (.text s)
  | number (n : Number) : Own n.toValue
  | element (e : ElementRef) : Own (.element e)
  | event (e : Snapshot) : Own (.event e)
  | failure (m : String) : Own (.record [("message", .text m)])

namespace Builtin

open ActionGraph.Action

variable {settings : Settings} {node : Node} {inputs : Ports} {evaluate : Script.Evaluator} {b : Behavior}
  {ds : List Deed} {q : String} {v : Value}

theorem Constant.own (constant : Constant settings node q v) : v.Own := by
  cases constant with
  | text _ => exact .text _
  | number _ => exact .number _
  | mount _ => exact .element _

theorem constant_or_absent (known : (repertoire evaluate).find? node.type = some b) (passive : b.producer = .passive)
    (q : String) : (∃ v, Constant settings node q v) ∨ b.supply settings node q = .done .absent := by
  cases listed_of_find? known with
  | constString type =>
    by_cases own : q = "data_out"
    · subst own
      exact .inl ⟨_, .text type⟩
    · exact .inr (congrArg Action.done (if_neg own))
  | constNumber type =>
    by_cases own : q = "data_out"
    · subst own
      exact .inl ⟨_, .number type⟩
    · exact .inr (congrArg Action.done (if_neg own))
  | uiRoot type =>
    by_cases own : q = "tool_out"
    · subst own
      exact .inl ⟨_, .mount type⟩
    · exact .inr (if_neg own)
  | _ => cases passive

theorem constant_of_supply (known : (repertoire evaluate).find? node.type = some b) (passive : b.producer = .passive)
    (yields : (b.supply settings node q).Yields ds v) (present : v.isAbsent = false) (given : ∀ d ∈ ds, d.Given) :
    Constant settings node q v ∧ ∀ id, v = .element (.mount id) → .asked (.mount id) (some (.ok v)) ∈ ds := by
  rcases @constant_or_absent settings node evaluate b known passive q with ⟨w, constant⟩ | none
  · obtain ⟨b', known', _, _, pledges⟩ := constant.behavior evaluate
    cases known.symm.trans known'
    obtain ⟨rfl, asked⟩ := pledges.yields yields given
    exact ⟨constant, asked⟩
  · rw [none] at yields
    obtain ⟨_, rfl⟩ := yields_done.mp yields
    cases present

/-- How a node comes by what it gives, when its inputs are these. -/
inductive Outcome (evaluate : Script.Evaluator) (node : Node) (inputs : Ports) (ds : List Deed) : String → Value → Prop
  | spawned {kind : String} {params : List (String × Value)} {v : Value} : node.type = "ui.spawnEmoji" →
      .asked (.create kind params) (some (.ok v)) ∈ ds → Outcome evaluate node inputs ds "data_out_el" v
  | flown : node.type = "ui.animateFly" → (inputs.value "data_in_el").isNull = false →
      Outcome evaluate node inputs ds "data_out_el" (inputs.value "data_in_el")
  | answered {last : Option Snapshot} {ran : List Deed} {v : Value} : node.type = "logic.eval" →
      (evaluate (Value.textOr (node.setting? "code") "") (inputs.value "data_in")
        (last.elim .null Snapshot.toRecord)).toAction.Yields ran (.ok v) → Outcome evaluate node inputs ds "data_out" v
  | failed (m : String) : node.type = "logic.eval" →
      Outcome evaluate node inputs ds "error_out" (.record [("message", .text m)])

theorem not_yields_silent {a : Action Ports} (silent : a.Ends fun r => ∀ outputs, r = .ok outputs → outputs = []) :
    ¬ a.Yields ds [(q, v)] := fun yields => nomatch yields.ends silent _ rfl

theorem silent_log (message : String) (data : Value) :
    ((Action.log message data).andThen fun _ => .done []).Ends fun r =>
      ∀ outputs : Ports, r = .ok outputs → outputs = [] :=
  ⟨trivial, fun _ _ same => (Except.ok.inj same).symm⟩

theorem silent_removeElement : (removeElement.effect settings node inputs).Ends fun r =>
    ∀ outputs, r = .ok outputs → outputs = [] := by
  dsimp only [removeElement]
  split
  · exact silent_log _ _
  · refine ⟨trivial, fun r => ?_⟩
    cases r with
    | ok _ => exact silent_log _ _
    | error e => exact fun _ none => nomatch none

theorem spawned_appear {root : Value} {point : Point} (yields : (appear node inputs root point).Yields ds [(q, v)]) :
    q = "data_out_el" ∧ ∃ kind params, .asked (.create kind params) (some (.ok v)) ∈ ds := by
  obtain ⟨x, _, _, rfl, _, yields⟩ := yields.of_andThen
  obtain ⟨y, _, _, rfl, _, yields⟩ := yields.of_andThen
  obtain ⟨element, making, _, rfl, made, tells⟩ := yields.of_andThen
  obtain ⟨given, _, kept, rfl⟩ := made.of_ask trivial
  obtain ⟨rfl, rfl⟩ := yields_ofExcept.mp kept
  obtain ⟨_, _, told, rfl⟩ := tells.of_ask trivial
  obtain ⟨_, same⟩ := yields_done.mp told
  cases same
  exact ⟨rfl, _, _, List.mem_append_right _ (List.mem_append_right _ (List.mem_append_left _ List.mem_cons_self))⟩

theorem flown_animateFly : (animateFly.effect settings node inputs).Ends fun r =>
    ∀ outputs, r = .ok outputs → outputs = [] ∨
      (inputs.value "data_in_el").isNull = false ∧ outputs = [("data_out_el", inputs.value "data_in_el")] := by
  dsimp only [animateFly]
  split
  · exact ⟨trivial, fun _ _ same => .inl (Except.ok.inj same).symm⟩
  · rename_i there
    have last : ∀ outputs, Except.ok (ε := Fault) [("data_out_el", inputs.value "data_in_el")] = .ok outputs →
        outputs = [] ∨ (inputs.value "data_in_el").isNull = false ∧
          outputs = [("data_out_el", inputs.value "data_in_el")] :=
      fun outputs same => .inr ⟨Bool.eq_false_iff.mpr there, (Except.ok.inj same).symm⟩
    refine Ends.andThen (P := fun _ => True) (throughout_ofExcept trivial) (fun frames _ => ⟨trivial, fun flown => ?_⟩)
      fun _ _ _ none => nomatch none
    cases flown with
    | ok _ => exact ⟨trivial, fun _ => last⟩
    | error f => exact ⟨trivial, fun _ => ⟨trivial, fun _ => last⟩⟩

theorem outcome_evaluateScript (type : node.type = "logic.eval")
    (yields : ((evaluateScript evaluate).effect settings node inputs).Yields ds [(q, v)]) :
    Outcome evaluate node inputs ds q v := by
  obtain ⟨last, _, _, rfl, _, yields⟩ := yields.of_andThen
  obtain ⟨outcome, ran, _, rfl, ended, yields⟩ := yields.of_andThen
  cases outcome with
  | ok w =>
    obtain ⟨_, _, told, rfl⟩ := yields.of_ask trivial
    obtain ⟨_, same⟩ := yields_done.mp told
    cases same
    exact .answered type ended
  | error f =>
    obtain ⟨_, _, told, rfl⟩ := yields.of_ask trivial
    obtain ⟨_, same⟩ := yields_done.mp told
    cases same
    exact .failed _ type

theorem outcome_effect (known : (repertoire evaluate).find? node.type = some b)
    (yields : (b.effect settings node inputs).Yields ds [(q, v)]) : Outcome evaluate node inputs ds q v := by
  cases listed_of_find? known with
  | spawnEmoji type =>
    rw [spawnEmoji_effect] at yields
    obtain ⟨root, _, _, rfl, _, yields⟩ := yields.of_andThen
    obtain ⟨event, _, _, rfl, _, yields⟩ := yields.of_andThen
    obtain ⟨rfl, kind, params, made⟩ := spawned_appear yields
    exact .spawned type (List.mem_append_right _ (List.mem_append_right _ made))
  | animateFly type =>
    rcases yields.ends flown_animateFly _ rfl with none | ⟨there, same⟩
    · cases none
    · cases same
      exact .flown type there
  | removeElement => exact absurd yields (not_yields_silent silent_removeElement)
  | debugLog => exact absurd yields (not_yields_silent (silent_log _ _))
  | script type => exact outcome_evaluateScript type yields
  | _ => cases (yields_done.mp yields).2

end Builtin

namespace Environment

variable {env : Environment} {ds : List Deed} {v w : Value}

section

variable (builtin : env.IsBuiltin) (given : ∀ d ∈ ds, d.Given)

include builtin given

theorem own_of_supply {producer : Node} {b : Behavior} (known : env.repertoire.find? producer.type = some b)
    (passive : b.producer = .passive) {q : String} (yields : (env.supply producer b q).Yields ds w) :
    w.isAbsent = true ∨ w.Own := by
  obtain ⟨outcome, supplied, rest, rfl, tried, reported⟩ := yields.of_andThen
  rcases tried.of_attempt with ⟨x, rfl, supply⟩ | ⟨e, rfl, _⟩
  · cases missing : x.isAbsent with
    | true =>
      simp only [missing] at reported
      obtain ⟨_, rfl⟩ := Action.yields_done.mp reported
      exact .inl rfl
    | false =>
      simp only [missing] at reported
      obtain ⟨_, _, published, rfl⟩ := Action.Yields.of_ask reported trivial
      obtain ⟨_, _, ended, rfl⟩ := Action.Yields.of_ask published trivial
      obtain ⟨_, rfl⟩ := Action.yields_done.mp ended
      obtain ⟨evaluate, eq⟩ := builtin
      have honest : ∀ d ∈ supplied, d.Given := fun d listed => given d (List.mem_append_left _ listed)
      exact .inr (Builtin.constant_of_supply (eq ▸ known) passive supply missing honest).1.own
  · obtain ⟨_, _, logged, rfl⟩ := Action.Yields.of_ask reported trivial
    obtain ⟨_, _, ended, rfl⟩ := Action.Yields.of_ask logged trivial
    obtain ⟨_, rfl⟩ := Action.yields_done.mp ended
    exact .inl rfl

theorem own_of_resolve {input : Endpoint} (yields : (env.resolve input).Yields ds w) :
    w.isAbsent = true ∨ (∃ port, .asked (.cached port) (some w) ∈ ds) ∨ w.Own := by
  cases fed : env.graph.incoming? input with
  | none =>
    rw [resolve_eq_done fed] at yields
    obtain ⟨_, rfl⟩ := Action.yields_done.mp yields
    exact .inl rfl
  | some edge =>
    obtain ⟨missing, search, eq⟩ := resolve_eq_andThen fed
    rw [eq] at yields
    obtain ⟨existing, looking, rest, rfl, looked, searches⟩ := yields.of_andThen
    obtain rfl := looked.of_request trivial
    split at searches
    · cases search with
      | astray _ =>
        obtain ⟨_, _, told, rfl⟩ := Action.Yields.of_ask searches trivial
        obtain ⟨_, rfl⟩ := Action.yields_done.mp told
        exact .inl rfl
      | vain _ _ =>
        obtain ⟨_, rfl⟩ := Action.yields_done.mp searches
        exact .inl rfl
      | asked _ known passive =>
        have honest : ∀ d ∈ rest, d.Given := fun d listed => given d (List.mem_append_right _ listed)
        exact (own_of_supply builtin honest known passive searches).imp_right .inr
    · obtain ⟨_, rfl⟩ := Action.yields_done.mp searches
      exact .inr (.inl ⟨_, List.mem_append_left _ List.mem_cons_self⟩)

theorem first_of_readInputs {node : Node} {port : String} {specs : List Input} {ports inputs : Ports}
    (read : (env.readInputs node (.wired port :: specs) ports).Yields ds inputs) (once : port ∉ specs.map (·.port)) :
    (∃ source, .asked (.cached source) (some (inputs.value port)) ∈ ds ∧ (inputs.value port).isAbsent = false) ∨
      (inputs.value port).Own := by
  obtain ⟨w, resolved, rest, rfl, resolves, value⟩ := readInputs_first read once
  have found : (if w.isAbsent then .null else w) = inputs.value port :=
    Except.ok.inj ((Input.value_wired port node w).symm.trans value)
  cases missing : w.isAbsent with
  | true =>
    rw [missing, if_pos rfl] at found
    exact .inr (found ▸ .nothing)
  | false =>
    rw [missing, if_neg Bool.false_ne_true] at found
    subst found
    have honest : ∀ d ∈ resolved, d.Given := fun d listed => given d (List.mem_append_left _ listed)
    rcases own_of_resolve builtin honest resolves with vain | ⟨source, asked⟩ | own
    · rw [missing] at vain
      cases vain
    · exact .inl ⟨source, List.mem_append_left _ asked, missing⟩
    · exact .inr own

end

end Environment

end ActionGraph
