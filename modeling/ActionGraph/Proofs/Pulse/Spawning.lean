import ActionGraph.Proofs.Pulse.Publication

/-!
How elements come to be made. Of the built-in nodes only those that spawn make any, and each of them
under the root that it has found: what its input for tools is wired to, or else the mount of its run.
-/

namespace ActionGraph

/-- Makes no element. -/
def Request.Barren : Request → Prop
  | .create .. => False
  | _ => True

theorem Input.value_wired (port : String) (node : Node) (w : Value) :
    (Input.wired port).value node w = .ok (if w.isAbsent then .null else w) := by
  have null : Value.null.isNull = true := rfl
  have absent : Value.absent.isAbsent = true := rfl
  cases missing : w.isAbsent <;>
    simp [Input.value, Input.found, Input.counted, Input.fallback, Input.wired, null, missing, absent]

namespace Builtin

open ActionGraph.Action

variable (settings : Settings) (node : Node) (inputs : Ports)

theorem barren_animateFly : (animateFly.effect settings node inputs).Asks Request.Barren := by
  dsimp only [animateFly]
  split
  · exact ⟨trivial, fun _ => trivial⟩
  · refine Asks.andThen (asks_ofExcept _) fun frames => ⟨trivial, fun flown => ?_⟩
    cases flown with
    | ok _ => exact ⟨trivial, fun _ => trivial⟩
    | error f => exact ⟨trivial, fun _ => ⟨trivial, fun _ => trivial⟩⟩

theorem barren_removeElement : (removeElement.effect settings node inputs).Asks Request.Barren := by
  dsimp only [removeElement]
  split
  · exact ⟨trivial, fun _ => trivial⟩
  · refine Asks.andThen ⟨trivial, fun r => asks_ofExcept r⟩ fun _ => ⟨trivial, fun _ => trivial⟩

theorem barren_debugLog : (debugLog.effect settings node inputs).Asks Request.Barren :=
  ⟨trivial, fun _ => trivial⟩

theorem barren_script {α : Type} (run : Script.Run α) : run.toAction.Asks Request.Barren := by
  induction run with
  | ended r => exact trivial
  | log message data next ih => exact ⟨trivial, fun _ => ih⟩
  | now next ih => exact ⟨trivial, ih⟩

theorem barren_evaluateScript (evaluate : Script.Evaluator) :
    ((evaluateScript evaluate).effect settings node inputs).Asks Request.Barren := by
  refine Asks.andThen ⟨trivial, fun _ => trivial⟩ fun last => Asks.andThen (barren_script _) fun outcome => ?_
  cases outcome with
  | ok v => exact ⟨trivial, fun _ => trivial⟩
  | error f => exact ⟨trivial, fun _ => trivial⟩

variable {settings node inputs} {evaluate : Script.Evaluator} {type : String} {b : Behavior} {ds : List Deed}
  {kind : String} {params : List (String × Value)}

theorem creates_spawnEmoji (known : (repertoire evaluate).find? type = some b)
    (creates : (b.effect settings node inputs).Requests ds (.create kind params)) :
    type = "ui.spawnEmoji" ∧ b = spawnEmoji := by
  cases listed_of_find? known with
  | spawnEmoji type => exact ⟨type, rfl⟩
  | animateFly => exact (creates.asks (barren_animateFly settings node inputs)).elim
  | removeElement => exact (creates.asks (barren_removeElement settings node inputs)).elim
  | debugLog => exact (creates.asks (barren_debugLog settings node inputs)).elim
  | script => exact (creates.asks (barren_evaluateScript settings node inputs evaluate)).elim
  | _ => exact absurd creates not_requests_done

theorem appear_under {root : Value} {point : Point}
    (creates : (appear node inputs root point).Requests ds (.create kind params)) :
    Keyed.get? "parent" params = some root := by
  rcases creates.of_andThen with none | ⟨x, _, _, _, _, creates⟩
  · exact absurd none not_requests_ofExcept
  · rcases creates.of_andThen with none | ⟨y, _, _, _, _, creates⟩
    · exact absurd none not_requests_ofExcept
    · rcases creates.of_andThen with making | ⟨element, _, _, _, _, tells⟩
      · rcases making.of_ask trivial with ⟨_, same⟩ | ⟨_, _, none, _⟩
        · cases same
          rfl
        · exact absurd none not_requests_ofExcept
      · have told := tells.asks (R := Request.Barren) ⟨trivial, fun _ => trivial⟩
        exact told.elim

/-- What is spawned has its root as its parent: what is wired to the input for it, or the mount. -/
theorem spawned_under (creates : (spawnEmoji.effect settings node inputs).Requests ds (.create kind params)) :
    ∃ root rooted rest, ds = rooted ++ rest ∧ Keyed.get? "parent" params = some root ∧
      ((inputs.value "tool_in").isNull = true ∧ (Action.mount settings.mountId).Yields rooted root ∨
        (inputs.value "tool_in").isNull = false ∧ root = inputs.value "tool_in") := by
  rw [spawnEmoji_effect] at creates
  have choosing : (if (inputs.value "tool_in").isNull then Action.mount settings.mountId
      else .done (inputs.value "tool_in")).Asks Request.Barren := by
    split
    · exact ⟨trivial, fun r => asks_ofExcept r⟩
    · exact trivial
  have locating : (if (inputs.value "data_in_event").isNull then lastEventValue
      else .done (inputs.value "data_in_event")).Asks Request.Barren := by
    split
    · exact ⟨trivial, fun _ => trivial⟩
    · exact trivial
  rcases creates.of_andThen with chooses | ⟨root, rooted, rest, rfl, chosen, creates⟩
  · exact (chooses.asks choosing).elim
  · rcases creates.of_andThen with locates | ⟨event, _, _, _, _, appears⟩
    · exact (locates.asks locating).elim
    · refine ⟨root, rooted, rest, rfl, appear_under appears, ?_⟩
      split at chosen
      · rename_i null
        exact .inl ⟨null, chosen⟩
      · rename_i null
        exact .inr ⟨Bool.eq_false_iff.mpr null, (yields_done.mp chosen).2⟩

end Builtin

namespace Environment

variable {env : Environment} {node : Node} {specs : List Input} {spec : Input} {ports inputs : Ports} {ds : List Deed}

theorem barren_publishAll (node : Node) (outputs : Ports) : (publishAll node outputs).Asks Request.Barren := by
  induction outputs with
  | nil => exact trivial
  | cons output outputs ih => exact ⟨trivial, fun _ => ih⟩

theorem readInputs_keeps (read : (env.readInputs node specs ports).Yields ds inputs) {port : String}
    (other : port ∉ specs.map (·.port)) : inputs.value port = ports.value port := by
  induction specs generalizing ports ds with
  | nil => rw [(Action.yields_done.mp read).2]
  | cons spec specs ih =>
    rw [List.map_cons, List.mem_cons, not_or] at other
    obtain ⟨w, _, _, rfl, _, coerced⟩ := read.of_andThen
    obtain ⟨v, _, _, rfl, _, further⟩ := coerced.of_andThen
    rw [ih further other.2]
    simp [Ports.value, Ne.symm other.1]

theorem readInputs_first (read : (env.readInputs node (spec :: specs) ports).Yields ds inputs)
    (once : spec.port ∉ specs.map (·.port)) : ∃ w resolved rest, ds = resolved ++ rest ∧
      (env.resolve ⟨node.id, spec.port⟩).Yields resolved w ∧ spec.value node w = .ok (inputs.value spec.port) := by
  obtain ⟨w, resolved, rest, rfl, found, coerced⟩ := read.of_andThen
  obtain ⟨v, _, _, rfl, value, further⟩ := coerced.of_andThen
  refine ⟨w, resolved, _, rfl, found, ?_⟩
  rw [(Action.yields_ofExcept.mp value).2, readInputs_keeps further once]
  simp [Ports.value]

/-- How a node comes by the root that it spawns under, in these deeds: its input for tools is resolved
to the root, or it is given the mount of its run. -/
inductive Roots (env : Environment) (node : Node) (root : Value) (ds : List Deed) : Prop
  | wired {before resolved after : List Deed} : ds = before ++ resolved ++ after →
      (env.resolve ⟨node.id, "tool_in"⟩).Yields resolved root → root.isAbsent = false → Roots env node root ds
  | own {before rooted after : List Deed} : ds = before ++ rooted ++ after →
      (Action.mount env.settings.mountId).Yields rooted root → Roots env node root ds

/-- Only nodes that spawn make elements, and what they make has their root as its parent. -/
theorem created_visit (builtin : env.IsBuiltin) {id kind : String} {params : List (String × Value)}
    (creates : (env.visit id).Requests ds (.create kind params)) : ∃ node root, env.graph.node? id = some node ∧
      node.type = "ui.spawnEmoji" ∧ Keyed.get? "parent" params = some root ∧ env.Roots node root ds := by
  obtain ⟨node, b, first, rest, arrived, rfl, performed⟩ := performs_visit creates nofun
  obtain ⟨found, known, _⟩ := found_of_arrive arrived
  rcases performed.of_andThen with read | ⟨inputs, reading, rest, rfl, read, performed⟩
  · exact (read.asks (inquires_readInputs builtin node b.inputs [])).elim
  · obtain ⟨evaluate, eq⟩ := builtin
    rw [eq] at known
    rcases performed.of_andThen with effect | ⟨outputs, doing, rest, rfl, gives, publishes⟩
    · obtain ⟨type, rfl⟩ := Builtin.creates_spawnEmoji known effect
      obtain ⟨root, rooted, after, rfl, parent, origin⟩ := Builtin.spawned_under effect
      obtain ⟨w, resolved, later, rfl, resolves, value⟩ := readInputs_first read (by decide)
      refine ⟨node, root, found, type, parent, ?_⟩
      rcases origin with ⟨_, mount⟩ | ⟨counts, rfl⟩
      · have split : first :: (resolved ++ later ++ (rooted ++ after)) =
            (first :: (resolved ++ later)) ++ rooted ++ after := by simp
        exact .own split mount
      · have split : first :: (resolved ++ later ++ (rooted ++ after)) =
            [first] ++ resolved ++ (later ++ (rooted ++ after)) := by simp
        have input : (if w.isAbsent then .null else w) = inputs.value "tool_in" :=
          Except.ok.inj ((Input.value_wired "tool_in" node w).symm.trans value)
        cases missing : w.isAbsent with
        | true =>
          rw [missing, if_pos rfl] at input
          rw [← input] at counts
          cases counts
        | false =>
          rw [missing, if_neg Bool.false_ne_true] at input
          exact .wired split (input ▸ resolves) (input ▸ missing)
    · exact (publishes.asks (barren_publishAll node outputs)).elim

end Environment

end ActionGraph
