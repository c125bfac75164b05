import ActionGraph.Proofs.Pulse.Solo

/-!
What a secluded pulse finds. Its built-in nodes evaluate no scripts, and whatever spawns among them is
wired to its trigger; so it depends on nothing but what it sees on ports. To find that, it does nothing
that others could tell, and two such pulses that have come equally far find the same, but for the names
of elements.
-/

namespace ActionGraph

open ActionGraph.Action
open Value (Linked Renamed)

/-- The pulses of a trigger come to these nodes, and what these do depends on nothing else than the
values at their inputs: none of them evaluates a script, and those that spawn know the event. -/
structure Environment.Secluded (env : Environment) (trigger : String) (nodes : List String) : Prop where
  cascade : env.Unfolding (env.targets ⟨trigger, "exec_out"⟩) nodes
  scriptless : ∀ n ∈ nodes, ∀ node, env.graph.node? n = some node → node.type ≠ "logic.eval"
  located : ∀ n ∈ nodes, ∀ node, env.graph.node? n = some node → node.type = "ui.spawnEmoji" →
    ∃ edge, env.graph.incoming? ⟨n, "data_in_event"⟩ = some edge ∧ edge.source = ⟨trigger, "data_out_event"⟩

variable {ρ : ElementRef → ElementRef → Prop}

theorem Builtin.Constant.unique {settings : Settings} {node : Node} {q : String} {v w : Value}
    (first : Constant settings node q v) (second : Constant settings node q w) : w = v := by
  generalize same : q = r at second
  cases first with
  | text type =>
    cases second with
    | text _ => rfl
    | number type' => exact absurd (type.symm.trans type') (by decide)
    | mount _ => exact absurd same (by decide)
  | number type =>
    cases second with
    | text type' => exact absurd (type.symm.trans type') (by decide)
    | number _ => rfl
    | mount _ => exact absurd same (by decide)
  | mount type =>
    cases second with
    | text _ => exact absurd same (by decide)
    | number _ => exact absurd same (by decide)
    | mount _ => rfl

theorem Builtin.Constant.linked (renames : ∀ id, ρ (.mount id) (.mount id)) {settings : Settings} {node : Node}
    {q : String} {v : Value} (constant : Constant settings node q v) : Linked ρ v v := by
  cases constant with
  | text _ => exact .atom rfl
  | number _ => exact .atom (Value.isAtom_number _)
  | mount _ => exact .element (renames _)

theorem Environment.Determines.unique {env : Environment} {c q : String} {v w : Value} (first : env.Determines c q v)
    (second : env.Determines c q w) : w = v := by
  obtain ⟨_, node, found, constant⟩ := first
  obtain ⟨_, node', found', constant'⟩ := second
  cases found.symm.trans found'
  exact constant.unique constant'

theorem Environment.Determines.not_event {env : Environment} {c q : String} {v : Value}
    (determines : env.Determines c q v) : q ≠ "data_out_event" := by
  obtain ⟨_, _, _, constant⟩ := determines
  exact constant.not_event

theorem Environment.not_determines {env : Environment} {c : String}
    (other : ∀ node b, env.graph.node? c = some node → env.repertoire.find? node.type = some b → b.producer ≠ .passive)
    (q : String) (v : Value) : ¬ env.Determines c q v := by
  intro determines
  obtain ⟨node, b, found, known, passive, _⟩ := determines.producer
  exact other node b found known passive

namespace Solo

variable {p : Solo} {pre pre' ds ds' : List Deed} {port input : Endpoint} {v w : Value}

theorem value_linked {ws ws' : List (Endpoint × Value)}
    (same : List.Forall₂ (fun a b => a.1 = b.1 ∧ a.2.Linked ρ b.2) ws ws') (port : Endpoint) {c c' : Cache}
    (held : (c.value port).Linked ρ (c'.value port)) : ((c.after ws).value port).Linked ρ ((c'.after ws').value port) := by
  induction same generalizing c c' with
  | nil => exact held
  | cons one _ ih =>
    refine ih ?_
    rw [Cache.value_publish, Cache.value_publish, one.1]
    split
    · exact one.2
    · exact held

theorem Sees.linked (renames : ∀ id, ρ (.mount id) (.mount id)) (level : p.Level ρ pre pre')
    (here : p.Sees pre port v) (there : p.Sees pre' port w) : Linked ρ v w := by
  cases here with
  | constant determines =>
    cases there with
    | constant determines' =>
      obtain rfl := determines.unique determines'
      obtain ⟨_, _, _, constant⟩ := determines
      exact constant.linked renames
    | event same => exact absurd (congrArg Endpoint.port same) determines.not_event
    | own undetermined _ => exact absurd determines (undetermined _)
  | event same =>
    cases there with
    | constant determines => exact absurd (congrArg Endpoint.port same) determines.not_event
    | event _ => exact .atom rfl
    | own _ other => exact absurd same other
  | own undetermined other =>
    cases there with
    | constant determines => exact absurd determines (undetermined _)
    | event same => exact absurd same other
    | own _ _ => exact value_linked level.produced port (.atom rfl)

theorem Sees.of_still (still : p.Still ds) (sees : p.Sees (pre ++ ds) port v) : p.Sees pre port v := by
  cases sees with
  | constant determines => exact .constant determines
  | event same => exact .event same
  | own undetermined other =>
    rw [Environment.produced_append, still.produced, List.append_nil]
    exact .own undetermined other

variable (p) in
/-- What a pulse that has done this finds at an input: nothing, or what it sees at the other end. -/
inductive Finds (pre : List Deed) (input : Endpoint) : Value → Prop
  | unfed : p.env.graph.incoming? input = none → Finds pre input .absent
  | fed {edge : Edge} {v : Value} : p.env.graph.incoming? input = some edge → p.Sees pre edge.source v → Finds pre input v

theorem Finds.linked (renames : ∀ id, ρ (.mount id) (.mount id)) (level : p.Level ρ pre pre')
    (here : p.Finds pre input v) (there : p.Finds pre' input w) : Linked ρ v w := by
  cases here with
  | unfed none =>
    cases there with
    | unfed _ => exact .atom rfl
    | fed some _ => cases none.symm.trans some
  | fed some sees =>
    cases there with
    | unfed none => cases none.symm.trans some
    | fed some' sees' =>
      cases some.symm.trans some'
      exact sees.linked renames level sees'

theorem Finds.of_still (still : p.Still ds) (finds : p.Finds (pre ++ ds) input v) : p.Finds pre input v := by
  cases finds with
  | unfed none => exact .unfed none
  | fed some sees => exact .fed some (sees.of_still still)

theorem still_nil : p.Still [] := ⟨rfl, rfl, rfl⟩

theorem still_mounts (mounts : ∀ d ∈ ds, ∃ r x, d = .asked r x ∧ r.Mounts) : p.Still ds := by
  have each : ∀ d ∈ ds, d.created? = none ∧ d.act? = none ∧ d.write? = none := by
    intro d listed
    obtain ⟨r, x, rfl, mount⟩ := mounts d listed
    cases r with
    | mount id => exact ⟨rfl, rfl, rfl⟩
    | _ => exact mount.elim
  refine ⟨List.filterMap_eq_nil_iff.mpr fun d listed => (each d listed).1,
    List.filterMap_eq_nil_iff.mpr fun d listed => (each d listed).2.1, ?_⟩
  unfold Environment.produced
  rw [List.filterMap_eq_nil_iff.mpr fun d listed => (each d listed).2.2]
  rfl

theorem still_publish (idle : p.env.exit? port.node = none) (x : Option Unit) :
    p.Still [.asked (.publish port v) x] :=
  ⟨rfl, rfl, by simp [Environment.produced, Deed.write?, idle]⟩

theorem given_of_honestly (honest : p.Honestly pre ds) : ∀ d ∈ ds, d.Given := by
  induction ds generalizing pre with
  | nil => exact fun d listed => absurd listed List.not_mem_nil
  | cons d ds ih =>
    intro other listed
    rcases List.mem_cons.mp listed with rfl | later
    · cases other with
      | arrived id => trivial
      | asked r x =>
        cases r with
        | mount id =>
          obtain rfl : x = _ := honest.1
          exact rfl
        | _ => trivial
    · exact ih honest.2 other later

section

variable (builtin : p.env.IsBuiltin)

include builtin

/-- A producer supplies its constant, or it has none, and nobody can tell that it was asked. -/
theorem supplied {producer : Node} {b : Behavior} {q : String} (found : p.env.graph.node? producer.id = some producer)
    (known : p.env.repertoire.find? producer.type = some b) (passive : b.producer = .passive)
    (honest : p.Honestly pre ds) {o : Except Fault Value} (comes : (p.env.supply producer b q).Comes ds o) :
    p.Still ds ∧ ((∃ v, p.env.Determines producer.id q v ∧ o = .ok v) ∨
      (∀ v, ¬ p.env.Determines producer.id q v) ∧ o = .ok .absent) := by
  obtain ⟨evaluate, eq⟩ := builtin
  obtain ⟨outcome, before, after, rfl, tried, reported⟩ := comes.of_trial
  have given := given_of_honestly (honestly_append.mp honest).1
  rcases @Builtin.constant_or_absent p.env.settings producer evaluate b (eq ▸ known) passive q with ⟨v, constant⟩ | none
  · have determines : p.env.Determines producer.id q v := ⟨⟨evaluate, eq⟩, producer, found, constant⟩
    obtain ⟨asks, idle⟩ := Builtin.passive_supply p.env.settings producer (eq ▸ known) passive q
    obtain ⟨_, _, found', known', _, _, pledges⟩ := determines.producer
    cases found.symm.trans found'
    cases known.symm.trans known'
    cases outcome with
    | error f => exact absurd tried (pledges.not_fails given)
    | ok w =>
      obtain ⟨rfl, _⟩ := pledges.yields tried given
      simp only [determines.present] at reported
      obtain ⟨x, rest, rfl, published⟩ := Comes.of_prompt reported trivial
      obtain ⟨y, rest, rfl, ended⟩ := Comes.of_prompt published trivial
      obtain ⟨rfl, rfl⟩ := ended.of_done
      have told : p.Still [.asked (.diagnose ("[RESOLVER] Resolved " ++ Endpoint.text ⟨producer.id, q⟩ ++ " → " ++
        w.typeName)) (some x)] := ⟨rfl, rfl, rfl⟩
      have idle := Environment.exit?_of_passive found known idle
      exact ⟨(still_mounts (Reaches.asked tried asks)).append (told.append (still_publish idle _)),
        .inl ⟨w, determines, rfl⟩⟩
  · have undetermined : ∀ v, ¬ p.env.Determines producer.id q v := by
      intro v determines
      obtain ⟨_, _, found', known', _, _, pledges⟩ := determines.producer
      cases found.symm.trans found'
      cases known.symm.trans known'
      rw [none] at pledges
      rcases pledges with ⟨same, _⟩ | ⟨id, _, same⟩
      · cases same
        exact absurd determines.present Bool.noConfusion
      · cases same
    rw [none] at tried
    obtain ⟨rfl, rfl⟩ := tried.of_done
    obtain ⟨rfl, rfl⟩ := Comes.of_done reported
    exact ⟨still_nil, .inr ⟨undetermined, rfl⟩⟩

theorem searched {edge : Edge} {missing : Action Value} (search : p.env.Search edge missing)
    (honest : p.Honestly pre ds) {o : Except Fault Value} (comes : missing.Comes ds o) :
    p.Still ds ∧ ((∃ v, p.env.Determines edge.source.node edge.source.port v ∧ o = .ok v) ∨
      (∀ v, ¬ p.env.Determines edge.source.node edge.source.port v) ∧ o = .ok .absent) := by
  cases search with
  | astray unknown =>
    have undetermined : ∀ v, ¬ p.env.Determines edge.source.node edge.source.port v := by
      refine Environment.not_determines (fun node b found _ => ?_) _
      cases unknown.symm.trans found
    obtain ⟨x, rest, rfl, ended⟩ := comes.of_prompt trivial
    obtain ⟨rfl, rfl⟩ := ended.of_done
    exact ⟨⟨rfl, rfl, rfl⟩, .inr ⟨undetermined, rfl⟩⟩
  | vain found stored =>
    have undetermined : ∀ v, ¬ p.env.Determines edge.source.node edge.source.port v := by
      refine Environment.not_determines (fun node b found' known => ?_) _
      cases found.symm.trans found'
      exact stored b known
    obtain ⟨rfl, rfl⟩ := comes.of_done
    exact ⟨still_nil, .inr ⟨undetermined, rfl⟩⟩
  | asked found known passive =>
    have same := Graph.id_of_node? found
    rw [← same] at found
    rw [← same]
    exact supplied builtin found known passive honest comes

/-- Whatever an input of the pulse is resolved to is what it sees there, and nobody can tell that it was
looked for. -/
theorem resolved (feeds : ∀ edge, p.env.graph.incoming? input = some edge → p.env.Feeds p.nodes edge.source)
    (honest : p.Honestly pre ds) {o : Except Fault Value} (comes : (p.env.resolve input).Comes ds o) :
    ∃ w, o = .ok w ∧ p.Finds pre input w ∧ p.Still ds := by
  cases fed : p.env.graph.incoming? input with
  | none =>
    rw [Environment.resolve_eq_done fed] at comes
    obtain ⟨rfl, rfl⟩ := comes.of_done
    exact ⟨_, rfl, .unfed fed, still_nil⟩
  | some edge =>
    obtain ⟨missing, search, eq⟩ := Environment.resolve_eq_andThen fed
    rw [eq] at comes
    obtain ⟨existing, rest, rfl, found⟩ := Comes.of_prompt (r := .cached edge.source) comes trivial
    have looked : p.Still [.asked (.cached edge.source) (some existing)] := ⟨rfl, rfl, rfl⟩
    have seen := honest.1 existing rfl (feeds edge fed)
    change (ite _ _ _ : Action Value).Comes rest o at found
    split at found
    · rename_i vain
      obtain ⟨still, ⟨v, determines, rfl⟩ | ⟨undetermined, rfl⟩⟩ := searched builtin search honest.2 found
      · exact ⟨v, rfl, .fed fed (.constant determines), looked.append still⟩
      · -- What is missing is seen to be missing, unless it is a constant that nobody has asked for yet.
        rcases seen with sees | ⟨_, v, determines⟩
        · exact ⟨_, rfl, .fed fed (Value.eq_absent_of vain ▸ sees), looked.append still⟩
        · exact absurd determines (undetermined v)
    · rename_i present
      obtain ⟨rfl, rfl⟩ := found.of_done
      rcases seen with sees | ⟨rfl, _⟩
      · exact ⟨_, rfl, .fed fed sees, looked⟩
      · exact absurd rfl present

end

variable (p) in
/-- An input of a node reads what is found at it. -/
def Reads (pre : List Deed) (node : Node) (spec : Input) (x : Value) : Prop :=
  ∃ w, p.Finds pre ⟨node.id, spec.port⟩ w ∧ spec.value node w = .ok x

theorem Reads.alike (renames : ∀ id, ρ (.mount id) (.mount id)) (level : p.Level ρ pre pre') {node : Node} {spec : Input}
    (simple : spec.Simple) {x y : Value} (here : p.Reads pre node spec x) (there : p.Reads pre' node spec y) :
    spec.Alike ρ x y := by
  obtain ⟨v, finds, read⟩ := here
  obtain ⟨w, finds', read'⟩ := there
  rcases Input.value_alike simple node (finds.linked renames level finds') with ⟨x', y', same, same', alike⟩ | ⟨f, fails, _⟩
  · cases read.symm.trans same
    cases read'.symm.trans same'
    exact alike
  · cases read.symm.trans fails

section

variable (builtin : p.env.IsBuiltin) (renames : ∀ id, ρ (.mount id) (.mount id))

include builtin renames

theorem level_readInputs {node : Node} {specs : List Input} (simple : ∀ spec ∈ specs, spec.Simple)
    (once : (specs.map (·.port)).Nodup)
    (feeds : ∀ spec ∈ specs, ∀ edge, p.env.graph.incoming? ⟨node.id, spec.port⟩ = some edge →
      p.env.Feeds p.nodes edge.source)
    (level : p.Level ρ pre pre') (honest : p.Honestly pre ds) (honest' : p.Honestly pre' ds') {ports ports' : Ports}
    {o o' : Except Fault Ports} (comes : (p.env.readInputs node specs ports).Comes ds o)
    (comes' : (p.env.readInputs node specs ports').Comes ds' o') :
    Outcomes (fun inputs inputs' => ∀ spec ∈ specs, p.Reads pre node spec (inputs.value spec.port) ∧
      p.Reads pre' node spec (inputs'.value spec.port)) o o' ∧ p.Still ds ∧ p.Still ds' := by
  induction specs generalizing pre pre' ds ds' ports ports' with
  | nil =>
    obtain ⟨rfl, rfl⟩ := comes.of_done
    obtain ⟨rfl, rfl⟩ := comes'.of_done
    exact ⟨.ok (by simp), still_nil, still_nil⟩
  | cons spec specs ih =>
    obtain ⟨found, resolving, rest, rfl, resolves, next⟩ := Comes.of_andThen comes
    obtain ⟨found', resolving', rest', rfl, resolves', next'⟩ := Comes.of_andThen comes'
    obtain ⟨honestly, onward⟩ := honestly_append.mp honest
    obtain ⟨honestly', onward'⟩ := honestly_append.mp honest'
    have feed := feeds spec List.mem_cons_self
    obtain ⟨v, rfl, finds, still⟩ := resolved builtin feed honestly resolves
    obtain ⟨w, rfl, finds', still'⟩ := resolved builtin feed honestly' resolves'
    obtain ⟨coerced, none, rest, rfl, coerces, further⟩ := Comes.of_andThen next
    obtain ⟨coerced', none', rest', rfl, coerces', further'⟩ := Comes.of_andThen next'
    rcases Input.value_alike (simple spec List.mem_cons_self) node (finds.linked renames level finds') with
      ⟨x, y, read, read', _⟩ | ⟨f, fails, fails'⟩
    · rw [read] at coerces
      rw [read'] at coerces'
      obtain ⟨rfl, rfl⟩ := coerces.of_done
      obtain ⟨rfl, rfl⟩ := coerces'.of_done
      have fresh := List.nodup_cons.mp once
      obtain ⟨outcomes, quiet, quiet'⟩ := ih (fun other listed => simple other (List.mem_cons_of_mem spec listed)) fresh.2
        (fun other listed => feeds other (List.mem_cons_of_mem spec listed)) (level.append (still.level still')) onward
        onward' further further'
      refine ⟨?_, still.append quiet, still'.append quiet'⟩
      cases outcomes with
      | error f => exact .error f
      | @ok inputs inputs' reads =>
        refine .ok fun other listed => ?_
        rcases List.mem_cons.mp listed with rfl | listed
        · have kept : inputs.value other.port = x := by
            rw [Environment.readInputs_keeps further fresh.1]
            simp [Ports.value]
          have kept' : inputs'.value other.port = y := by
            rw [Environment.readInputs_keeps further' fresh.1]
            simp [Ports.value]
          exact ⟨⟨v, finds, kept ▸ read⟩, ⟨w, finds', kept' ▸ read'⟩⟩
        · obtain ⟨⟨v, finds, read⟩, w, finds', read'⟩ := reads other listed
          exact ⟨⟨v, finds.of_still still, read⟩, ⟨w, finds'.of_still still', read'⟩⟩
    · rw [fails] at coerces
      rw [fails'] at coerces'
      obtain ⟨rfl, rfl⟩ := coerces.of_failed
      obtain ⟨rfl, rfl⟩ := coerces'.of_failed
      obtain ⟨rfl, rfl⟩ := further
      obtain ⟨rfl, rfl⟩ := further'
      exact ⟨.error f, still.append still_nil, still'.append still_nil⟩

end

end Solo

end ActionGraph
