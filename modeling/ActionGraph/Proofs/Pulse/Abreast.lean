import ActionGraph.Proofs.Pulse.Secluded
import Mathlib.Data.Fintype.EquivFin

/-!
Secluded pulses keep abreast. The whole way of a pulse is a tour of visits; two tours of a secluded
pulse, in whatever company, do the same but for the names of elements. A pulse that is still under way
can always get to the end of its tour, so it has done the first part of the same.
-/

namespace ActionGraph

open ActionGraph.Action

variable {ρ : ElementRef → ElementRef → Prop}

namespace Environment

/-- Visiting these ids in turn, and whatever the visits lead to, a pulse has done this in the end. -/
inductive Tours (env : Environment) : List String → List Deed → Prop
  | nil : Tours env [] []
  | visit {id : String} {ids next : List String} {ds more : List Deed} : (env.visit id).Yields ds next →
      Tours env (next ++ ids) more → Tours env (id :: ids) (.arrived id :: (ds ++ more))

/-- Leaving by an output, and visiting where that leads, a pulse has done this in the end. -/
def Whole (env : Environment) (origin : Endpoint) (ds : List Deed) : Prop :=
  ∃ ids first rest, ds = first ++ rest ∧ (env.leave origin).Yields first ids ∧ env.Tours ids rest

/-- A pulse that has left by an output has done the first of these deeds, is at this part of its way,
and still has to visit these ids. -/
structure Underway (env : Environment) (origin : Endpoint) (earlier : List Deed) (a : Action (List String))
    (pending : List String) : Prop where
  onward : ∃ ids left, a.Ends (env.Onward ids) ∧ env.Unfolding (ids ++ pending) left
  whole : ∀ more next rest, a.Yields more next → env.Tours (next ++ pending) rest →
    env.Whole origin (earlier ++ (more ++ rest))

variable {env : Environment} {ids more left : List String} {ds rest : List Deed}

theorem Tours.append (first : env.Tours ids ds) (second : env.Tours more rest) : env.Tours (ids ++ more) (ds ++ rest) := by
  induction first with
  | nil => exact second
  | visit yields _ ih =>
    rw [List.append_assoc] at ih
    rw [List.cons_append, List.cons_append, List.append_assoc]
    exact .visit yields ih

theorem Tours.split (tours : env.Tours (ids ++ more) ds) :
    ∃ first rest, ds = first ++ rest ∧ env.Tours ids first ∧ env.Tours more rest := by
  generalize whole : ids ++ more = stack at tours
  induction tours generalizing ids with
  | nil =>
    obtain ⟨rfl, rfl⟩ := List.append_eq_nil_iff.mp whole
    exact ⟨[], [], rfl, .nil, .nil⟩
  | @visit id _ next done _ yields tours ih =>
    cases ids with
    | nil =>
      rw [List.nil_append] at whole
      exact ⟨[], _, rfl, .nil, whole ▸ .visit yields tours⟩
    | cons first ids =>
      obtain ⟨rfl, rfl⟩ := List.cons.inj whole
      obtain ⟨earlier, later, rfl, before, after⟩ := ih (List.append_assoc next ids more)
      exact ⟨.arrived first :: (done ++ earlier), later, by simp, .visit yields before, after⟩

variable {origin : Endpoint} {earlier since : List Deed} {a : Action (List String)} {pending : List String}

theorem Underway.leaving {nodes : List String} (finite : env.Unfolding (env.targets origin) nodes) :
    env.Underway origin [] (env.leave origin) [] where
  onward := ⟨_, nodes, env.ends_leave origin, by rwa [List.append_nil]⟩
  whole more next rest yields tours := ⟨next, more, rest, rfl, yields, by rwa [List.append_nil] at tours⟩

/-- What a pulse has left to visit, once it is through with this part of its way. -/
theorem Underway.finite (underway : env.Underway origin earlier a pending) (yields : a.Yields since ids) :
    ∃ left, env.Unfolding (ids ++ pending) left := by
  obtain ⟨next, left, onward, unfolding⟩ := underway.onward
  obtain rfl : ids = next := yields.ends onward
  exact ⟨left, unfolding⟩

theorem Underway.over (underway : env.Underway origin earlier a pending) (yields : a.Yields since ids)
    (none : ids ++ pending = []) : env.Whole origin (earlier ++ since) := by
  simpa using underway.whole since ids [] yields (none ▸ .nil)

theorem Underway.visiting {id : String} {others : List String} (underway : env.Underway origin earlier a pending)
    (yields : a.Yields since ids) (next : ids ++ pending = id :: others) :
    env.Underway origin (earlier ++ since ++ [.arrived id]) (env.visit id) others where
  onward := by
    obtain ⟨left, unfolding⟩ := underway.finite yields
    rw [next] at unfolding
    cases unfolding with
    | skip exit unfolding => exact ⟨[], left, ends_visit_skip exit, unfolding⟩
    | emit exit below beyond => exact ⟨_, _, ends_visit_emit exit, below.append beyond⟩
  whole more ids' rest visited tours := by
    have stack : env.Tours (ids ++ pending) (.arrived id :: (more ++ rest)) := next ▸ .visit visited tours
    simpa using underway.whole since ids _ yields stack

theorem not_unclear (builtin : env.IsBuiltin) (f : Fault) : ¬ env.Unclear f := by
  rintro ⟨type, b, known, unclear⟩
  obtain ⟨evaluate, eq⟩ := builtin
  rw [eq] at known
  cases Builtin.listed_of_find? known <;> cases unclear

end Environment

namespace Environment

variable {flight : Value → Except Fault Unit} {b : Behavior}

theorem twins_publishAll (node : Node) {outputs outputs' : Ports} (same : Builtin.Outputs ρ outputs outputs') :
    Twins ρ flight Eq (publishAll node outputs) (publishAll node outputs') := by
  induction same with
  | nil => exact .done rfl
  | @cons a b _ _ one _ ih =>
    obtain ⟨q, v⟩ := a
    obtain ⟨q', w⟩ := b
    obtain ⟨rfl, linked⟩ := one
    exact .publish linked ih

variable {env : Environment}

theorem twins_leave (origin : Endpoint) : Twins ρ flight Eq (env.leave origin) (env.leave origin) := by
  unfold leave
  dsimp only
  split
  · exact .diagnose (.done rfl)
  · exact .done rfl

theorem twins_goOn {o o' : Except Fault Unit} (same : Outcomes Eq o o') :
    Twins ρ flight Eq (env.goOn node b o) (env.goOn node b o') := by
  cases same with
  | ok _ => exact twins_leave _
  | error f => exact .diagnose (.log (.record (.cons ⟨rfl, .text _⟩ (.cons ⟨rfl, .text _⟩ .nil))) (twins_leave _))

theorem twins_visit_skip {id : String} (none : env.exit? id = none) :
    Twins ρ flight Eq (env.visit id) (env.visit id) := by
  unfold visit
  split
  · exact .diagnose (.done rfl)
  · exact .diagnose (.log (.record (.cons ⟨rfl, .text _⟩ .nil)) (.done rfl))
  · exact .done rfl
  · exact .failed _
  · rename_i arrived
    simp [exit?, arrived] at none

end Environment

namespace Solo

variable {p : Solo} {es fs : List ElementRef} {pre pre' ds ds' : List Deed}

theorem renames_paired (id : String) : Paired es fs (.mount id) (.mount id) := .inl ⟨id, rfl, rfl⟩

theorem Reads.located {node : Node} {x : Value}
    (wired : ∃ edge, p.env.graph.incoming? ⟨node.id, "data_in_event"⟩ = some edge ∧ edge.source = p.eventPort)
    (reads : p.Reads pre node (.wired "data_in_event") x) : x = .event p.event := by
  obtain ⟨edge, fed, source⟩ := wired
  obtain ⟨w, finds, value⟩ := reads
  rw [Input.value_wired] at value
  cases finds with
  | unfed none => cases none.symm.trans fed
  | fed fed' sees =>
    cases fed.symm.trans fed'
    cases sees with
    | constant determines => exact absurd (congrArg Endpoint.port source) determines.not_event
    | event _ => exact (Except.ok.inj value).symm
    | own _ other => exact absurd source other

theorem level_perform (builtin : p.env.IsBuiltin) (secluded : p.env.Secluded p.trigger p.nodes) {id : String}
    (own : id ∈ p.nodes) {node : Node} {b : Behavior} (arrived : p.env.arrive id = .runnable node b)
    (level : p.Level (Paired es fs) pre pre') (lives : p.Lives es pre ds) (lives' : p.Lives fs pre' ds')
    {o o' : Except Fault Unit} (comes : (p.env.perform node b).Comes ds o) (comes' : (p.env.perform node b).Comes ds' o') :
    Outcomes Eq o o' ∧ p.Level (Paired es fs) (pre ++ ds) (pre' ++ ds') := by
  obtain ⟨found, known, _⟩ := Environment.found_of_arrive arrived
  obtain rfl := Environment.id_of_arrive arrived
  obtain ⟨read, reading, rest, rfl, reads, follows⟩ := Comes.of_andThen comes
  obtain ⟨read', reading', rest', rfl, reads', follows'⟩ := Comes.of_andThen comes'
  obtain ⟨evaluate, eq⟩ := builtin
  obtain ⟨simple, once⟩ := Builtin.simple_inputs (eq ▸ known)
  have feeds : ∀ spec ∈ b.inputs, ∀ edge, p.env.graph.incoming? ⟨node.id, spec.port⟩ = some edge →
      p.env.Feeds p.nodes edge.source := fun spec listed edge fed => .intro own arrived listed fed
  obtain ⟨outcomes, still, still'⟩ := level_readInputs ⟨evaluate, eq⟩ renames_paired simple once feeds level
    lives.split.1.honest lives'.split.1.honest reads reads'
  have beside := level.append (still.level still')
  cases outcomes with
  | error f =>
    obtain ⟨rfl, rfl⟩ := follows
    obtain ⟨rfl, rfl⟩ := follows'
    exact ⟨.error f, by simpa using beside⟩
  | @ok inputs inputs' values =>
    have agree : Builtin.Agree (Paired es fs) b.inputs inputs inputs' := fun spec listed =>
      (values spec listed).1.alike renames_paired level (simple spec listed) (values spec listed).2
    have located : node.type = "ui.spawnEmoji" →
        inputs.value "data_in_event" = .event p.event ∧ inputs'.value "data_in_event" = .event p.event := by
      intro type
      have wired := secluded.located node.id own node found type
      obtain rfl : b = Builtin.spawnEmoji := by
        rw [eq, type] at known
        exact (Option.some.inj known).symm
      have event := values (.wired "data_in_event") (by simp [Builtin.spawnEmoji])
      exact ⟨event.1.located wired, event.2.located wired⟩
    have effect : Twins (Paired es fs) p.flight (Builtin.Outputs (Paired es fs))
        (b.effect p.env.settings node inputs) (b.effect p.env.settings node inputs') :=
      Builtin.twins_effect (eq ▸ known) (secluded.scriptless node.id own node found) renames_paired agree located
    have twins := effect.andThen fun _ _ same => Environment.twins_publishAll node same
    have both := follow_twins twins beside lives.split.2 lives'.split.2 follows follows'
    simpa only [List.append_assoc] using both

theorem level_visit (builtin : p.env.IsBuiltin) (secluded : p.env.Secluded p.trigger p.nodes) {id : String}
    (own : (p.env.exit? id).isSome → id ∈ p.nodes) (level : p.Level (Paired es fs) pre pre') (lives : p.Lives es pre ds)
    (lives' : p.Lives fs pre' ds') {next next' : List String} (yields : (p.env.visit id).Yields ds next)
    (yields' : (p.env.visit id).Yields ds' next') : p.Level (Paired es fs) (pre ++ ds) (pre' ++ ds') := by
  cases exit : p.env.exit? id with
  | none =>
    have comes : (p.env.visit id).Comes ds (.ok next) := yields
    have comes' : (p.env.visit id).Comes ds' (.ok next') := yields'
    exact (follow_twins (Environment.twins_visit_skip exit) level lives lives' comes comes').2
  | some port =>
    obtain ⟨node, b, arrived, _⟩ := Environment.runnable_of_exit? exit
    have runs : p.env.visit id = p.env.run node b := by
      unfold Environment.visit
      rw [arrived]
    rw [runs, Environment.run_eq] at yields yields'
    obtain ⟨x, rest, tries, rfl⟩ := Yields.of_ask yields trivial
    obtain ⟨x', rest', tries', rfl⟩ := Yields.of_ask yields' trivial
    obtain ⟨tried, trying, leaving, rfl, performs, goes⟩ := Comes.of_trial (o := .ok next) tries
    obtain ⟨tried', trying', leaving', rfl, performs', goes'⟩ := Comes.of_trial (o := .ok next') tries'
    have told : p.Level (Paired es fs) [.asked (.diagnose _) (some x)] [.asked (.diagnose _) (some x')] :=
      ⟨rfl, .nil, .nil⟩
    have lives := lives.tail
    have lives' := lives'.tail
    obtain ⟨outcomes, beside⟩ := level_perform builtin secluded (own (by simp [exit])) arrived (level.append told)
      lives.split.1 lives'.split.1 performs performs'
    have both := follow_twins (Environment.twins_goOn outcomes) beside lives.split.2 lives'.split.2 goes goes'
    simpa only [List.append_assoc, List.cons_append, List.nil_append] using both.2

theorem level_tours (builtin : p.env.IsBuiltin) (secluded : p.env.Secluded p.trigger p.nodes) {ids left : List String}
    (unfolding : p.env.Unfolding ids left) (own : ∀ n ∈ left, n ∈ p.nodes) (level : p.Level (Paired es fs) pre pre')
    (lives : p.Lives es pre ds) (lives' : p.Lives fs pre' ds') (tours : p.env.Tours ids ds)
    (tours' : p.env.Tours ids ds') : p.Level (Paired es fs) (pre ++ ds) (pre' ++ ds') := by
  induction unfolding generalizing pre pre' ds ds' with
  | nil =>
    cases tours
    cases tours'
    simpa using level
  | @skip id ids left exit _ ih =>
    obtain _ | ⟨yields, tours⟩ := tours
    obtain _ | ⟨yields', tours'⟩ := tours'
    obtain rfl := yields.ends (Environment.ends_visit_skip exit)
    obtain rfl := yields'.ends (Environment.ends_visit_skip exit)
    have came : p.Level (Paired es fs) [.arrived id] [.arrived id] := ⟨rfl, .nil, .nil⟩
    have lives := lives.tail
    have lives' := lives'.tail
    have visited := level_visit builtin secluded (by simp [exit]) (level.append came) lives.split.1 lives'.split.1
      yields yields'
    have both := ih own visited lives.split.2 lives'.split.2 tours tours'
    simpa only [List.append_assoc, List.cons_append, List.nil_append] using both
  | @emit id port ids below beyond exit _ _ ihBelow ihBeyond =>
    obtain _ | ⟨yields, tours⟩ := tours
    obtain _ | ⟨yields', tours'⟩ := tours'
    obtain rfl := yields.ends (Environment.ends_visit_emit exit)
    obtain rfl := yields'.ends (Environment.ends_visit_emit exit)
    have came : p.Level (Paired es fs) [.arrived id] [.arrived id] := ⟨rfl, .nil, .nil⟩
    have lives := lives.tail
    have lives' := lives'.tail
    have visited := level_visit builtin secluded (fun _ => own id List.mem_cons_self) (level.append came) lives.split.1
      lives'.split.1 yields yields'
    -- What follows from the node is toured before the ids that were waiting.
    obtain ⟨first, rest, rfl, tours, last⟩ := tours.split
    obtain ⟨first', rest', rfl, tours', last'⟩ := tours'.split
    have lives := lives.split.2
    have lives' := lives'.split.2
    have follows := ihBelow (fun n listed => own n (by simp [listed])) visited lives.split.1 lives'.split.1 tours tours'
    have both := ihBeyond (fun n listed => own n (by simp [listed])) follows lives.split.2 lives'.split.2 last last'
    simpa only [List.append_assoc, List.cons_append, List.nil_append] using both

theorem fresh_of_honest {d : Deed} {e : ElementRef} (honest : p.Honest pre d) (born : d.created? = some e) :
    e ∉ Deed.births pre ∧ ∀ id, e ≠ .mount id := by
  unfold Deed.created? at born
  split at born
  · cases born
    obtain ⟨_, same, fresh, other⟩ := honest
    cases same
    exact ⟨fresh, other⟩
  · cases born

theorem births_of_honestly (honest : p.Honestly pre ds) (once : (Deed.births pre).Nodup)
    (made : ∀ id, .mount id ∉ Deed.births pre) :
    (Deed.births (pre ++ ds)).Nodup ∧ ∀ id, .mount id ∉ Deed.births (pre ++ ds) := by
  induction ds generalizing pre with
  | nil => simpa using ⟨once, made⟩
  | cons d ds ih =>
    have split : pre ++ d :: ds = (pre ++ [d]) ++ ds := by simp
    rw [split]
    cases born : d.created? with
    | none =>
      have none : Deed.births (pre ++ [d]) = Deed.births pre := by simp [Deed.births, born]
      exact ih honest.2 (none ▸ once) (none ▸ made)
    | some e =>
      have one : Deed.births (pre ++ [d]) = Deed.births pre ++ [e] := by simp [Deed.births, born]
      obtain ⟨fresh, other⟩ := fresh_of_honest honest.1 born
      refine ih honest.2 ?_ fun id listed => ?_
      · rw [one]
        exact List.nodup_append.mpr ⟨once, List.nodup_singleton e, fun x listed y last => by
          rintro rfl
          exact fresh (List.mem_singleton.mp last ▸ listed)⟩
      · rw [one] at listed
        rcases List.mem_append.mp listed with listed | last
        · exact made id listed
        · exact other id (List.mem_singleton.mp last).symm

/-- Two whole ways of a secluded pulse, in whatever company, are the same but for the names of elements. -/
theorem level_whole (builtin : p.env.IsBuiltin) (secluded : p.env.Secluded p.trigger p.nodes)
    (honest : p.Honestly [] ds) (honest' : p.Honestly [] ds') (whole : p.env.Whole ⟨p.trigger, "exec_out"⟩ ds)
    (whole' : p.env.Whole ⟨p.trigger, "exec_out"⟩ ds') :
    p.Level (Paired (Deed.births ds) (Deed.births ds')) ds ds' := by
  obtain ⟨ids, first, rest, rfl, leaves, tours⟩ := whole
  obtain ⟨ids', first', rest', rfl, leaves', tours'⟩ := whole'
  obtain rfl : ids = _ := leaves.ends (p.env.ends_leave _)
  obtain rfl : ids' = _ := leaves'.ends (p.env.ends_leave _)
  have lives : p.Lives (Deed.births (first ++ rest)) [] (first ++ rest) := ⟨honest, List.prefix_rfl⟩
  have lives' : p.Lives (Deed.births (first' ++ rest')) [] (first' ++ rest') := ⟨honest', List.prefix_rfl⟩
  have comes : (p.env.leave ⟨p.trigger, "exec_out"⟩).Comes first (.ok _) := leaves
  have comes' : (p.env.leave ⟨p.trigger, "exec_out"⟩).Comes first' (.ok _) := leaves'
  obtain ⟨_, left⟩ := follow_twins (Environment.twins_leave _) level_nil lives.split.1 lives'.split.1 comes comes'
  exact level_tours builtin secluded secluded.cascade (fun _ listed => listed) left lives.split.2 lives'.split.2 tours tours'

theorem exists_honest (p : Solo) (pre : List Deed) (r : Request) : ∃ x, p.Honest pre (.asked r (some x)) := by
  cases r with
  | cached port =>
    have seen : ∃ v, p.Sees pre port v := by
      by_cases constant : ∃ v, p.env.Determines port.node port.port v
      · obtain ⟨v, determines⟩ := constant
        exact ⟨v, .constant determines⟩
      · by_cases event : port = p.eventPort
        · exact ⟨_, .event event⟩
        · exact ⟨_, .own (fun v determines => constant ⟨v, determines⟩) event⟩
    obtain ⟨v, sees⟩ := seen
    exact ⟨v, fun w same _ => .inl (Option.some.inj same ▸ sees)⟩
  | create kind params =>
    obtain ⟨n, fresh⟩ := Infinite.exists_notMem_finset ((Deed.births pre).map ElementRef.number).toFinset
    refine ⟨.ok (.element (.created n kind)), _, rfl, fun listed => fresh ?_, nofun⟩
    exact List.mem_toFinset.mpr (List.mem_map_of_mem listed)
  | mount id => exact ⟨_, rfl⟩
  | animate handle keyframes duration => exact ⟨_, rfl⟩
  | destroy handle => exact ⟨_, rfl⟩
  | log message data => exact ⟨(), trivial⟩
  | diagnose line => exact ⟨(), trivial⟩
  | publish port v => exact ⟨(), trivial⟩
  | lastEvent => exact ⟨(none : Option Snapshot), trivial⟩
  | clock => exact ⟨(.ok .null : Except Fault Value), trivial⟩
  | pause => exact ⟨(), trivial⟩

theorem exists_comes (p : Solo) {α : Type} (a : Action α) (pre : List Deed) :
    ∃ ds o, a.Comes ds o ∧ p.Honestly pre ds := by
  induction a generalizing pre with
  | done x => exact ⟨[], .ok x, .start _, trivial⟩
  | failed e => exact ⟨[], .error e, .start _, trivial⟩
  | ask r next ih =>
    obtain ⟨x, honest⟩ := p.exists_honest pre r
    obtain ⟨ds, o, comes, onward⟩ := ih x (pre ++ [.asked r (some x)])
    refine ⟨_ :: ds, o, ?_, honest, onward⟩
    cases o with
    | ok y => exact .answered x comes
    | error e => exact .answered x comes

theorem exists_onward (builtin : p.env.IsBuiltin) {a : Action (List String)} {ids : List String}
    (onward : a.Ends (p.env.Onward ids)) (pre : List Deed) : ∃ ds, a.Yields ds ids ∧ p.Honestly pre ds := by
  obtain ⟨ds, o, comes, honest⟩ := p.exists_comes a pre
  cases o with
  | ok next =>
    obtain rfl : next = ids := Reaches.throughout comes onward
    exact ⟨ds, comes, honest⟩
  | error f => exact absurd (Reaches.throughout comes onward) (Environment.not_unclear builtin f)

theorem exists_tours (builtin : p.env.IsBuiltin) {ids left : List String} (unfolding : p.env.Unfolding ids left)
    (pre : List Deed) : ∃ ds, p.env.Tours ids ds ∧ p.Honestly pre ds := by
  induction unfolding generalizing pre with
  | nil => exact ⟨[], .nil, trivial⟩
  | @skip id ids left exit _ ih =>
    obtain ⟨first, yields, honest⟩ := exists_onward builtin (Environment.ends_visit_skip exit) (pre ++ [.arrived id])
    obtain ⟨rest, tours, onward⟩ := ih (pre ++ [.arrived id] ++ first)
    exact ⟨_, .visit yields tours, trivial, honestly_append.mpr ⟨honest, onward⟩⟩
  | @emit id port ids below beyond exit _ _ ihBelow ihBeyond =>
    obtain ⟨first, yields, honest⟩ := exists_onward builtin (Environment.ends_visit_emit exit) (pre ++ [.arrived id])
    obtain ⟨next, tours, onward⟩ := ihBelow (pre ++ [.arrived id] ++ first)
    obtain ⟨rest, tours', onward'⟩ := ihBeyond (pre ++ [.arrived id] ++ first ++ next)
    exact ⟨_, .visit yields (tours.append tours'), trivial,
      honestly_append.mpr ⟨honest, honestly_append.mpr ⟨onward, onward'⟩⟩⟩

/-- A pulse that is under way can get to its end. -/
theorem exists_whole (builtin : p.env.IsBuiltin) {origin : Endpoint} {earlier since : List Deed}
    {a b : Action (List String)} {pending : List String} (underway : p.env.Underway origin earlier a pending)
    (reached : a.Reaches since b) (honest : p.Honestly [] (earlier ++ since)) :
    ∃ more, p.env.Whole origin (earlier ++ since ++ more) ∧ p.Honestly [] (earlier ++ since ++ more) := by
  obtain ⟨ids, left, onward, unfolding⟩ := underway.onward
  obtain ⟨visit, yields, honestly⟩ := exists_onward builtin (reached.throughout onward) (earlier ++ since)
  obtain ⟨rest, tours, last⟩ := exists_tours builtin unfolding (earlier ++ since ++ visit)
  have whole := underway.whole (since ++ visit) ids rest (reached.append yields) tours
  refine ⟨visit ++ rest, by simpa using whole, ?_⟩
  exact honestly_append.mpr ⟨honest, honestly_append.mpr ⟨honestly, last⟩⟩

end Solo

end ActionGraph
