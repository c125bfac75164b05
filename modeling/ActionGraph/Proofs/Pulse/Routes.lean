import ActionGraph.Proofs.Pulse.Unfolding
import Mathlib.Data.Set.Card

/-!
The ways along execution edges. A pulse runs a node once for every way that leads there from where it
began, over nodes that it runs. Two edges are different ways even if they join the same ports, so a way
is told by the places of its edges among those of the graph.
-/

namespace ActionGraph

namespace Environment

variable (env : Environment)

/-- The edge at this place of the graph is an execution edge that leaves an output. -/
def LeavesAt (origin : Endpoint) (place : Nat) (edge : Edge) : Prop :=
  env.graph.edges[place]? = some edge ∧ edge.kind = .exec ∧ edge.source = origin

/-- A way from an output to a node, by the places of its edges. Each edge leaves the output that the
node before it is left by, and every node on the way is one that pulses run, the last one included. -/
inductive Route : Endpoint → List Nat → String → Prop
  | last {origin : Endpoint} {place : Nat} {edge : Edge} : env.LeavesAt origin place edge →
      (env.exit? edge.target.node).isSome → Route origin [place] edge.target.node
  | onward {origin : Endpoint} {place : Nat} {edge : Edge} {port id : String} {places : List Nat} :
      env.LeavesAt origin place edge → env.exit? edge.target.node = some port →
      Route ⟨edge.target.node, port⟩ places id → Route origin (place :: places) id

/-- The execution edges that leave an output, with their places. -/
def outgoing (origin : Endpoint) : List (Edge × Nat) :=
  env.graph.edges.zipIdx.filter fun e => e.1.kind == .exec && e.1.source == origin

variable {env} {origin : Endpoint} {place : Nat} {edge : Edge} {id : String} {places : List Nat}

theorem mem_outgoing : (edge, place) ∈ env.outgoing origin ↔ env.LeavesAt origin place edge := by
  simp [outgoing, LeavesAt, List.mem_zipIdx_iff_getElem?]

theorem targets_eq_outgoing (env : Environment) (origin : Endpoint) :
    env.targets origin = (env.outgoing origin).map (·.1.target.node) := by
  have edges : env.graph.execEdges origin = (env.outgoing origin).map (·.1) := by
    unfold Graph.execEdges outgoing
    conv_lhs => rw [← List.zipIdx_map_fst 0 env.graph.edges, List.filter_map]
    rfl
  rw [targets, edges, List.map_map]
  rfl

theorem nodup_outgoing (env : Environment) (origin : Endpoint) : ((env.outgoing origin).map (·.2)).Nodup := by
  have all : (env.graph.edges.zipIdx.map (·.2)).Nodup := by simp [List.nodup_range']
  exact all.sublist (List.filter_sublist.map _)

theorem Route.begins (route : env.Route origin places id) :
    ∃ place rest edge, places = place :: rest ∧ env.LeavesAt origin place edge ∧ (env.exit? edge.target.node).isSome := by
  cases route with
  | last leaves runs => exact ⟨_, _, _, rfl, leaves, runs⟩
  | onward leaves exit _ => exact ⟨_, _, _, rfl, leaves, by simp [exit]⟩

theorem route_cons (leaves : env.LeavesAt origin place edge) {port : String}
    (exit : env.exit? edge.target.node = some port) {rest : List Nat} : env.Route origin (place :: rest) id ↔
      rest = [] ∧ id = edge.target.node ∨ env.Route ⟨edge.target.node, port⟩ rest id := by
  constructor
  · intro route
    cases route with
    | last other _ =>
      have same := Option.some.inj (leaves.1.symm.trans other.1)
      exact .inl ⟨rfl, by rw [same]⟩
    | onward other exit' below =>
      have same := Option.some.inj (leaves.1.symm.trans other.1)
      subst same
      have ports := Option.some.inj (exit.symm.trans exit')
      subst ports
      exact .inr below
  · rintro (⟨rfl, rfl⟩ | below)
    · exact .last leaves (by simp [exit])
    · exact .onward leaves exit below

/-- These ways are all those that begin with one of these edges, each once. -/
structure Surveyed (env : Environment) (origin : Endpoint) (starts : List (Edge × Nat))
    (ways : List (List Nat × String)) : Prop where
  once : (ways.map (·.1)).Nodup
  all : ∀ places id, (places, id) ∈ ways ↔
    ∃ e ∈ starts, ∃ more, places = e.2 :: more ∧ env.Route origin places id

variable {starts : List (Edge × Nat)} {ways below : List (List Nat × String)} {e : Edge × Nat}

theorem surveyed_nil : env.Surveyed origin [] [] := ⟨.nil, by simp⟩

theorem Surveyed.begins (surveyed : env.Surveyed origin starts ways) (way : places ∈ ways.map (·.1)) :
    ∃ e ∈ starts, ∃ more, places = e.2 :: more := by
  obtain ⟨w, listed, rfl⟩ := List.mem_map.mp way
  obtain ⟨e, start, more, split, _⟩ := (surveyed.all w.1 w.2).mp listed
  exact ⟨e, start, more, split⟩

/-- An edge to a node that pulses do not run begins no way. -/
theorem Surveyed.skip (surveyed : env.Surveyed origin starts ways) (leaves : env.LeavesAt origin e.2 e.1)
    (stops : env.exit? e.1.target.node = none) : env.Surveyed origin (e :: starts) ways := by
  refine ⟨surveyed.once, fun places id => (surveyed.all places id).trans ⟨?_, ?_⟩⟩
  · rintro ⟨other, start, rest⟩
    exact ⟨other, List.mem_cons_of_mem e start, rest⟩
  · rintro ⟨other, start, more, split, route⟩
    rcases List.mem_cons.mp start with rfl | start
    · obtain ⟨place, rest, edge, same, leaves', runs⟩ := route.begins
      rw [split] at same
      obtain ⟨rfl, -⟩ := List.cons.inj same
      have edges := Option.some.inj (leaves.1.symm.trans leaves'.1)
      simp [← edges, stops] at runs
    · exact ⟨other, start, more, split, route⟩

/-- An edge to a node that pulses run begins the way that ends there, and all that go on from there. -/
theorem Surveyed.emit (surveyed : env.Surveyed origin starts ways) (leaves : env.LeavesAt origin e.2 e.1)
    (fresh : e.2 ∉ starts.map (·.2)) {port : String} (exit : env.exit? e.1.target.node = some port)
    (inner : env.Surveyed ⟨e.1.target.node, port⟩ (env.outgoing ⟨e.1.target.node, port⟩) below) :
    env.Surveyed origin (e :: starts)
      (([e.2], e.1.target.node) :: (below.map (fun w => (e.2 :: w.1, w.2)) ++ ways)) := by
  have others : ∀ more, e.2 :: more ∉ ways.map (·.1) := by
    intro more listed
    obtain ⟨other, start, rest, same⟩ := surveyed.begins listed
    obtain ⟨place, -⟩ := List.cons.inj same
    exact fresh (List.mem_map.mpr ⟨other, start, place.symm⟩)
  have deeper : [] ∉ below.map (·.1) := by
    intro listed
    obtain ⟨_, _, _, same⟩ := inner.begins listed
    cases same
  have names : (below.map fun w => (e.2 :: w.1, w.2)).map (·.1) = (below.map (·.1)).map (e.2 :: ·) := by simp
  constructor
  · simp only [List.map_cons, List.map_append, names, List.nodup_cons, List.nodup_append, List.mem_append, not_or]
    refine ⟨⟨by simpa using deeper, others []⟩, inner.once.map (List.cons_injective), surveyed.once, ?_⟩
    rintro _ deep _ other rfl
    obtain ⟨more, -, rfl⟩ := List.mem_map.mp deep
    exact others more other
  · intro places id
    simp only [List.mem_cons, List.mem_append, List.mem_map, Prod.mk.injEq]
    constructor
    · rintro (⟨rfl, rfl⟩ | ⟨w, listed, rfl, rfl⟩ | listed)
      · exact ⟨e, .inl rfl, [], rfl, .last leaves (by simp [exit])⟩
      · obtain ⟨_, _, _, _, route⟩ := (inner.all w.1 w.2).mp listed
        exact ⟨e, .inl rfl, w.1, rfl, .onward leaves exit route⟩
      · obtain ⟨other, start, rest⟩ := (surveyed.all places id).mp listed
        exact ⟨other, .inr start, rest⟩
    · rintro ⟨other, rfl | start, more, rfl, route⟩
      · rcases (route_cons leaves exit).mp route with ⟨rfl, rfl⟩ | further
        · exact .inl ⟨rfl, rfl⟩
        · obtain ⟨place, rest, edge, split, leaves', _⟩ := further.begins
          have listed := (inner.all more id).mpr ⟨(edge, place), mem_outgoing.mpr leaves', rest, split, further⟩
          exact .inr (.inl ⟨(more, id), listed, rfl, rfl⟩)
      · exact .inr (.inr ((surveyed.all _ id).mpr ⟨other, start, more, rfl, route⟩))

/-- The nodes of an unfolding are where the ways lead. -/
theorem Unfolding.surveyed {ids rest : List String} (unfolding : env.Unfolding ids rest) {origin : Endpoint}
    {starts : List (Edge × Nat)} (leaving : ∀ e ∈ starts, env.LeavesAt origin e.2 e.1)
    (once : (starts.map (·.2)).Nodup) (led : starts.map (·.1.target.node) = ids) :
    ∃ ways, env.Surveyed origin starts ways ∧ ways.map (·.2) = rest := by
  induction unfolding generalizing origin starts with
  | nil =>
    obtain rfl : starts = [] := List.map_eq_nil_iff.mp led
    exact ⟨[], surveyed_nil, rfl⟩
  | skip none _ ih =>
    obtain ⟨e, starts, rfl, rfl, further⟩ := List.map_eq_cons_iff.mp led
    obtain ⟨ways, surveyed, ends⟩ := ih (fun e' start => leaving e' (List.mem_cons_of_mem e start))
      (List.nodup_cons.mp once).2 further
    exact ⟨ways, surveyed.skip (leaving e List.mem_cons_self) none, ends⟩
  | @emit id port ids below beyond some _ _ ihBelow ihBeyond =>
    obtain ⟨e, starts, rfl, rfl, further⟩ := List.map_eq_cons_iff.mp led
    obtain ⟨ways, surveyed, ends⟩ := ihBeyond (fun e' start => leaving e' (List.mem_cons_of_mem e start))
      (List.nodup_cons.mp once).2 further
    obtain ⟨inner, deep, reached⟩ := ihBelow (fun e' => mem_outgoing.mp) (nodup_outgoing env _)
      (targets_eq_outgoing env _).symm
    refine ⟨_, surveyed.emit (leaving e List.mem_cons_self) (List.nodup_cons.mp once).1 some deep, ?_⟩
    simp [← ends, ← reached, Function.comp_def]

/-- A node is run as many times as ways lead to it. -/
theorem Unfolding.count {nodes : List String} (unfolding : env.Unfolding (env.targets origin) nodes) (id : String) :
    {places | env.Route origin places id}.encard = nodes.count id := by
  obtain ⟨ways, surveyed, rfl⟩ := unfolding.surveyed (fun e => mem_outgoing.mp) (nodup_outgoing env origin)
    (targets_eq_outgoing env origin).symm
  have routes : {places | env.Route origin places id} =
      (((ways.filter (·.2 == id)).map (·.1)).toFinset : Set (List Nat)) := by
    ext places
    simp only [Set.mem_ofPred_eq, List.coe_toFinset, List.mem_map, List.mem_filter, beq_iff_eq, Prod.exists,
      exists_and_right, exists_eq_right]
    constructor
    · intro route
      obtain ⟨place, rest, edge, split, leaves, _⟩ := route.begins
      exact (surveyed.all places id).mpr ⟨(edge, place), mem_outgoing.mpr leaves, rest, split, route⟩
    · intro listed
      obtain ⟨_, _, _, _, route⟩ := (surveyed.all places id).mp listed
      exact route
  have once : ((ways.filter (·.2 == id)).map (·.1)).Nodup := surveyed.once.sublist (List.filter_sublist.map _)
  rw [routes, Set.encard_coe_eq_coe_finsetCard, List.toFinset_card_of_nodup once, List.length_map,
    ← List.countP_eq_length_filter, List.count, List.countP_map]
  rfl

end Environment

end ActionGraph
