import ActionGraph.Proofs.Pulse.Unfolding
import Mathlib.Data.Finset.Card
import Mathlib.Data.Finset.Dedup
import Mathlib.Logic.Relation

/-!
How far a pulse can go. There is no record of the nodes it has run, so it comes back wherever an
execution edge leads back. Without a cycle among the nodes that it can reach, the nodes it is inside of
are all different; hence they are never more than the graph has node ids, and the cascade is finite. With
such a cycle there is no end to it.
-/

namespace ActionGraph

/-- The number of different node ids. -/
def Graph.idCount (g : Graph) : Nat := (g.nodes.map (·.id)).toFinset.card

namespace Environment

variable (env : Environment)

/-- The ids that follow on one that a pulse comes to. Only a node that it runs leads on. -/
def beyond (id : String) : List String :=
  match env.exit? id with
  | some port => env.targets ⟨id, port⟩
  | none => []

/-- A pulse with the first ids to visit comes to the second ones, one after the other, and has the
third ones left. -/
inductive Comes : List String → List String → List String → Prop
  | start (stack : List String) : Comes stack [] stack
  | next {id : String} {stack came left : List String} : Comes (env.beyond id ++ stack) came left →
      Comes (id :: stack) (id :: came) left

/-- A node that pulses run is led to from another by an execution edge. -/
def Continues (a b : String) : Prop := b ∈ env.beyond a ∧ (env.exit? b).isSome

/-- From this id a pulse gets into a cycle. -/
def Endless (id : String) : Prop :=
  (env.exit? id).isSome ∧ ∃ node, Relation.ReflTransGen env.Continues id node ∧ Relation.TransGen env.Continues node node

/-- A cycle of nodes that pulses run can be reached from an output. -/
def Circular (origin : Endpoint) : Prop := ∃ id ∈ env.targets origin, env.Endless id

/-- Coming to an id, as the calls that are open see it: a call with nothing left is over, the innermost
other one has come to one of its ids, and a node that is run begins a call of its own. -/
def enter (levels : List Nat) (id : String) : List Nat :=
  match levels.dropWhile (· = 0) with
  | [] => []
  | left :: outer => if (env.exit? id).isSome then (env.beyond id).length :: (left - 1) :: outer else (left - 1) :: outer

/-- The open calls of a pulse that left by an output and came to these ids: how many ids each of them
has left, the innermost first. The last one is that of the output. -/
def levels (origin : Endpoint) (came : List String) : List Nat :=
  came.foldl env.enter [(env.targets origin).length]

/-- The ids that follow on the innermost of some nodes, or on the output where a pulse began. -/
def ahead (origin : Endpoint) : List String → List String
  | [] => env.targets origin
  | id :: _ => env.beyond id

/-- These nodes are inside of each other, the innermost first. -/
inductive Descent (origin : Endpoint) : List String → Prop
  | surface : Descent origin []
  | dive {id : String} {outer : List String} : Descent origin outer → id ∈ env.ahead origin outer →
      (env.exit? id).isSome → Descent origin (id :: outer)

/-- The nodes that a pulse is inside of, and for each of them, and for its beginning, what is left to
visit there. -/
inductive Inside (origin : Endpoint) : List String → List (List String) → Prop
  | surface {ids : List String} : ids ⊆ env.targets origin → Inside origin [] [ids]
  | dive {id : String} {names ids : List String} {outer : List (List String)} : Inside origin names outer →
      id ∈ env.ahead origin names → (env.exit? id).isSome → ids ⊆ env.beyond id →
      Inside origin (id :: names) (ids :: outer)

variable {env} {origin : Endpoint} {id : String} {stack came left names ids : List String}

theorem beyond_of_none (none : env.exit? id = none) : env.beyond id = [] := by simp [beyond, none]

theorem beyond_of_some {port : String} (some : env.exit? id = some port) : env.beyond id = env.targets ⟨id, port⟩ := by
  simp [beyond, some]

theorem Comes.arrive {id : String} (comes : env.Comes stack came (id :: left)) :
    env.Comes stack (came ++ [id]) (env.beyond id ++ left) := by
  generalize whole : id :: left = rest at comes
  induction comes with
  | start stack =>
    subst whole
    exact .next (.start _)
  | next _ ih => exact .next (ih whole)

theorem Comes.trans {more further : List String} (first : env.Comes stack came left)
    (second : env.Comes left more further) : env.Comes stack (came ++ more) further := by
  induction first with
  | start stack => exact second
  | next _ ih => exact .next (ih second)

theorem Unfolding.of_append {ids more rest : List String} (h : env.Unfolding (ids ++ more) rest) :
    ∃ first second, rest = first ++ second ∧ env.Unfolding ids first ∧ env.Unfolding more second := by
  induction ids generalizing rest with
  | nil => exact ⟨[], rest, rfl, .nil, h⟩
  | cons id ids ih =>
    cases h with
    | skip none h =>
      obtain ⟨first, second, rfl, unfolding, beyond⟩ := ih h
      exact ⟨first, second, rfl, .skip none unfolding, beyond⟩
    | emit some below h =>
      obtain ⟨first, second, rfl, unfolding, beyond⟩ := ih h
      refine ⟨_, second, ?_, .emit some below unfolding, beyond⟩
      simp

/-- What a pulse runs on its way to the end is the unfolding of what it had to visit. -/
theorem Comes.unfolding (comes : env.Comes stack came []) :
    env.Unfolding stack (came.filter fun id => (env.exit? id).isSome) := by
  generalize none : [] = left at comes
  induction comes with
  | start stack =>
    subst none
    exact .nil
  | @next id stack came left _ ih =>
    have rest := ih none
    cases exit : env.exit? id with
    | none =>
      rw [beyond_of_none exit, List.nil_append] at rest
      simpa [exit] using Unfolding.skip exit rest
    | some port =>
      rw [beyond_of_some exit] at rest
      obtain ⟨first, second, split, inner, outer⟩ := rest.of_append
      simpa [exit, split] using Unfolding.emit exit inner outer

section Cycles

theorem Endless.beyond (endless : env.Endless id) : ∃ next ∈ env.beyond id, env.Endless next := by
  obtain ⟨runs, node, reaches, cycle⟩ := endless
  have onward : Relation.TransGen env.Continues id node := by
    cases Relation.reflTransGen_iff_eq_or_transGen.mp reaches with
    | inl same => exact same ▸ cycle
    | inr onward => exact onward
  obtain ⟨next, follows, rest⟩ := Relation.TransGen.head'_iff.mp onward
  exact ⟨next, follows.1, follows.2, node, rest, cycle⟩

theorem Comes.endless (comes : env.Comes stack came left) (there : ∃ id ∈ stack, env.Endless id) :
    ∃ id ∈ left, env.Endless id := by
  induction comes with
  | start stack => exact there
  | @next id stack came left _ ih =>
    apply ih
    obtain ⟨other, listed, endless⟩ := there
    rcases List.mem_cons.mp listed with same | later
    · obtain ⟨next, follows, still⟩ := (same ▸ endless).beyond
      exact ⟨next, List.mem_append_left _ follows, still⟩
    · exact ⟨other, List.mem_append_right _ later, endless⟩

theorem Descent.continues (descent : env.Descent origin (id :: names)) :
    ∀ outer ∈ names, Relation.TransGen env.Continues outer id := by
  induction names generalizing id with
  | nil => simp
  | cons name names ih =>
    intro outer listed
    cases descent with
    | dive inner ahead runs =>
      have last : env.Continues name id := ⟨ahead, runs⟩
      rcases List.mem_cons.mp listed with rfl | further
      · exact .single last
      · exact (ih inner outer further).tail last

theorem Descent.reached (descent : env.Descent origin (id :: names)) :
    ∃ first ∈ env.targets origin, (env.exit? first).isSome ∧ Relation.ReflTransGen env.Continues first id := by
  induction names generalizing id with
  | nil =>
    cases descent with
    | dive _ ahead runs => exact ⟨id, ahead, runs, .refl⟩
  | cons name names ih =>
    cases descent with
    | dive inner ahead runs =>
      obtain ⟨first, listed, starts, reaches⟩ := ih inner
      exact ⟨first, listed, starts, reaches.tail ⟨ahead, runs⟩⟩

theorem Descent.nodup (descent : env.Descent origin names) (finite : ¬ env.Circular origin) : names.Nodup := by
  induction descent with
  | surface => exact .nil
  | @dive id outer inner ahead runs ih =>
    refine List.nodup_cons.mpr ⟨?_, ih⟩
    intro again
    have whole : env.Descent origin (id :: outer) := .dive inner ahead runs
    obtain ⟨first, listed, starts, reaches⟩ := whole.reached
    exact finite ⟨first, listed, starts, id, reaches, whole.continues id again⟩

theorem listed_of_exit? (runs : (env.exit? id).isSome) : id ∈ env.graph.nodes.map (·.id) := by
  obtain ⟨port, exit⟩ := Option.isSome_iff_exists.mp runs
  obtain ⟨node, b, arrived, _⟩ := runnable_of_exit? exit
  have found := (found_of_arrive arrived).1
  exact List.mem_map.mpr ⟨node, List.mem_of_find?_eq_some found, Graph.id_of_node? found⟩

/-- Without a cycle, nodes that are inside of each other are different, so there are not too many. -/
theorem Descent.bound (descent : env.Descent origin names) (finite : ¬ env.Circular origin) :
    names.length ≤ env.graph.idCount := by
  have listed : ∀ name ∈ names, name ∈ env.graph.nodes.map (·.id) := by
    intro name inside
    clear finite
    induction descent with
    | surface => cases inside
    | dive _ _ runs ih =>
      rcases List.mem_cons.mp inside with rfl | outer
      · exact listed_of_exit? runs
      · exact ih outer
  rw [← List.toFinset_card_of_nodup (descent.nodup finite)]
  apply Finset.card_le_card
  intro name inside
  exact List.mem_toFinset.mpr (listed name (List.mem_toFinset.mp inside))

/-- What follows on nodes that are inside of each other comes to an end. -/
theorem Descent.finite (finite : ¬ env.Circular origin) {room : Nat} (descent : env.Descent origin names)
    (fits : env.graph.idCount ≤ names.length + room) (follow : ids ⊆ env.ahead origin names) (stack : List String) :
    ∃ came, env.Comes (ids ++ stack) came stack := by
  -- The induction is on how many more nodes there can be inside, and within that on the ids.
  induction room using Nat.strong_induction_on generalizing names ids stack with
  | _ room inner =>
    induction ids with
    | nil => exact ⟨[], .start stack⟩
    | cons id ids ih =>
      obtain ⟨came, comes⟩ := ih fun other listed => follow (List.mem_cons_of_mem id listed)
      cases exit : env.exit? id with
      | none =>
        exact ⟨id :: came, .next (by rwa [beyond_of_none exit])⟩
      | some port =>
        have deeper : env.Descent origin (id :: names) := .dive descent (follow List.mem_cons_self) (by simp [exit])
        have bound := deeper.bound finite
        simp only [List.length_cons] at bound
        have all : env.beyond id ⊆ env.ahead origin (id :: names) := fun _ listed => listed
        obtain ⟨below, deep⟩ := inner (room - 1) (by omega) deeper (by simp only [List.length_cons]; omega) all (ids ++ stack)
        exact ⟨id :: (below ++ came), .next (deep.trans comes)⟩

theorem exists_comes (finite : ¬ env.Circular origin) : ∃ came, env.Comes (env.targets origin) came [] := by
  have all : env.targets origin ⊆ env.ahead origin [] := fun _ listed => listed
  obtain ⟨came, comes⟩ := Descent.surface.finite finite (Nat.le_add_left _ _) all []
  exact ⟨came, by rwa [List.append_nil] at comes⟩

end Cycles

section Nesting

theorem Inside.descent {frames : List (List String)} (inside : env.Inside origin names frames) :
    env.Descent origin names := by
  induction inside with
  | surface _ => exact .surface
  | dive _ ahead runs _ ih => exact .dive ih ahead runs

theorem Inside.length {frames : List (List String)} (inside : env.Inside origin names frames) :
    frames.length = names.length + 1 := by
  induction inside with
  | surface _ => rfl
  | dive _ _ _ _ ih => simp [ih]

/-- Calls that are over are left, and what is left to visit is what the others have left. -/
theorem Inside.leave {frames : List (List String)} (inside : env.Inside origin names frames)
    (left_ : frames.flatten = id :: left) : ∃ outerNames rest outer, env.Inside origin outerNames ((id :: rest) :: outer) ∧
      rest ++ outer.flatten = left ∧
      (frames.map List.length).dropWhile (· = 0) = (rest.length + 1) :: outer.map List.length := by
  induction inside with
  | @surface ids follow =>
    obtain rfl : ids = id :: left := by simpa using left_
    exact ⟨[], left, [], .surface follow, by simp, by simp⟩
  | @dive name names ids outer inner ahead runs follow ih =>
    cases ids with
    | nil =>
      obtain ⟨outerNames, rest, further, still, split, dropped⟩ := ih (by simpa using left_)
      exact ⟨outerNames, rest, further, still, split, by simpa using dropped⟩
    | cons first rest =>
      simp only [List.flatten_cons, List.cons_append, List.cons.injEq] at left_
      obtain ⟨rfl, split⟩ := left_
      exact ⟨name :: names, rest, outer, .dive inner ahead runs follow, split, by simp⟩

theorem Inside.onward {rest : List String} {outer : List (List String)}
    (inside : env.Inside origin names ((id :: rest) :: outer)) :
    id ∈ env.ahead origin names ∧ env.Inside origin names (rest :: outer) := by
  cases inside with
  | surface follow => exact ⟨follow List.mem_cons_self, .surface fun _ listed => follow (List.mem_cons_of_mem id listed)⟩
  | dive inner ahead runs follow =>
    exact ⟨follow List.mem_cons_self, .dive inner ahead runs fun _ listed => follow (List.mem_cons_of_mem id listed)⟩

/-- Wherever a pulse comes, its open calls are those of the nodes it is inside of. -/
theorem Comes.inside {frames : List (List String)} (comes : env.Comes stack came left)
    (inside : env.Inside origin names frames) (whole : frames.flatten = stack) :
    ∃ names' frames', env.Inside origin names' frames' ∧ frames'.flatten = left ∧
      came.foldl env.enter (frames.map List.length) = frames'.map List.length := by
  induction comes generalizing names frames with
  | start stack => exact ⟨names, frames, inside, whole, rfl⟩
  | @next id stack came left _ ih =>
    obtain ⟨outerNames, rest, outer, still, split, dropped⟩ := inside.leave whole
    obtain ⟨ahead, gone⟩ := still.onward
    cases exit : env.exit? id with
    | none =>
      have entered : env.enter (frames.map List.length) id = (rest :: outer).map List.length := by
        simp [enter, dropped, exit]
      rw [List.foldl_cons, entered]
      exact ih gone (by simpa [beyond_of_none exit] using split)
    | some port =>
      have entered : env.enter (frames.map List.length) id = (env.beyond id :: rest :: outer).map List.length := by
        simp [enter, dropped, exit]
      rw [List.foldl_cons, entered]
      apply ih (.dive gone ahead (by simp [exit]) fun _ listed => listed)
      simp [split]

end Nesting

end Environment

end ActionGraph
