import ActionGraph.Host.Basic
import ActionGraph.Proofs.Host.Kinship

/-!
Everything that can be done to the elements of a host, one call after the other. No call fails, not
even where taking an element out of a list of children would fail if it were not there; and whatever
was called, parents and children agree.
-/

namespace ActionGraph

/-- A call that gives an element or moves one. -/
inductive Handling where
  | mount (id : String)
  | create (kind : String) (params : List (String × Value))
  | append (parent child : ElementRef)
  | destroy (e : ElementRef)

namespace Handling

/-- The elements that a call is about. What is no element does not count, also where it is given as a
parent. -/
def named : Handling → List ElementRef
  | .mount _ => []
  | .create _ params =>
    match Keyed.get? "parent" params with
    | some (.element p) => [p]
    | _ => []
  | .append parent child => [parent, child]
  | .destroy e => [e]

/-- The element that a call has made, by what it gave. -/
def made? : Handling × Option ElementRef → Option ElementRef
  | (.create .., given) => given
  | _ => none

end Handling

namespace Host

variable {η : Type}

/-- The elements there are: the mounts that were asked for, those that the host has made, and any
that are nobody's. -/
def Has (h : Host η) : ElementRef → Prop
  | .mount id => id ∈ h.mounts
  | .created number kind => .created number kind ∈ h.created
  | .loose .. => True

/-- What a call makes of a host, and what it gives. -/
def handle (h : Host η) : Handling → Except Fault (Host η × Option ElementRef)
  | .mount id => .ok ((h.mount id).1, some (h.mount id).2)
  | .create kind params => .ok ((h.create kind params).1, some (h.create kind params).2)
  | .append parent child => (h.append (.element parent) (.element child)).map fun h => (h, none)
  | .destroy e => (h.destroy (.element e)).map fun h => (h, none)

/-- The same, but an element can only be taken out of a list of children that it is in. -/
def handleListed (h : Host η) : Handling → Except Fault (Host η × Option ElementRef)
  | .mount id => .ok ((h.mount id).1, some (h.mount id).2)
  | .create kind params => do
    let e := h.nextElement kind
    let made := h.tree.set e (.detached (ownParams params))
    let tree ← match Keyed.get? "parent" params with
      | some (.element p) => made.appendListed p e
      | _ => .ok made
    return ({ h with tree := tree, created := h.created ++ [e] }, some e)
  | .append parent child => do
    let tree ← h.tree.appendListed parent child
    return ({ h with tree := tree }, none)
  | .destroy e => do
    let tree ← h.tree.detachListed e
    return ({ h with tree := tree }, none)

/-- One call after the other, with what each of them gave. -/
def handleAll (handle : Host η → Handling → Except Fault (Host η × Option ElementRef)) (h : Host η) :
    List Handling → Except Fault (Host η × List (Handling × Option ElementRef))
  | [] => .ok (h, [])
  | call :: calls => do
    let (h, given) ← handle h call
    let (h, log) ← handleAll handle h calls
    return (h, (call, given) :: log)

/-- Every call is about elements that there are by then. -/
def Able (h : Host η) : List Handling → Prop
  | [] => True
  | call :: calls => (∀ e ∈ call.named, h.Has e) ∧ ∀ h' given, h.handle call = .ok (h', given) → h'.Able calls

/-- What calls keep: parents and children agree, nothing is known of elements that there are not, the
elements that were made are numbered, and there is one mount for each id. -/
structure Orderly (h : Host η) : Prop where
  consistent : h.tree.Consistent
  unknown : ∀ e, ¬ h.Has e → h.tree.parent e = none ∧ h.tree.children e = []
  numbered : ∀ k e, h.created[k]? = some e → ∃ kind, e = ElementRef.created (k + 1) kind
  mounts : h.mounts.Nodup

variable {h h' : Host η}

theorem orderly_empty (timeScale : Value) : (empty timeScale : Host η).Orderly :=
  ⟨Tree.consistent_empty, fun _ _ => ⟨rfl, rfl⟩, nofun, .nil⟩

theorem Has.mono {e : ElementRef} (has : h.Has e) (mounts : h.mounts ⊆ h'.mounts) (created : h.created ⊆ h'.created) :
    h'.Has e := by
  cases e with
  | mount id => exact mounts has
  | created number kind => exact created has
  | loose serial id kind => trivial

theorem Orderly.number_le (orderly : h.Orderly) {e : ElementRef} (has : h.Has e) : e.number ≤ h.created.length := by
  cases e with
  | mount id => exact Nat.zero_le _
  | created number kind =>
    obtain ⟨k, bound, eq⟩ := List.getElem_of_mem has
    obtain ⟨kind', same⟩ := orderly.numbered k _ (List.getElem?_eq_getElem bound)
    cases eq.symm.trans same
    exact bound
  | loose serial id kind => exact Nat.zero_le _

theorem Orderly.new (orderly : h.Orderly) (kind : String) : ¬ h.Has (h.nextElement kind) := by
  intro has
  have bound : h.created.length + 1 ≤ h.created.length := orderly.number_le has
  omega

theorem Orderly.set_new (orderly : h.Orderly) (kind : String) (params : List (String × Value)) :
    (∀ e, (h.tree.set (h.nextElement kind) (.detached params)).parent e = h.tree.parent e) ∧
      ∀ e, (h.tree.set (h.nextElement kind) (.detached params)).children e = h.tree.children e := by
  obtain ⟨free, childless⟩ := orderly.unknown _ (orderly.new kind)
  constructor
  · intro e
    rw [Tree.parent_set_detached]
    split
    · rename_i same
      rw [← same, free]
    · rfl
  · intro e
    rw [Tree.children_set_detached]
    split
    · rename_i same
      rw [← same, childless]
    · rfl

theorem mem_mounts_mount (h : Host η) (id other : String) : other ∈ (h.mount id).1.mounts ↔ other ∈ h.mounts ∨ other = id := by
  unfold mount
  split
  · rename_i there
    exact ⟨.inl, fun asked => asked.elim (fun listed => listed) fun same => same ▸ there⟩
  · simp

theorem Orderly.mount (orderly : h.Orderly) (id : String) : (h.mount id).1.Orderly := by
  unfold Host.mount
  split
  · exact orderly
  · rename_i new
    refine ⟨orderly.consistent, fun e none => ?_, orderly.numbered, ?_⟩
    · exact orderly.unknown e fun has => none (has.mono (List.subset_append_left _ _) (List.Subset.refl _))
    · refine List.nodup_append.mpr ⟨orderly.mounts, by simp, fun a listed b last => ?_⟩
      rw [List.mem_singleton.mp last]
      rintro rfl
      exact new listed

theorem Orderly.withTree (orderly : h.Orderly) {t : Tree} (consistent : t.Consistent)
    (others : ∀ e, ¬ h.Has e → t.parent e = none ∧ t.children e = []) : ({ h with tree := t } : Host η).Orderly :=
  ⟨consistent, fun e none => others e fun has => none (has.mono (List.Subset.refl _) (List.Subset.refl _)),
    orderly.numbered, orderly.mounts⟩

theorem Orderly.append (orderly : h.Orderly) {p c : ElementRef} (parent : h.Has p) (child : h.Has c) :
    ({ h with tree := h.tree.append p c } : Host η).Orderly := by
  refine orderly.withTree (orderly.consistent.append p c) fun e none => ?_
  obtain ⟨free, childless⟩ := orderly.unknown e none
  have other : c ≠ e := by
    rintro rfl
    exact none child
  have apart : p ≠ e := by
    rintro rfl
    exact none parent
  constructor
  · rw [Tree.parent_append, if_neg other, free]
  · rw [Tree.children_append, if_neg apart, Tree.children_release, childless, List.erase_nil, ite_self]

theorem Orderly.destroy (orderly : h.Orderly) (c : ElementRef) :
    ({ h with tree := h.tree.detach c } : Host η).Orderly := by
  refine orderly.withTree (orderly.consistent.detach c) fun e none => ?_
  obtain ⟨free, childless⟩ := orderly.unknown e none
  constructor
  · rw [Tree.parent_detach, free, ite_self]
  · rw [Tree.children_detach, Tree.children_release, childless, List.erase_nil, ite_self]

theorem Orderly.make (orderly : h.Orderly) (kind : String) {t : Tree} (parents : ∀ e, t.parent e = h.tree.parent e)
    (children : ∀ e, t.children e = h.tree.children e) :
    ({ h with tree := t, created := h.created ++ [h.nextElement kind] } : Host η).Orderly := by
  refine ⟨orderly.consistent.of_same parents children, fun e none => ?_, fun k e made => ?_, orderly.mounts⟩
  · rw [parents, children]
    exact orderly.unknown e fun has => none (has.mono (List.Subset.refl _) (List.subset_append_left _ _))
  · rcases Nat.lt_or_ge k h.created.length with old | new
    · exact orderly.numbered k e ((List.getElem?_append_left old).symm.trans made)
    · rw [List.getElem?_append_right new] at made
      have last : k = h.created.length := by
        have bound := (List.getElem?_eq_some_iff.mp made).1
        rw [List.length_singleton] at bound
        omega
      rw [List.mem_singleton.mp (List.mem_of_getElem? made), last]
      exact ⟨kind, rfl⟩

/-- Every parent is older than what it contains. -/
def Aged (h : Host η) : Prop := ∀ e p, h.tree.parent e = some p → p.number < e.number

/-- What comes of a call that gives this. -/
structure Handled (h : Host η) (call : Handling) (h' : Host η) (given : Option ElementRef) : Prop where
  orderly : h'.Orderly
  created : h'.created = h.created ++ (Handling.made? (call, given)).toList
  mounts : ∀ id, id ∈ h'.mounts ↔ id ∈ h.mounts ∨ call = .mount id
  mounted : ∀ id, call = .mount id → given = some (.mount id)
  aged : (∀ parent child, call ≠ .append parent child) → h.Aged → h'.Aged

theorem Orderly.handled_mount (orderly : h.Orderly) (id : String) :
    Handled h (.mount id) (h.mount id).1 (some (h.mount id).2) := by
  refine ⟨orderly.mount id, ?_, fun other => ?_, fun other same => ?_, fun _ aged => ?_⟩
  · simp only [Handling.made?, Option.toList_none, List.append_nil, Host.mount]
    split <;> rfl
  · rw [mem_mounts_mount, Handling.mount.injEq, eq_comm (a := other)]
  · cases same
    rfl
  · unfold Host.mount
    split <;> exact aged

theorem Orderly.handled_create (orderly : h.Orderly) {kind : String} {params : List (String × Value)}
    (able : ∀ e ∈ (Handling.create kind params).named, h.Has e) :
    h.handleListed (.create kind params) = h.handle (.create kind params) ∧
      Handled h (.create kind params) (h.create kind params).1 (some (h.create kind params).2) := by
  obtain ⟨parents, children⟩ := orderly.set_new kind (ownParams params)
  have made := orderly.make kind parents children
  have mounts : ∀ id, id ∈ h.mounts ↔ id ∈ h.mounts ∨ Handling.create kind params = .mount id := by simp
  have alone : Handled h (.create kind params) { h with
      tree := h.tree.set (h.nextElement kind) (.detached (ownParams params))
      created := h.created ++ [h.nextElement kind] } (some (h.nextElement kind)) :=
    ⟨made, rfl, mounts, nofun, fun _ aged e p inside => aged e p ((parents e).symm.trans inside)⟩
  unfold handleListed handle create
  dsimp only
  cases under : Keyed.get? "parent" params with
  | none => exact ⟨rfl, alone⟩
  | some v =>
    cases v with
    | element p =>
      have there : h.Has p := able p (by simp [Handling.named, under])
      have attached := made.append (p := p) (c := h.nextElement kind)
        (there.mono (List.Subset.refl _) (List.subset_append_left _ _))
        (List.mem_append_right h.created (List.mem_singleton.mpr rfl))
      refine ⟨?_, attached, rfl, mounts, nofun, fun _ aged e q inside => ?_⟩
      · have listed := made.consistent.appendListed p (h.nextElement kind)
        dsimp only at listed ⊢
        rw [listed]
        rfl
      · rw [Tree.parent_append] at inside
        split at inside
        · rename_i new
          cases inside
          rw [← new]
          exact Nat.lt_succ_of_le (orderly.number_le there)
        · exact aged e q ((parents e).symm.trans inside)
    | _ => exact ⟨rfl, alone⟩

/-- No call fails that is about elements there are, and taking elements out of where they are listed
makes no difference. -/
theorem Orderly.handled (orderly : h.Orderly) {call : Handling} (able : ∀ e ∈ call.named, h.Has e) :
    ∃ h' given, h.handle call = .ok (h', given) ∧ h.handleListed call = .ok (h', given) ∧ Handled h call h' given := by
  cases call with
  | mount id => exact ⟨_, _, rfl, rfl, orderly.handled_mount id⟩
  | create kind params =>
    obtain ⟨same, made⟩ := orderly.handled_create able
    exact ⟨_, _, rfl, same, made⟩
  | append parent child =>
    refine ⟨_, _, rfl, ?_, orderly.append (able parent (by simp [Handling.named])) (able child (by simp [Handling.named])),
      (List.append_nil _).symm, by simp, nofun, fun none => absurd rfl (none parent child)⟩
    rw [handleListed, orderly.consistent.appendListed]
    rfl
  | destroy e =>
    refine ⟨_, _, rfl, ?_, orderly.destroy e, (List.append_nil _).symm, by simp, nofun, fun _ aged d p inside => ?_⟩
    · rw [handleListed, orderly.consistent.detachListed]
      rfl
    · rw [Tree.parent_detach] at inside
      split at inside
      · cases inside
      · exact aged d p inside

/-- What comes of calls, with what each of them gave. -/
structure HandledAll (h : Host η) (calls : List Handling) (h' : Host η) (log : List (Handling × Option ElementRef)) :
    Prop where
  orderly : h'.Orderly
  told : log.map Prod.fst = calls
  created : h'.created = h.created ++ log.filterMap Handling.made?
  mounts : ∀ id, id ∈ h'.mounts ↔ id ∈ h.mounts ∨ Handling.mount id ∈ calls
  mounted : ∀ id given, (Handling.mount id, given) ∈ log → given = some (.mount id)
  aged : (∀ parent child, Handling.append parent child ∉ calls) → h.Aged → h'.Aged

theorem Orderly.handledAll (orderly : h.Orderly) {calls : List Handling} (able : h.Able calls) :
    ∃ h' log, h.handleAll handle calls = .ok (h', log) ∧ h.handleAll handleListed calls = .ok (h', log) ∧
      HandledAll h calls h' log := by
  induction calls generalizing h with
  | nil => exact ⟨h, [], rfl, rfl, orderly, rfl, (List.append_nil _).symm, by simp, nofun, fun _ aged => aged⟩
  | cons call calls ih =>
    obtain ⟨h', given, done, listed, first⟩ := orderly.handled able.1
    obtain ⟨h'', log, doneAll, listedAll, rest⟩ := ih first.orderly (able.2 h' given done)
    refine ⟨h'', (call, given) :: log, ?_, ?_, rest.orderly, ?_, ?_, fun id => ?_, fun id given' told => ?_, fun none aged => ?_⟩
    · rw [handleAll, done]
      change (handleAll _ h' calls >>= _) = _
      rw [doneAll]
      rfl
    · rw [handleAll, listed]
      change (handleAll _ h' calls >>= _) = _
      rw [listedAll]
      rfl
    · rw [List.map_cons, rest.told]
    · rw [rest.created, first.created, List.append_assoc]
      cases made : Handling.made? (call, given) <;> simp [made]
    · rw [rest.mounts, first.mounts, List.mem_cons, or_assoc, eq_comm (a := call)]
    · rcases List.mem_cons.mp told with same | later
      · cases same
        exact first.mounted id rfl
      · exact rest.mounted id given' later
    · refine rest.aged (fun parent child listed => none parent child (List.mem_cons_of_mem _ listed)) (first.aged ?_ aged)
      rintro parent child rfl
      exact none parent child List.mem_cons_self

theorem Orderly.ids (orderly : h.Orderly) :
    h.created.map ElementRef.id = (List.range h.created.length).map (fun n => "el_" ++ toString (n + 1)) ∧
      (h.created.map ElementRef.id).Nodup := by
  have counted : h.created.map ElementRef.id =
      (List.range h.created.length).map fun n => "el_" ++ toString (n + 1) := by
    apply List.ext_getElem?
    intro k
    cases made : h.created[k]? with
    | none =>
      have beyond := List.getElem?_eq_none_iff.mp made
      simp [beyond]
    | some e =>
      obtain ⟨kind, rfl⟩ := orderly.numbered k e made
      have bound := (List.getElem?_eq_some_iff.mp made).1
      rw [List.getElem?_map, made, List.getElem?_map, List.getElem?_range bound]
      rfl
  refine ⟨counted, counted ▸ List.Nodup.map ?_ List.nodup_range⟩
  intro m n same
  have numerals : (m + 1).repr = (n + 1).repr := (String.append_right_inj _).mp same
  rw [Nat.repr_eq_ofList_toDigits, Nat.repr_eq_ofList_toDigits, String.ofList_inj] at numerals
  have numbers := congrArg (Nat.ofDigitChars 10 · 0) numerals
  simp only [Nat.ofDigitChars_toDigits (b := 10) (by decide) (by decide)] at numbers
  exact Nat.succ.inj numbers

/-- Whatever is called, in whatever order: no call fails, also where an element could only be taken
out of a list of children that it is in. An element has another one for its parent if and only if it
is among its children, and then it is there once. The elements that were made are those that were
given, in their order, under ids that count them and do not repeat; there is one mount for each id that
was asked for. If nothing but making an element puts it anywhere, parent links end. -/
theorem elements_consistent (timeScale : Value) {calls : List Handling} (able : (empty timeScale : Host η).Able calls) :
    ∃ (h : Host η) (log : List (Handling × Option ElementRef)),
      (empty timeScale).handleAll handle calls = .ok (h, log) ∧
      (empty timeScale).handleAll handleListed calls = .ok (h, log) ∧ log.map Prod.fst = calls ∧
      (∀ e p, (h.tree.children p).count e = if h.tree.parent e = some p then 1 else 0) ∧
      h.created = log.filterMap Handling.made? ∧
      h.created.map ElementRef.id = (List.range h.created.length).map (fun n => "el_" ++ toString (n + 1)) ∧
      (h.created.map ElementRef.id).Nodup ∧
      (∀ id given, (Handling.mount id, given) ∈ log → given = some (.mount id)) ∧
      h.mounts.Nodup ∧ (∀ id, id ∈ h.mounts ↔ Handling.mount id ∈ calls) ∧
      ((∀ parent child, Handling.append parent child ∉ calls) → ∀ e, ∃ n, h.tree.ancestor? n e = none) := by
  obtain ⟨h, log, done, listed, all⟩ := (orderly_empty timeScale).handledAll able
  obtain ⟨counted, distinct⟩ := all.orderly.ids
  have asked : ∀ id, id ∈ h.mounts ↔ Handling.mount id ∈ calls := fun id => by simp [all.mounts, empty]
  exact ⟨h, log, done, listed, all.told, all.orderly.consistent.count, all.created, counted, distinct, all.mounted,
    all.orderly.mounts, asked, fun none => Tree.ancestor?_ends (all.aged none nofun)⟩

/-- An element under a mount and one under nothing; the second is put into the first and then into
itself, and the first is taken out twice. -/
def rehousing : List Handling := [
  .mount "m",
  .create "emoji" [("parent", .element (.mount "m"))],
  .create "emoji" [("parent", .text "m")],
  .append (.created 1 "emoji") (.created 2 "emoji"),
  .append (.created 2 "emoji") (.created 2 "emoji"),
  .destroy (.created 1 "emoji"),
  .destroy (.created 1 "emoji")]

theorem able_rehousing : (empty (.int 1) : Host Unit).Able rehousing := by
  simp [rehousing, Able, Handling.named, Has, handle, mount, create, nextElement, append, destroy, empty, Keyed.get?,
    Except.map]

theorem elements_consistent_rehousing : (empty (.int 1) : Host Unit).Able rehousing ∧
    ∃ h log, (empty (.int 1) : Host Unit).handleAll handleListed rehousing = .ok (h, log) ∧
      (∀ e p, (h.tree.children p).count e = if h.tree.parent e = some p then 1 else 0) ∧
      h.created.map ElementRef.id = ["el_1", "el_2"] ∧
      h.tree.parent (.created 2 "emoji") = some (.created 2 "emoji") ∧ h.tree.parent (.created 1 "emoji") = none := by
  obtain ⟨h, log, done, listed, _, count, _⟩ := elements_consistent (.int 1) able_rehousing
  cases done
  exact ⟨able_rehousing, _, _, listed, count, rfl, rfl, rfl⟩

end Host

end ActionGraph
