import ActionGraph.Proofs.Json.Legible
import ActionGraph.Proofs.Json.Number
import ActionGraph.Proofs.Json.Text

/-!
JSON is read back as it was written, with every indent. Only floats that are not finite are lost: they are
written as null, and null they are when they are read.
-/

namespace ActionGraph

/-- A float that is a number. -/
def Binary64.Finite (x : Float) : Prop := ∃ negative m e, Binary64.reading x = .finite negative m e

instance (x : Float) : Decidable (Binary64.Finite x) :=
  match h : Binary64.reading x with
  | .finite negative m e => .isTrue ⟨negative, m, e, h⟩
  | .nan => .isFalse fun ⟨_, _, _, other⟩ => by cases h.symm.trans other
  | .infinite _ => .isFalse fun ⟨_, _, _, other⟩ => by cases h.symm.trans other

namespace Json

/-- A value whose floats are all numbers. -/
inductive Finite : Json → Prop
  | null : Finite .null
  | bool (b : Bool) : Finite (.bool b)
  | int (n : Int) : Finite (.int n)
  | float {x : Float} : Binary64.Finite x → Finite (.float x)
  | str (s : String) : Finite (.str s)
  | arr {items : List Json} : (∀ item ∈ items, item.Finite) → Finite (.arr items)
  | obj {members : List (String × Json)} : (∀ m ∈ members, m.2.Finite) → Finite (.obj members)

def writtenFloat (x : Float) : Json :=
  match Binary64.reading x with
  | .finite .. => .float x
  | _ => .null

mutual

/-- What the text of a value stands for. -/
def written : Json → Json
  | .null => .null
  | .bool b => .bool b
  | .int n => .int n
  | .float x => writtenFloat x
  | .str s => .str s
  | .arr items => .arr (writtenItems items)
  | .obj members => .obj (writtenMembers members)

def writtenItems : List Json → List Json
  | [] => []
  | item :: items => item.written :: writtenItems items

def writtenMembers : List (String × Json) → List (String × Json)
  | [] => []
  | (name, value) :: members => (name, value.written) :: writtenMembers members

end

variable {fuel depth level : Nat} {indent : Option Nat} {cs rest : List Char} {c : Char} {j : Json}
variable {items : List Json} {members : List (String × Json)}

theorem writtenFloat_finite {x : Float} (finite : Binary64.Finite x) : writtenFloat x = .float x := by
  obtain ⟨negative, m, e, reading⟩ := finite
  simp [writtenFloat, reading]

theorem writtenFloat_other {x : Float} (other : ¬ Binary64.Finite x) : writtenFloat x = .null := by
  unfold writtenFloat
  split
  · exact absurd ⟨_, _, _, ‹_›⟩ other
  · rfl

theorem writtenItems_eq_map (items : List Json) : writtenItems items = items.map written := by
  induction items with
  | nil => rfl
  | cons item items ih => rw [writtenItems, ih, List.map_cons]

theorem writtenMembers_eq_map (members : List (String × Json)) :
    writtenMembers members = members.map fun m => (m.1, m.2.written) := by
  induction members with
  | nil => rfl
  | cons m members ih => rw [writtenMembers, ih, List.map_cons]

theorem Finite.written (finite : j.Finite) : j.written = j := by
  induction finite with
  | float x => exact writtenFloat_finite x
  | arr _ ih =>
    rw [Json.written, writtenItems_eq_map, List.map_congr_left ih, List.map_id']
  | obj _ ih =>
    rw [Json.written, writtenMembers_eq_map, List.map_congr_left fun m listed => by rw [ih m listed], List.map_id']
  | _ => rfl

section Blanks

theorem skipBlanks_spaces (n : Nat) (cs : List Char) : skipBlanks (List.replicate n ' ' ++ cs) = skipBlanks cs := by
  induction n with
  | zero => rfl
  | succ n ih => rw [List.replicate_succ, List.cons_append, skipBlanks, ih]

@[simp] theorem skipBlanks_lineBreak (indent : Option Nat) (level : Nat) (cs : List Char) :
    skipBlanks (lineBreak indent level ++ cs) = skipBlanks cs := by
  cases indent with
  | none => rfl
  | some width => exact skipBlanks_spaces _ _

theorem skipBlanks_cons (plain : c ∉ [' ', '\t', '\n', '\r']) (cs : List Char) : skipBlanks (c :: cs) = c :: cs := by
  unfold skipBlanks
  split <;> simp_all

theorem skipBlanks_idem (cs : List Char) : skipBlanks (skipBlanks cs) = skipBlanks cs := by
  fun_induction skipBlanks cs with
  | case5 cs space tab line return_ => exact skipBlanks.eq_5 cs space tab line return_
  | _ => assumption

theorem readValue_skipBlanks {cs ds : List Char} (same : skipBlanks cs = skipBlanks ds) (fuel depth : Nat) :
    readValue fuel depth cs = readValue fuel depth ds := by
  cases fuel with
  | zero => rfl
  | succ fuel => rw [readValue, readValue, same]

theorem readItems_skipBlanks {cs ds : List Char} (same : skipBlanks cs = skipBlanks ds) (fuel depth : Nat) :
    readItems fuel depth cs = readItems fuel depth ds := by
  cases fuel with
  | zero => rfl
  | succ fuel => rw [readItems, readItems, readValue_skipBlanks same]

theorem readMembers_skipBlanks {cs ds : List Char} (same : skipBlanks cs = skipBlanks ds) (fuel depth : Nat) :
    readMembers fuel depth cs = readMembers fuel depth ds := by
  cases fuel with
  | zero => rfl
  | succ fuel => rw [readMembers, readMembers, same]

theorem Ends.lineBreak (ends : Ends rest) (indent : Option Nat) (level : Nat) : Ends (lineBreak indent level ++ rest) := by
  cases indent with
  | none => exact ends
  | some width => exact ends_cons (by decide) _

end Blanks

theorem readValue_scalar {r : Json × List Char} (read : readScalar cs = some r) (fuel depth : Nat) :
    readValue (fuel + 1) depth cs = some r := by
  have first : ∀ c ∈ cs.head?, c ∉ [' ', '\t', '\n', '\r', '"', '[', '\x7b'] := by
    intro c head listed
    obtain ⟨tail, rfl⟩ := List.head?_eq_some_iff.mp head
    simp only [List.mem_cons, List.not_mem_nil, or_false] at listed
    rcases listed with rfl | rfl | rfl | rfl | rfl | rfl | rfl <;> cases read
  have same : skipBlanks cs = cs := by
    cases cs with
    | nil => rfl
    | cons c cs => exact skipBlanks_cons (fun blank => first c rfl (by simp_all)) cs
  rw [readValue, same]
  split <;> simp_all

/-- A value is read from its text, at any level and whatever ends the text. Two steps for each character are fuel
enough. -/
def Reads (indent : Option Nat) (depth : Nat) (j : Json) : Prop :=
  ∀ level fuel rest, Ends rest → 2 * (renderAt indent level j).length < fuel →
    readValue fuel depth (renderAt indent level j ++ rest) = some (j.written, rest)

theorem reads_scalar (read : ∀ level rest, Ends rest → readScalar (renderAt indent level j ++ rest) = some (j.written, rest)) :
    Reads indent depth j := by
  intro level fuel rest ends enough
  obtain ⟨fuel, rfl⟩ := Nat.exists_eq_add_one_of_ne_zero (Nat.ne_zero_of_lt enough)
  exact readValue_scalar (read level rest ends) fuel depth

theorem Reads.skipBlanks_ne (reads : Reads indent depth j) (level : Nat) (ends : Ends rest) (tail : List Char) :
    skipBlanks (renderAt indent level j ++ rest) ≠ ']' :: tail := by
  intro bracket
  have read := reads level _ rest ends (Nat.lt_add_one _)
  have same := bracket.trans (skipBlanks_cons (by decide) tail).symm
  rw [readValue_skipBlanks same] at read
  cases read

theorem ends_items (ends : Ends rest) (indent : Option Nat) (level : Nat) (items : List Json) :
    Ends (renderItems indent level items ++ rest) := by
  cases items with
  | nil => exact ends
  | cons item items => exact ends_cons (by decide) _

theorem ends_members (ends : Ends rest) (indent : Option Nat) (level : Nat) (members : List (String × Json)) :
    Ends (renderMembers indent level members ++ rest) := by
  cases members with
  | nil => exact ends
  | cons m members => exact ends_cons (by decide) _

theorem ends_bracket (indent : Option Nat) (level : Nat) (rest : List Char) :
    Ends (lineBreak indent level ++ ']' :: rest) := (ends_cons (by decide) rest).lineBreak indent level

theorem ends_brace (indent : Option Nat) (level : Nat) (rest : List Char) :
    Ends (lineBreak indent level ++ '\x7d' :: rest) := (ends_cons (by decide) rest).lineBreak indent level

theorem readItems_render {item : Json} (reads : ∀ i ∈ item :: items, Reads indent depth i) (level outer : Nat)
    (rest : List Char)
    (enough : 2 * (renderAt indent level item ++ renderItems indent level items).length + 1 < fuel) :
    readItems fuel depth (renderAt indent level item ++ (renderItems indent level items ++
      (lineBreak indent outer ++ ']' :: rest))) = some (writtenItems (item :: items), rest) := by
  -- The induction is on the items after the first; every item takes one call and so one unit of fuel.
  induction items generalizing item fuel with
  | nil =>
    obtain ⟨fuel, rfl⟩ := Nat.exists_eq_add_one_of_ne_zero (Nat.ne_zero_of_lt enough)
    simp only [renderItems, List.nil_append, List.append_nil] at enough ⊢
    have first := reads item List.mem_cons_self level fuel _ (ends_bracket indent outer rest) (by omega)
    rw [readItems, first]
    simp [writtenItems, skipBlanks_cons]
  | cons next items ih =>
    obtain ⟨fuel, rfl⟩ := Nat.exists_eq_add_one_of_ne_zero (Nat.ne_zero_of_lt enough)
    have ends := ends_items (ends_bracket indent outer rest) indent level (next :: items)
    have others : ∀ i ∈ next :: items, Reads indent depth i := fun i listed => reads i (List.mem_cons_of_mem item listed)
    simp only [renderItems, List.length_append, List.length_cons] at enough
    have first := reads item List.mem_cons_self level fuel _ ends (by omega)
    have later := @ih fuel next others (by rw [List.length_append]; omega)
    rw [readItems, first]
    simp only [renderItems, List.cons_append, List.append_assoc, Option.bind_eq_bind, Option.bind_some,
      skipBlanks_cons (c := ',') (by decide), readItems_skipBlanks (skipBlanks_lineBreak indent level _), later]
    rfl

theorem skipBlanks_colon (indent : Option Nat) (cs : List Char) :
    ∃ tail, colon indent ++ cs = ':' :: tail ∧ skipBlanks tail = skipBlanks cs := by
  cases indent with
  | none => exact ⟨cs, rfl, rfl⟩
  | some width => exact ⟨' ' :: cs, rfl, rfl⟩

theorem readMembers_member {value : Json} (reads : Reads indent depth value) (name : String) {after : List Char}
    (ends : Ends after) (enough : 2 * (renderAt indent level value).length < fuel) :
    readMembers (fuel + 1) depth (renderText name ++ (colon indent ++ (renderAt indent level value ++ after))) =
      match skipBlanks after with
      | '\x7d' :: rest => some ([(name, value.written)], rest)
      | ',' :: rest => do
        let (members, rest) ← readMembers fuel depth rest
        return ((name, value.written) :: members, rest)
      | _ => none := by
  obtain ⟨tail, quoted, text⟩ := readText_renderText name (colon indent ++ (renderAt indent level value ++ after))
  obtain ⟨tail', marked, blank⟩ := skipBlanks_colon indent (renderAt indent level value ++ after)
  rw [readMembers, quoted, skipBlanks_cons (by decide)]
  simp only [Option.bind_eq_bind, text, Option.bind_some, String.ofList_toList]
  rw [marked, skipBlanks_cons (by decide)]
  simp only [readValue_skipBlanks blank, reads level fuel after ends enough]
  rfl

theorem readMembers_render {name : String} {value : Json} (reads : ∀ m ∈ (name, value) :: members, Reads indent depth m.2)
    (level outer : Nat) (rest : List Char)
    (enough : 2 * (renderAt indent level value ++ renderMembers indent level members).length + 1 < fuel) :
    readMembers fuel depth (renderText name ++ (colon indent ++ (renderAt indent level value ++
      (renderMembers indent level members ++ (lineBreak indent outer ++ '\x7d' :: rest))))) =
        some (writtenMembers ((name, value) :: members), rest) := by
  induction members generalizing name value fuel with
  | nil =>
    obtain ⟨fuel, rfl⟩ := Nat.exists_eq_add_one_of_ne_zero (Nat.ne_zero_of_lt enough)
    simp only [renderMembers, List.nil_append, List.append_nil] at enough ⊢
    have ends := ends_brace indent outer rest
    have first : Reads indent depth value := reads (name, value) List.mem_cons_self
    rw [readMembers_member first name ends (by omega)]
    simp [writtenMembers, skipBlanks_cons]
  | cons next members ih =>
    obtain ⟨fuel, rfl⟩ := Nat.exists_eq_add_one_of_ne_zero (Nat.ne_zero_of_lt enough)
    have ends := ends_members (ends_brace indent outer rest) indent level (next :: members)
    have others : ∀ m ∈ next :: members, Reads indent depth m.2 := fun m listed => reads m (List.mem_cons_of_mem _ listed)
    simp only [renderMembers, List.length_append, List.length_cons] at enough
    have later := @ih fuel next.1 next.2 others (by rw [List.length_append]; omega)
    have first : Reads indent depth value := reads (name, value) List.mem_cons_self
    rw [readMembers_member first name ends (by omega)]
    simp only [renderMembers, List.cons_append, List.append_assoc,
      skipBlanks_cons (c := ',') (by decide), readMembers_skipBlanks (skipBlanks_lineBreak indent level _), later]
    rfl

/-- A list is read if its items are, with one more level to open. -/
theorem reads_arr (reads : ∀ item ∈ items, Reads indent depth item) : Reads indent (depth + 1) (.arr items) := by
  intro level fuel rest ends enough
  obtain ⟨fuel, rfl⟩ := Nat.exists_eq_add_one_of_ne_zero (Nat.ne_zero_of_lt enough)
  cases items with
  | nil => rfl
  | cons item items =>
    simp only [renderAt, List.length_append, List.length_cons, List.length_nil] at enough
    have ends := ends_items (ends_bracket indent level rest) indent (level + 1) items
    have nonempty := (reads item List.mem_cons_self).skipBlanks_ne (level + 1) ends
    have read := @readItems_render fuel depth indent items item reads (level + 1) level rest
      (by rw [List.length_append]; omega)
    simp only [renderAt, List.cons_append, List.append_assoc, List.nil_append]
    rw [readValue, skipBlanks_cons (by decide)]
    -- Of the two cases that a list may begin with, `nonempty` leaves the one of the items.
    simp only [skipBlanks_lineBreak]
    rw [readItems_skipBlanks (skipBlanks_idem _), read]
    rfl

/-- So is an object, if it has each name once: otherwise the members would not be kept as they are. -/
theorem reads_obj (nodup : (members.map Prod.fst).Nodup) (reads : ∀ m ∈ members, Reads indent depth m.2) :
    Reads indent (depth + 1) (.obj members) := by
  intro level fuel rest ends enough
  obtain ⟨fuel, rfl⟩ := Nat.exists_eq_add_one_of_ne_zero (Nat.ne_zero_of_lt enough)
  cases members with
  | nil => rfl
  | cons m members =>
    obtain ⟨name, value⟩ := m
    simp only [renderAt, List.length_append, List.length_cons, List.length_nil] at enough
    have read := @readMembers_render fuel depth indent members name value reads (level + 1) level rest
      (by rw [List.length_append]; omega)
    have same : Keyed.ofList (writtenMembers ((name, value) :: members)) = writtenMembers ((name, value) :: members) := by
      apply Keyed.ofList_of_nodup
      rwa [writtenMembers_eq_map, List.map_map]
    simp only [renderAt, List.cons_append, List.append_assoc, List.nil_append]
    rw [readValue, skipBlanks_cons (by decide)]
    simp only [skipBlanks_lineBreak]
    split
    · rename_i brace
      cases brace
    · rw [readMembers_skipBlanks (skipBlanks_idem _), read, Option.map_some, same]
      rfl

theorem reads_of_legible (legible : Legible depth j) (indent : Option Nat) : Reads indent depth j := by
  induction legible with
  | null => exact reads_scalar fun _ _ _ => rfl
  | bool b => cases b <;> exact reads_scalar fun _ _ _ => rfl
  | int short => exact reads_scalar fun _ rest ends => readScalar_renderInt ends short
  | float x =>
    apply reads_scalar
    intro level rest ends
    by_cases finite : Binary64.Finite x
    · rw [renderAt, written, writtenFloat_finite finite]
      obtain ⟨negative, m, e, reading⟩ := finite
      exact readScalar_renderFloat ends reading
    · rw [renderAt, written, writtenFloat_other finite]
      unfold renderFloat
      split
      · exact absurd ⟨_, _, _, ‹_›⟩ finite
      · rfl
  | str s =>
    intro level fuel rest ends enough
    obtain ⟨fuel, rfl⟩ := Nat.exists_eq_add_one_of_ne_zero (Nat.ne_zero_of_lt enough)
    obtain ⟨tail, quoted, text⟩ := readText_renderText s rest
    rw [renderAt, quoted, readValue, skipBlanks_cons (by decide)]
    simp [text, written]
  | arr _ ih => exact reads_arr ih
  | obj nodup _ ih => exact reads_obj nodup ih

/-- A value that a text can hold is read back from its text, whatever the indent. -/
theorem parse?_render (legible : Legible depth j) (indent : Option Nat) : parse? depth (j.render indent) = some j.written := by
  have read := reads_of_legible legible indent 0 (2 * (renderAt indent 0 j).length + 2) [] (by simp [Ends]) (by omega)
  rw [List.append_nil] at read
  simp [parse?, render, read, skipBlanks]

end Json

end ActionGraph
