import ActionGraph.Decimal.Numeral
import Mathlib.Data.List.TakeWhile

/-!
The texts that are read as floats, by their grammar: digits that single underscores may part, with a point
and an exponent, or a word for infinity or for what is not a number. A sign may stand before either of
them, and blanks around all of it.
-/

namespace ActionGraph

namespace Text

/-- All of these characters are blanks. -/
def Blank (cs : List Char) : Prop := ∀ c ∈ cs, isBlank c = true

instance (cs : List Char) : Decidable (Blank cs) := decidable_of_iff (cs.all isBlank) List.all_eq_true

/-- None of these characters is a blank, and there is one. -/
structure Solid (cs : List Char) : Prop where
  nonempty : cs ≠ []
  dark : ∀ c ∈ cs, isBlank c = false

variable {c : Char} {n : Nat} {cs before after : List Char}

theorem digit?_eq_some (digit : digit? c = some n) :
    ∃ first ∈ digitZeros, first ≤ c.toNat ∧ c.toNat ≤ first + 9 ∧ n = c.toNat - first := by
  obtain ⟨first, found, rfl⟩ := Option.map_eq_some_iff.mp digit
  have inside := List.find?_some found
  simp only [Bool.and_eq_true, decide_eq_true_eq] at inside
  exact ⟨first, List.mem_of_find?_eq_some found, inside.1, inside.2, rfl⟩

theorem ne_of_digit {d : Char} (digit : digit? c = some n) (other : digit? d = none) : c ≠ d := by
  rintro rfl
  rw [other] at digit
  cases digit

theorem isBlank_digit (digit : digit? c = some n) : isBlank c = false := by
  obtain ⟨first, listed, low, high, _⟩ := digit?_eq_some digit
  have apart : ∀ z ∈ digitZeros, ∀ r ∈ blankRanges, z + 9 < r.1 ∨ r.2 < z := by decide
  simp only [isBlank, within, List.any_eq_false, Bool.and_eq_true, decide_eq_true_eq]
  intro r range
  have := apart first listed r range
  omega

theorem toLower_of_outside (outside : c.toNat < 65 ∨ 90 < c.toNat) : c.toLower = c := by
  refine dif_neg fun upper => ?_
  have low : 65 ≤ c.toNat := upper.1
  have high : c.toNat ≤ 90 := upper.2
  omega

theorem toLower_digit (digit : digit? c = some n) : c.toLower = c := by
  obtain ⟨first, listed, low, high, _⟩ := digit?_eq_some digit
  have outside : ∀ z ∈ digitZeros, z + 9 < 65 ∨ 90 < z := by decide
  apply toLower_of_outside
  have := outside first listed
  omega

theorem toLower_blank (blank : isBlank c = true) : c.toLower = c := by
  have outside : ∀ r ∈ blankRanges, r.2 < 65 ∨ 90 < r.1 := by decide
  obtain ⟨r, listed, inside⟩ := List.any_eq_true.mp blank
  simp only [Bool.and_eq_true, decide_eq_true_eq] at inside
  apply toLower_of_outside
  have := outside r listed
  omega

theorem dropWhile_blank (blank : Blank before) (solid : Solid cs) (more : List Char) :
    (before ++ (cs ++ more)).dropWhile isBlank = cs ++ more := by
  rw [List.dropWhile_append_of_pos blank]
  cases cs with
  | nil => exact absurd rfl solid.nonempty
  | cons c cs => rw [List.cons_append, List.dropWhile_cons, solid.dark c List.mem_cons_self, if_neg Bool.false_ne_true]

theorem strip_between (blank : Blank before) (blank' : Blank after) (solid : Solid cs) :
    strip (before ++ cs ++ after) = cs := by
  have blank'' : Blank after.reverse := fun c listed => blank' c (List.mem_reverse.mp listed)
  have solid' : Solid cs.reverse :=
    ⟨fun none => solid.nonempty (List.reverse_eq_nil_iff.mp none),
      fun c listed => solid.dark c (List.mem_reverse.mp listed)⟩
  have back := dropWhile_blank blank'' solid' []
  rw [List.append_nil] at back
  rw [strip, List.append_assoc, dropWhile_blank blank solid, List.reverse_append, back, List.reverse_reverse]

theorem exists_strip (cs : List Char) : ∃ before after, Blank before ∧ Blank after ∧
    cs = before ++ strip cs ++ after := by
  have blank (ds : List Char) : Blank (ds.takeWhile isBlank) := fun c listed => List.mem_takeWhile_imp listed
  refine ⟨cs.takeWhile isBlank, ((cs.dropWhile isBlank).reverse.takeWhile isBlank).reverse, blank cs, ?_, ?_⟩
  · intro c listed
    exact blank _ c (List.mem_reverse.mp listed)
  · rw [strip, List.append_assoc, ← List.reverse_append, List.takeWhile_append_dropWhile, List.reverse_reverse,
      List.takeWhile_append_dropWhile]

end Text

namespace Decimal

open Text

/-- These characters are these digits. Between two of them may be an underscore. -/
inductive Part : List Char → List Nat → Prop
  | last {c : Char} {n : Nat} : digit? c = some n → Part [c] [n]
  | next {c : Char} {n : Nat} {cs : List Char} {ds : List Nat} :
    digit? c = some n → Part cs ds → Part (c :: cs) (n :: ds)
  | parted {c : Char} {n : Nat} {cs : List Char} {ds : List Nat} :
    digit? c = some n → Part cs ds → Part (c :: '_' :: cs) (n :: ds)

/-- Digits, or nothing. -/
inductive Stretch : List Char → List Nat → Prop
  | none : Stretch [] []
  | some {cs : List Char} {ds : List Nat} : Part cs ds → Stretch cs ds

/-- What digits make when they go on after a number. -/
def carried (value : Nat) (ds : List Nat) : Nat := ds.foldl (fun v n => 10 * v + n) value

inductive Sign : List Char → Bool → Prop
  | none : Sign [] false
  | plus : Sign ['+'] false
  | minus : Sign ['-'] true

inductive Exponent : List Char → Int → Prop
  | none : Exponent [] 0
  | some {mark : Char} {sign cs : List Char} {ds : List Nat} {negative : Bool} :
    mark = 'e' ∨ mark = 'E' → Sign sign negative → Part cs ds →
    Exponent (mark :: (sign ++ cs)) (if negative then -(carried 0 ds : Int) else carried 0 ds)

/-- A decimal without its sign. If it has a point, there are digits before the point or after it. -/
inductive Unsigned : List Char → Digits → Prop
  | whole {cs tail : List Char} {ds : List Nat} {e : Int} : Part cs ds → Exponent tail e →
    Unsigned (cs ++ tail) ⟨carried 0 ds, e⟩
  | pointed {cs fs tail : List Char} {ds es : List Nat} {e : Int} : Stretch cs ds → Stretch fs es → ds ++ es ≠ [] →
    Exponent tail e → Unsigned (cs ++ '.' :: (fs ++ tail)) ⟨carried 0 (ds ++ es), e - es.length⟩

/-- A word, in small or in capital letters. -/
def Word (word : String) (cs : List Char) : Prop := cs.map Char.toLower = word.toList

instance (word : String) (cs : List Char) : Decidable (Word word cs) := inferInstanceAs (Decidable (_ = _))

/-- What the text of a float says. -/
inductive Spelling where
  | infinite (negative : Bool)
  | unknown
  | decimal (negative : Bool) (d : Digits)

def Spelling.float : Spelling → Float
  | infinite negative => Binary64.infinity negative
  | unknown => Binary64.nan
  | decimal negative d => d.toFloat negative

/-- What a text says after its sign. -/
inductive Body (negative : Bool) : List Char → Spelling → Prop
  | infinite {cs : List Char} : Word "inf" cs ∨ Word "infinity" cs → Body negative cs (.infinite negative)
  | unknown {cs : List Char} : Word "nan" cs → Body negative cs .unknown
  | decimal {cs : List Char} {d : Digits} : Unsigned cs d → Body negative cs (.decimal negative d)

/-- The text of a float, and what it says. -/
inductive Spells : List Char → Spelling → Prop
  | between {before sign cs after : List Char} {negative : Bool} {said : Spelling} :
    Blank before → Sign sign negative → Body negative cs said → Blank after →
    Spells (before ++ (sign ++ cs) ++ after) said

variable {c : Char} {n value count : Nat} {cs rest sign : List Char} {ds : List Nat} {negative : Bool} {e : Int}
  {d : Digits} {said : Spelling}

/-- What follows does not go on a run of digits. -/
def Stops (rest : List Char) : Prop := ∀ c ∈ rest.head?, digit? c = Option.none ∧ c ≠ '_'

theorem Part.head (part : Part cs ds) : ∃ c n cs' ds', cs = c :: cs' ∧ ds = n :: ds' ∧ digit? c = some n := by
  cases part with
  | last digit => exact ⟨_, _, _, _, rfl, rfl, digit⟩
  | next digit _ => exact ⟨_, _, _, _, rfl, rfl, digit⟩
  | parted digit _ => exact ⟨_, _, _, _, rfl, rfl, digit⟩

theorem digitRun_stops (stops : Stops rest) (value count : Nat) :
    digitRun digit? value count rest = ⟨value, count, rest⟩ := by
  cases rest with
  | nil => rfl
  | cons c rest =>
    obtain ⟨none, other⟩ := stops c rfl
    cases rest with
    | nil => simp [digitRun, none]
    | cons d rest => simp [digitRun, none, other]

theorem digitRun_digit (digit : digit? c = some n) (value count : Nat) (cs : List Char) :
    digitRun digit? value count (c :: cs) = digitRun digit? (10 * value + n) (count + 1) cs := by
  rw [digitRun.eq_def]
  simp only [digit]

theorem digitRun_parted (digit : digit? c = some n) (begun : count ≠ 0) (value : Nat) (cs : List Char) :
    digitRun digit? value count ('_' :: c :: cs) = digitRun digit? value count (c :: cs) := by
  have other : digit? '_' = none := by decide
  rw [digitRun_digit digit, digitRun.eq_def]
  simp only [other, digit, if_pos (And.intro True.intro begun)]

theorem digitRun_append (part : Part cs ds) (stops : Stops rest) (value count : Nat) :
    digitRun digit? value count (cs ++ rest) = ⟨carried value ds, count + ds.length, rest⟩ := by
  induction part generalizing value count with
  | last digit =>
    rw [List.singleton_append, digitRun_digit digit]
    exact digitRun_stops stops _ _
  | next digit _ ih =>
    rw [List.cons_append, digitRun_digit digit, ih, List.length_cons, Nat.add_assoc, Nat.add_comm 1]
    rfl
  | parted digit later ih =>
    obtain ⟨c, n, cs, ds, rfl, rfl, next⟩ := later.head
    rw [List.cons_append, List.cons_append, digitRun_digit digit, List.cons_append,
      digitRun_parted next (Nat.succ_ne_zero _), ← List.cons_append, ih, Nat.succ_eq_add_one, Nat.add_assoc,
      Nat.add_comm 1]
    rfl

theorem Part.after {front : List Char} (digit : digit? c = some n)
    (way : Stretch front ds ∨ count ≠ 0 ∧ ∃ later, front = '_' :: later ∧ Part later ds) :
    Part (c :: front) (n :: ds) := by
  rcases way with stretch | ⟨-, later, rfl, part⟩
  · cases stretch with
    | none => exact .last digit
    | some part => exact .next digit part
  · exact .parted digit part

/-- What is taken of a text for digits, if an underscore in front counts only after a digit. -/
theorem digitRun_parts (value count : Nat) (cs : List Char) : ∃ front ds,
    cs = front ++ (digitRun digit? value count cs).rest ∧
    (digitRun digit? value count cs).value = carried value ds ∧
    (digitRun digit? value count cs).count = count + ds.length ∧
    (Stretch front ds ∨ count ≠ 0 ∧ ∃ later, front = '_' :: later ∧ Part later ds) := by
  fun_induction digitRun digit? value count cs with
  | case1 value count => exact ⟨[], [], rfl, rfl, rfl, .inl .none⟩
  | case2 value count c cs n digit ih =>
    obtain ⟨front, ds, split, total, number, way⟩ := ih
    refine ⟨c :: front, n :: ds, ?_, total, ?_, .inl (.some (.after digit way))⟩
    · rw [List.cons_append, ← split]
    · rw [number, List.length_cons]
      omega
  | case3 value count c other d cs begun n digit ih =>
    obtain ⟨front, ds, split, total, number, way⟩ := ih
    obtain ⟨rfl, begun⟩ := begun
    refine ⟨'_' :: d :: front, n :: ds, ?_, total, ?_, .inr ⟨begun, d :: front, rfl, .after digit way⟩⟩
    · rw [List.cons_append, List.cons_append, ← split]
    · rw [number, List.length_cons]
      omega
  | _ => exact ⟨[], [], rfl, rfl, rfl, .inl .none⟩

theorem digitRun_stretch (stretch : Stretch cs ds) (stops : Stops rest) (value : Nat) :
    digitRun digit? value 0 (cs ++ rest) = ⟨carried value ds, ds.length, rest⟩ := by
  cases stretch with
  | none => exact digitRun_stops stops value 0
  | some part => rw [digitRun_append part stops, Nat.zero_add]

theorem digitRun_eq (value : Nat) (cs : List Char) : ∃ front rest ds, Stretch front ds ∧ cs = front ++ rest ∧
    digitRun digit? value 0 cs = ⟨carried value ds, ds.length, rest⟩ := by
  obtain ⟨front, ds, split, total, number, way⟩ := digitRun_parts value 0 cs
  refine ⟨front, _, ds, ?_, split, ?_⟩
  · rcases way with stretch | ⟨begun, _⟩
    · exact stretch
    · exact absurd rfl begun
  · rw [Nat.zero_add] at number
    rw [← total, ← number]

theorem Stretch.part (stretch : Stretch cs ds) (some : ds.length ≠ 0) : Part cs ds := by
  cases stretch with
  | none => exact absurd rfl some
  | some part => exact part

theorem takeSign_append (signed : Sign sign negative) (bare : ∀ c ∈ cs.head?, c ≠ '+' ∧ c ≠ '-') :
    takeSign (sign ++ cs) = (negative, cs) := by
  cases signed with
  | plus => rfl
  | minus => rfl
  | none =>
    rw [List.nil_append, takeSign.eq_def]
    split
    · exact absurd rfl (bare _ rfl).2
    · exact absurd rfl (bare _ rfl).1
    · rfl

theorem exists_sign (cs : List Char) : ∃ sign, Sign sign (takeSign cs).1 ∧ cs = sign ++ (takeSign cs).2 := by
  rw [takeSign.eq_def]
  split
  · exact ⟨['-'], .minus, rfl⟩
  · exact ⟨['+'], .plus, rfl⟩
  · exact ⟨[], .none, rfl⟩

theorem Part.bare (part : Part cs ds) : ∀ c ∈ cs.head?, c ≠ '+' ∧ c ≠ '-' := by
  obtain ⟨c, n, cs, ds, rfl, rfl, digit⟩ := part.head
  rintro d ⟨⟩
  exact ⟨ne_of_digit digit (by decide), ne_of_digit digit (by decide)⟩

theorem exponentPart_eq_some : exponentPart digit? cs = some e ↔ Exponent cs e := by
  constructor
  · intro read
    cases cs with
    | nil =>
      obtain rfl : 0 = e := Option.some.inj read
      exact .none
    | cons c cs =>
      rw [exponentPart] at read
      split at read
      · rename_i mark
        obtain ⟨sign, signed, split⟩ := exists_sign cs
        generalize takeSign cs = taken at signed split read
        obtain ⟨front, rest, ds, stretch, split', run⟩ := digitRun_eq 0 taken.2
        simp only [run] at read
        split at read
        · rename_i all
          obtain rfl := Option.some.inj read
          rw [split, split', all.2, List.append_nil]
          exact .some mark signed (stretch.part all.1)
        · cases read
      · cases read
  · intro exponent
    cases exponent with
    | none => rfl
    | some mark signed part =>
      have run := digitRun_append part (show Stops [] from nofun) 0 0
      rw [List.append_nil] at run
      obtain ⟨c, n, cs, ds, rfl, rfl, digit⟩ := part.head
      rw [exponentPart, if_pos mark, takeSign_append signed part.bare]
      simp [run]

theorem Exponent.stops (exponent : Exponent cs e) : Stops cs := by
  cases exponent with
  | none => nofun
  | some mark _ _ =>
    rintro c ⟨⟩
    rcases mark with rfl | rfl <;> decide

theorem Exponent.not_point (exponent : Exponent cs e) : cs ≠ '.' :: rest := by
  rintro rfl
  cases exponent with
  | some mark _ _ => rcases mark with mark | mark <;> cases mark

theorem carried_append (value : Nat) (ds es : List Nat) : carried (carried value ds) es = carried value (ds ++ es) :=
  List.foldl_append.symm

theorem unsigned?_eq_some : unsigned? digit? cs = some d ↔ Unsigned cs d := by
  constructor
  · intro read
    obtain ⟨front, rest, ds, stretch, rfl, run⟩ := digitRun_eq 0 cs
    simp only [unsigned?, run] at read
    split at read
    · rename_i rest'
      obtain ⟨front', rest, es, stretch', rfl, run'⟩ := digitRun_eq (carried 0 ds) rest'
      simp only [run'] at read
      split at read
      · cases read
      · rename_i some
        obtain ⟨e, exponent, rfl⟩ := Option.map_eq_some_iff.mp read
        rw [carried_append]
        refine .pointed stretch stretch' ?_ (exponentPart_eq_some.mp exponent)
        simpa [List.length_eq_zero_iff] using some
    · split at read
      · cases read
      · rename_i some
        obtain ⟨e, exponent, rfl⟩ := Option.map_eq_some_iff.mp read
        exact .whole (stretch.part some) (exponentPart_eq_some.mp exponent)
  · intro spelled
    cases spelled with
    | whole part exponent =>
      have run := digitRun_stretch (.some part) exponent.stops 0
      obtain ⟨c, n, cs, ds, rfl, rfl, digit⟩ := part.head
      simp only [unsigned?, run]
      split
      · exact absurd rfl exponent.not_point
      · rw [if_neg (by simp), exponentPart_eq_some.mpr exponent]
        rfl
    | @pointed cs fs tail ds es e stretch stretch' some exponent =>
      have none : ¬ (ds.length = 0 ∧ es.length = 0) := by simpa [List.length_eq_zero_iff] using some
      have point : Stops ('.' :: (fs ++ tail)) := by
        rintro c ⟨⟩
        decide
      simp only [unsigned?, digitRun_stretch stretch point, digitRun_stretch stretch' exponent.stops, if_neg none,
        exponentPart_eq_some.mpr exponent, carried_append, Option.map_some]

theorem word_eq {word : String} : String.ofList (cs.map Char.toLower) = word ↔ Word word cs := by
  constructor
  · rintro rfl
    exact String.toList_ofList.symm
  · intro spelled
    rw [spelled, String.ofList_toList]

/-- A character of a word, if it is not changed by taking the small letter, is one of the word's. -/
theorem Word.mem {word : String} (spelled : Word word cs) (listed : c ∈ cs) (small : c.toLower = c) :
    c ∈ word.toList := by
  rw [← spelled]
  exact List.mem_map.mpr ⟨c, listed, small⟩

theorem Unsigned.head (spelled : Unsigned cs d) : ∃ c cs', cs = c :: cs' ∧ (c = '.' ∨ ∃ n, digit? c = some n) := by
  cases spelled with
  | whole part _ =>
    obtain ⟨c, n, cs, ds, rfl, rfl, digit⟩ := part.head
    exact ⟨c, _, rfl, .inr ⟨n, digit⟩⟩
  | pointed stretch _ _ _ =>
    cases stretch with
    | none => exact ⟨'.', _, rfl, .inl rfl⟩
    | some part =>
      obtain ⟨c, n, cs, ds, rfl, rfl, digit⟩ := part.head
      exact ⟨c, _, rfl, .inr ⟨n, digit⟩⟩

theorem Unsigned.not_word (spelled : Unsigned cs d) {word : String}
    (letters : word.toList.all fun c => c != '.' && (digit? c).isNone) : ¬ Word word cs := by
  intro same
  have letters : ∀ c ∈ word.toList, c ≠ '.' ∧ digit? c = none := by simpa using letters
  obtain ⟨c, cs, rfl, first⟩ := spelled.head
  rcases first with rfl | ⟨n, digit⟩
  · exact (letters '.' (same.mem List.mem_cons_self rfl)).1 rfl
  · exact ne_of_digit digit (letters c (same.mem List.mem_cons_self (toLower_digit digit))).2 rfl

theorem Word.bare {word : String} (spelled : Word word cs) (letters : '+' ∉ word.toList ∧ '-' ∉ word.toList) :
    ∀ c ∈ cs.head?, c ≠ '+' ∧ c ≠ '-' := by
  intro c first
  constructor
  · rintro rfl
    exact letters.1 (spelled.mem (List.mem_of_mem_head? first) rfl)
  · rintro rfl
    exact letters.2 (spelled.mem (List.mem_of_mem_head? first) rfl)

theorem Body.bare (body : Body negative cs said) : ∀ c ∈ cs.head?, c ≠ '+' ∧ c ≠ '-' := by
  cases body with
  | infinite spelled => exact spelled.elim (·.bare (by decide)) (·.bare (by decide))
  | unknown spelled => exact spelled.bare (by decide)
  | decimal spelled =>
    obtain ⟨c, cs, rfl, first⟩ := spelled.head
    rintro d ⟨⟩
    rcases first with rfl | ⟨n, digit⟩
    · decide
    · exact ⟨ne_of_digit digit (by decide), ne_of_digit digit (by decide)⟩

theorem numeral?_eq_some {x : Float} : numeral? digit? cs = some x ↔
    ∃ sign negative cs' said, cs = sign ++ cs' ∧ Sign sign negative ∧ Body negative cs' said ∧ said.float = x := by
  constructor
  · intro read
    obtain ⟨sign, signed, split⟩ := exists_sign cs
    rw [numeral?] at read
    generalize takeSign cs = taken at signed split read
    dsimp only at read
    split at read
    · rename_i word
      have word := word.imp word_eq.mp word_eq.mp
      exact ⟨sign, taken.1, taken.2, _, split, signed, .infinite word, Option.some.inj read⟩
    · split at read
      · rename_i word
        exact ⟨sign, taken.1, taken.2, _, split, signed, .unknown (word_eq.mp word), Option.some.inj read⟩
      · obtain ⟨d, spelled, rfl⟩ := Option.map_eq_some_iff.mp read
        exact ⟨sign, taken.1, taken.2, _, split, signed, .decimal (unsigned?_eq_some.mp spelled), rfl⟩
  · rintro ⟨sign, negative, cs, said, rfl, signed, body, rfl⟩
    rw [numeral?, takeSign_append signed body.bare]
    dsimp only
    have infinite := or_congr (@word_eq cs "inf") (@word_eq cs "infinity")
    cases body with
    | infinite word => exact if_pos (infinite.mpr word)
    | unknown word =>
      have other : ¬ (Word "inf" cs ∨ Word "infinity" cs) := by
        rw [Word, Word, show cs.map Char.toLower = "nan".toList from word]
        decide
      rw [if_neg (mt infinite.mp other), if_pos (word_eq.mpr word)]
      rfl
    | decimal spelled =>
      have other : ¬ (Word "inf" cs ∨ Word "infinity" cs) :=
        not_or.mpr ⟨spelled.not_word (by decide), spelled.not_word (by decide)⟩
      have other' : ¬ Word "nan" cs := spelled.not_word (by decide)
      rw [if_neg (mt infinite.mp other), if_neg (mt word_eq.mp other'), unsigned?_eq_some.mpr spelled]
      rfl

theorem Part.dark (part : Part cs ds) : ∀ c ∈ cs, isBlank c = false := by
  induction part with
  | last digit => exact List.forall_mem_singleton.mpr (isBlank_digit digit)
  | next digit _ ih => exact List.forall_mem_cons.mpr ⟨isBlank_digit digit, ih⟩
  | parted digit _ ih => exact List.forall_mem_cons.mpr ⟨isBlank_digit digit, List.forall_mem_cons.mpr ⟨by decide, ih⟩⟩

theorem Stretch.dark (stretch : Stretch cs ds) : ∀ c ∈ cs, isBlank c = false := by
  cases stretch with
  | none => nofun
  | some part => exact part.dark

theorem Sign.dark (signed : Sign sign negative) : ∀ c ∈ sign, isBlank c = false := by
  cases signed with
  | none => nofun
  | plus => exact List.forall_mem_singleton.mpr (by decide)
  | minus => exact List.forall_mem_singleton.mpr (by decide)

theorem Exponent.dark (exponent : Exponent cs e) : ∀ c ∈ cs, isBlank c = false := by
  cases exponent with
  | none => nofun
  | some mark signed part =>
    refine List.forall_mem_cons.mpr ⟨?_, List.forall_mem_append.mpr ⟨signed.dark, part.dark⟩⟩
    rcases mark with rfl | rfl <;> decide

theorem Word.dark {word : String} (spelled : Word word cs) (letters : word.toList.any isBlank = false) :
    ∀ c ∈ cs, isBlank c = false := by
  intro c listed
  by_contra blank
  rw [Bool.not_eq_false] at blank
  exact List.any_eq_false.mp letters c (spelled.mem listed (toLower_blank blank)) blank

theorem Body.dark (body : Body negative cs said) : ∀ c ∈ cs, isBlank c = false := by
  cases body with
  | infinite spelled => exact spelled.elim (·.dark (by decide)) (·.dark (by decide))
  | unknown spelled => exact spelled.dark (by decide)
  | decimal spelled =>
    cases spelled with
    | whole part exponent => exact List.forall_mem_append.mpr ⟨part.dark, exponent.dark⟩
    | pointed stretch stretch' _ exponent =>
      refine List.forall_mem_append.mpr ⟨stretch.dark, List.forall_mem_cons.mpr ⟨by decide, ?_⟩⟩
      exact List.forall_mem_append.mpr ⟨stretch'.dark, exponent.dark⟩

theorem Body.nonempty (body : Body negative cs said) : cs ≠ [] := by
  rintro rfl
  cases body with
  | infinite spelled => exact absurd spelled (by decide)
  | unknown spelled => exact absurd spelled (by decide)
  | decimal spelled =>
    obtain ⟨c, cs, split, _⟩ := spelled.head
    cases split

theorem Body.solid (body : Body negative cs said) (signed : Sign sign negative) : Solid (sign ++ cs) where
  nonempty none := body.nonempty (List.append_eq_nil_iff.mp none).2
  dark := List.forall_mem_append.mpr ⟨signed.dark, body.dark⟩

/-- A text is read as a float if and only if the grammar has it, as the float that it says. -/
theorem ofText?_eq_some {s : String} {x : Float} :
    ofText? s = some x ↔ ∃ said, Spells s.toList said ∧ said.float = x := by
  rw [ofText?, numeral?_eq_some]
  constructor
  · rintro ⟨sign, negative, cs, said, split, signed, body, float⟩
    obtain ⟨before, after, blank, blank', whole⟩ := exists_strip s.toList
    rw [split] at whole
    rw [whole]
    exact ⟨said, .between blank signed body blank', float⟩
  · rintro ⟨said, spelled, float⟩
    generalize s.toList = cs at spelled
    cases spelled with
    | between blank signed body blank' =>
      exact ⟨_, _, _, said, strip_between blank blank' (body.solid signed), signed, body, float⟩

end Decimal

end ActionGraph
