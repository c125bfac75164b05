import ActionGraph.Behavior.Basic

/-!
What an input takes. There may be a value wired to it, a setting of its node, and there is a default.
The first of these that counts is coerced, which fails only for what is too long to be spelled.
-/

namespace ActionGraph

theorem Json.present_toValue (j : Json) : j.toValue.isAbsent = false := by
  cases j <;> simp [toValue, Value.isAbsent]

theorem Node.present_setting {node : Node} {key : String} {v : Value} (there : node.setting? key = some v) :
    v.isAbsent = false := by
  obtain ⟨j, _, rfl⟩ := Option.map_eq_some_iff.mp there
  exact j.present_toValue

@[simp] theorem Number.present_toValue (n : Number) : n.toValue.isAbsent = false := by cases n <;> rfl

theorem Value.coerceText_eq {v : Value} (there : v.isNull = false) (default : Value) :
    v.coerceText default = v.spelled.map .text := by
  cases v with
  | null => cases there
  | _ => rfl

namespace Input

section

variable (spec : Input) (node : Node) (wired : Value)

/-- A wired value counts if there is any, and null only where there is nothing to fall back to. -/
def counts : Bool := !wired.isAbsent && (!wired.isNull || spec.setting.isNone && spec.default.isNull)

/-- The setting of an input, unless it is null. -/
def given? : Option Value := (spec.setting.bind node.setting?).filter fun v => !v.isNull

/-- All that there is for an input, the first choice first. -/
def choices : List Value :=
  (if spec.counts wired then [wired] else []) ++ (spec.given? node).toList ++ [spec.default]

/-- A value that was chosen, as the input has it. Null stays null. -/
def coerced (v : Value) : Except Fault Value :=
  match spec.coercion with
  | some c => if v.isNull then .ok v else c.apply v spec.default
  | none => .ok v

/-- With this wired to it, the input takes this value. -/
def Takes (v : Value) : Prop := (spec.choices node wired).head? = some v

end

variable {spec : Input} {node : Node} {wired v u : Value}

theorem present_given (there : spec.given? node = some v) : v.isAbsent = false := by
  obtain ⟨found, _⟩ := Option.filter_eq_some_iff.mp there
  obtain ⟨key, _, found⟩ := Option.bind_eq_some_iff.mp found
  exact Node.present_setting found

theorem fallback_eq : spec.fallback node = (spec.given? node).getD .absent := by
  unfold fallback given?
  cases spec.setting.bind node.setting? with
  | none => rfl
  | some v => cases v <;> rfl

theorem takes_found (spec : Input) (node : Node) (wired : Value) : spec.Takes node wired (spec.found node wired) := by
  have counted : spec.counted wired = if spec.counts wired then wired else .absent := by
    unfold Input.counted counts
    cases wired <;> cases spec.setting <;> cases spec.default.isNull <;> rfl
  unfold Takes choices found
  rw [counted, fallback_eq]
  by_cases counting : spec.counts wired = true
  · have present : wired.isAbsent = false := by
      simp only [counts, Bool.and_eq_true, Bool.not_eq_true'] at counting
      exact counting.1
    simp [counting, present]
  · have absent : Value.absent.isAbsent = true := rfl
    cases own : spec.given? node with
    | none => simp [counting, absent]
    | some v => simp [counting, absent, present_given own]

theorem value_eq : spec.value node wired = spec.coerced (spec.found node wired) := rfl

theorem Takes.value (takes : spec.Takes node wired v) : spec.value node wired = spec.coerced v := by
  rw [value_eq, Option.some.inj ((takes_found spec node wired).symm.trans takes)]

theorem Takes.present (takes : spec.Takes node wired v) (default : spec.default.isAbsent = false) :
    v.isAbsent = false := by
  have listed : v ∈ spec.choices node wired := List.mem_of_head? takes
  simp only [choices, List.mem_append, List.mem_singleton, Option.mem_toList] at listed
  rcases listed with (own | given) | rfl
  · split at own
    · rename_i counting
      rw [List.mem_singleton.mp own]
      simp only [counts, Bool.and_eq_true, Bool.not_eq_true'] at counting
      exact counting.1
    · cases own
  · exact present_given given
  · exact default

theorem Takes.not_null (takes : spec.Takes node wired v) (default : spec.default.isNull = false) :
    v.isNull = false := by
  have listed : v ∈ spec.choices node wired := List.mem_of_head? takes
  simp only [choices, List.mem_append, List.mem_singleton, Option.mem_toList] at listed
  rcases listed with (own | given) | rfl
  · split at own
    · rename_i counting
      rw [List.mem_singleton.mp own]
      simpa [counts, default] using (Bool.and_eq_true_iff.mp counting).2
    · cases own
  · simpa using (Option.filter_eq_some_iff.mp given).2
  · exact default

theorem coerced_number (coercion : spec.coercion = some .number) (some : v.isNull = false) :
    spec.coerced v = .ok (((Number.read? v).map Number.toValue).getD spec.default) := by
  simp only [coerced, coercion, some, Coercion.apply, Value.coerceNumber]
  cases Number.read? v <;> rfl

theorem coerced_text (coercion : spec.coercion = some .text) (some : v.isNull = false) :
    spec.coerced v = if v.spellable then .ok (.text v.display) else .error .integerTooLong := by
  simp only [coerced, coercion, some, Coercion.apply, Value.coerceText_eq some, Value.spelled]
  cases v.spellable <;> rfl

theorem Takes.text (takes : spec.Takes node wired v) (coercion : spec.coercion = some .text)
    (default : spec.default.isNull = false) (coerces : spec.coerced v = .ok u) : ∃ t, u = .text t := by
  rw [coerced_text coercion (takes.not_null default)] at coerces
  split at coerces
  · cases coerces
    exact ⟨_, rfl⟩
  · cases coerces

theorem Takes.number {n : Number} (takes : spec.Takes node wired v) (coercion : spec.coercion = some .number)
    (default : spec.default = n.toValue) (coerces : spec.coerced v = .ok u) : ∃ m : Number, u = m.toValue := by
  have there : v.isNull = false := takes.not_null (by rw [default]; cases n <;> rfl)
  rw [coerced_number coercion there] at coerces
  cases coerces
  cases Number.read? v with
  | none => exact ⟨n, default⟩
  | some m => exact ⟨m, rfl⟩

theorem coerced_null (null : v.isNull = true) : spec.coerced v = .ok v := by
  unfold coerced
  split
  · exact if_pos null
  · rfl

theorem number_of_coerced (coercion : spec.coercion = some .number) (default : spec.default = .null)
    (coerces : spec.coerced v = .ok u) : ∃ n : Option Number, u = n.elim .null Number.toValue := by
  cases null : v.isNull with
  | true =>
    rw [coerced_null null] at coerces
    cases coerces
    refine ⟨none, ?_⟩
    cases v with
    | null => rfl
    | _ => cases null
  | false =>
    rw [coerced_number coercion null] at coerces
    cases coerces
    cases Number.read? v with
    | none => exact ⟨none, default⟩
    | some m => exact ⟨some m, rfl⟩

/-- A value that was chosen can be coerced, or it is an integer too long for a text, or contains one. -/
theorem coerced_cases (default : spec.default.isAbsent = false) (there : v.isAbsent = false) :
    (∃ u, spec.coerced v = .ok u ∧ u.isAbsent = false) ∨
      spec.coerced v = .error .integerTooLong ∧ spec.coercion = some .text ∧ v.spellable = false := by
  cases null : v.isNull with
  | true => exact .inl ⟨v, coerced_null null, there⟩
  | false =>
    cases coercion : spec.coercion with
    | none =>
      refine .inl ⟨v, ?_, there⟩
      rw [coerced, coercion]
    | some c =>
      cases c with
      | number =>
        refine .inl ⟨_, coerced_number coercion null, ?_⟩
        cases Number.read? v with
        | none => exact default
        | some n => exact n.present_toValue
      | text =>
        rw [coerced_text coercion null]
        cases short : v.spellable with
        | true => exact .inl ⟨_, rfl, rfl⟩
        | false => exact .inr ⟨rfl, rfl, rfl⟩

end Input

end ActionGraph
