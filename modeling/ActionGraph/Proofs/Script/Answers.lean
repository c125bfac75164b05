import ActionGraph.Proofs.Action.Course
import ActionGraph.Proofs.Behavior.Builtin
import ActionGraph.Script.Library

/-!
What scripts answer. A script that is understood answers with something whenever its input is
something, and so is whatever stands in the input under a name.
-/

namespace ActionGraph

/-- It is something, and so is all that stands in it under a key. -/
inductive Value.Solid : Value → Prop
  | plain {v : Value} : v.isAbsent = false → (∀ entries, v ≠ .dict entries) → Solid v
  | dict {entries : List (Value × Value)} : (∀ e ∈ entries, Solid e.2) → Solid (.dict entries)

namespace Value

variable {v w : Value} {es : List (Value × Value)}

theorem Solid.present (solid : v.Solid) : v.isAbsent = false := by
  cases solid with
  | plain present _ => exact present
  | dict _ => rfl

theorem Solid.each (solid : (Value.dict es).Solid) : ∀ e ∈ es, e.2.Solid := by
  cases solid with
  | plain _ other => exact absurd rfl (other es)
  | dict each => exact each

@[simp] theorem solid_dict : (dict es).Solid ↔ ∀ e ∈ es, e.2.Solid := ⟨Solid.each, .dict⟩

@[simp] theorem solid_null : null.Solid := .plain rfl nofun

@[simp] theorem solid_bool (b : Bool) : (bool b).Solid := .plain rfl nofun

@[simp] theorem solid_int (n : Int) : (int n).Solid := .plain rfl nofun

@[simp] theorem solid_float (x : Float) : (float x).Solid := .plain rfl nofun

@[simp] theorem solid_text (s : String) : (text s).Solid := .plain rfl nofun

@[simp] theorem solid_list (items : List Value) : (list items).Solid := .plain rfl nofun

@[simp] theorem solid_tuple (items : List Value) : (tuple items).Solid := .plain rfl nofun

@[simp] theorem solid_set (items : List Value) : (set items).Solid := .plain rfl nofun

@[simp] theorem solid_bytes (octets : List UInt8) : (bytes octets).Solid := .plain rfl nofun

@[simp] theorem solid_element (e : ElementRef) : (element e).Solid := .plain rfl nofun

@[simp] theorem solid_event (e : Snapshot) : (event e).Solid := .plain rfl nofun

@[simp] theorem solid_enclosing : enclosing.Solid := .plain rfl nofun

@[simp] theorem solid_number (n : Number) : n.toValue.Solid := by
  cases n with
  | int n => exact solid_int n
  | float x => exact solid_float x

theorem solid_record {named : List (String × Value)} (each : ∀ e ∈ named, e.2.Solid) : (record named).Solid := by
  refine .dict fun e listed => ?_
  obtain ⟨own, there, rfl⟩ := List.mem_map.mp listed
  exact each own there

theorem mem_of_entry? {name : String} (found : entry? name es = some v) : ∃ k, (k, v) ∈ es := by
  fun_induction entry? name es with
  | case1 => cases found
  | case2 w rest =>
    cases found
    exact ⟨_, List.mem_cons_self⟩
  | case3 k w rest other ih =>
    obtain ⟨k, listed⟩ := ih found
    exact ⟨k, List.mem_cons_of_mem _ listed⟩
  | case4 e rest other ih =>
    obtain ⟨k, listed⟩ := ih found
    exact ⟨k, List.mem_cons_of_mem _ listed⟩

theorem solid_times {k : Nat} (product : v.times k = .ok w) : w.Solid := by
  unfold times at product
  split at product
  · cases product
    exact solid_text _
  · cases product
    exact solid_list _
  · cases product
    exact solid_tuple _
  · cases product
    exact solid_bytes _
  · split at product
    · rename_i n _
      cases product' : n.mul (.int k) with
      | ok m =>
        rw [product'] at product
        cases product
        exact solid_number m
      | error e =>
        rw [product'] at product
        cases product
    · cases product

end Value

namespace Script

open Value (Solid)

variable {α β : Type}

/-- Whatever the clock says, only such results come of the run. It may fail. -/
def Run.Answers (P : α → Prop) : Run α → Prop
  | .ended (.ok x) => P x
  | .ended (.error _) => True
  | .log _ _ next => next.Answers P
  | .now next => ∀ reading, (next reading).Answers P

namespace Run

variable {P : α → Prop} {Q : β → Prop} {a : Run α} {f : α → Run β}

theorem bind_eq (a : Run α) (f : α → Run β) : a >>= f = a.andThen f := rfl

theorem Answers.andThen (first : a.Answers P) (rest : ∀ x, P x → (f x).Answers Q) : (a.andThen f).Answers Q := by
  induction a with
  | ended r =>
    cases r with
    | ok x => exact rest x first
    | error e => exact trivial
  | log message data next ih => exact ih first
  | now next ih => exact fun reading => ih reading (first reading)

theorem answers_any (a : Run α) : a.Answers fun _ => True := by
  induction a with
  | ended r => cases r <;> exact trivial
  | log message data next ih => exact ih
  | now next ih => exact ih

theorem answers_last (rest : ∀ x, (f x).Answers Q) : (a.andThen f).Answers Q :=
  a.answers_any.andThen fun x _ => rest x

theorem answers_ended {r : Except Fault α} (good : ∀ x, r = .ok x → P x) : (ended r).Answers P := by
  cases r with
  | ok x => exact good x rfl
  | error e => exact trivial

theorem Answers.yields (answers : a.Answers P) {ds : List Deed} {x : α} (yields : a.toAction.Yields ds (.ok x)) :
    P x := by
  induction a generalizing ds with
  | ended r =>
    obtain ⟨_, rfl⟩ := Action.yields_done.mp yields
    exact answers
  | log message data next ih =>
    obtain ⟨_, _, further, _⟩ := Action.Yields.of_ask yields trivial
    exact ih answers further
  | now next ih =>
    obtain ⟨reading, _, further, _⟩ := Action.Yields.of_ask yields trivial
    exact ih reading (answers reading) further

end Run

/-- What is written in the expression, where it can come to be the answer, is something. -/
inductive Expr.Solid : Expr → Prop
  | literal {v : Value} : v.Solid → Solid (.literal v)
  | input : Solid .input
  | event : Solid .event
  | item {container : Expr} {key : Value} : Solid container → Solid (.item container key)
  | twice {e : Expr} : Solid (.twice e)
  | record {entries : List (String × Expr)} : (∀ e ∈ entries, Solid e.2) → Solid (.record entries)
  | list {items : List Expr} : Solid (.list items)
  | now : Solid .now
  | textOf {e : Expr} : Solid (.textOf e)
  | fault {f : Fault} : Solid (.fault f)

attribute [simp] Expr.Solid.input Expr.Solid.event Expr.Solid.twice Expr.Solid.list Expr.Solid.now Expr.Solid.textOf

@[simp] theorem Expr.solid_literal {v : Value} : (literal v).Solid ↔ v.Solid := by
  refine ⟨fun solid => ?_, .literal⟩
  cases solid
  assumption

@[simp] theorem Expr.solid_item {container : Expr} {key : Value} : (item container key).Solid ↔ container.Solid := by
  refine ⟨fun solid => ?_, .item⟩
  cases solid
  assumption

@[simp] theorem Expr.solid_record {entries : List (String × Expr)} :
    (record entries).Solid ↔ ∀ e ∈ entries, e.2.Solid := by
  refine ⟨fun solid => ?_, .record⟩
  cases solid
  assumption

def Statement.Solid : Statement → Prop
  | .log .. => True
  | .answer e => e.Solid
  | .fail _ => True
  | .check _ body => body.Solid

theorem solid_itemOf {container key v : Value} (solid : container.Solid) (found : itemOf container key = .ok v) :
    v.Solid := by
  unfold itemOf at found
  split at found
  · rename_i entries name
    split at found
    · rename_i w there
      cases found
      obtain ⟨k, listed⟩ := Value.mem_of_entry? there
      exact solid.each _ listed
    · cases found
  all_goals cases found

theorem solid_evalEntries {input event : Value} {entries : List (String × Expr)}
    (each : ∀ e ∈ entries, (e.2.eval input event).Answers Value.Solid) :
    (evalEntries input event entries).Answers fun vs => ∀ e ∈ vs, e.2.Solid := by
  induction entries with
  | nil =>
    rw [evalEntries]
    exact fun e none => absurd none List.not_mem_nil
  | cons entry rest ih =>
    rw [evalEntries]
    refine (each entry List.mem_cons_self).andThen fun v first => ?_
    refine (ih fun e listed => each e (List.mem_cons_of_mem _ listed)).andThen fun vs others => ?_
    intro e listed
    rcases List.mem_cons.mp listed with rfl | listed
    · exact first
    · exact others e listed

section

variable {input event : Value} (given : input.Solid) (last : event.Solid)

include given last

theorem Expr.Solid.eval {e : Expr} (solid : e.Solid) : (e.eval input event).Answers Value.Solid := by
  induction solid with
  | literal solid =>
    rw [Expr.eval]
    exact solid
  | input =>
    rw [Expr.eval]
    exact given
  | event =>
    rw [Expr.eval]
    exact last
  | item _ ih =>
    rw [Expr.eval]
    exact ih.andThen fun container solid => Run.answers_ended fun v found => solid_itemOf solid found
  | twice =>
    rw [Expr.eval]
    exact Run.answers_last fun v => Run.answers_ended fun w product => Value.solid_times product
  | record _ ih =>
    rw [Expr.eval]
    exact (solid_evalEntries ih).andThen fun vs each => Value.solid_record each
  | list =>
    rw [Expr.eval]
    exact Run.answers_last fun vs => Value.solid_list vs
  | now =>
    rw [Expr.eval]
    intro reading
    refine Run.answers_ended fun v product => ?_
    cases reading with
    | ok r => exact Value.solid_times product
    | error e => cases product
  | textOf =>
    rw [Expr.eval]
    exact Run.answers_last fun v => Run.answers_last fun s => Value.solid_text s
  | fault =>
    rw [Expr.eval]
    exact trivial

theorem Statement.Solid.exec {s : Statement} (solid : s.Solid) :
    (s.exec input event).Answers fun answer => ∀ v, answer = some v → v.Solid := by
  induction s with
  | log message data =>
    rw [Statement.exec]
    exact Run.answers_last fun v => Run.answers_last fun m => nofun
  | answer e =>
    rw [Statement.exec]
    refine (Expr.Solid.eval given last solid).andThen fun v answered => ?_
    rintro _ ⟨⟩
    exact answered
  | fail f =>
    rw [Statement.exec]
    exact trivial
  | check condition body ih =>
    rw [Statement.exec]
    refine Run.answers_last fun holds => ?_
    cases holds with
    | true => exact ih solid
    | false => nofun

theorem solid_exec {statements : List Statement} (each : ∀ s ∈ statements, s.Solid) :
    (exec input event statements).Answers Value.Solid := by
  induction statements with
  | nil =>
    rw [exec]
    exact Value.solid_null
  | cons s rest ih =>
    rw [exec]
    refine ((each s List.mem_cons_self).exec given last).andThen fun answer answered => ?_
    cases answer with
    | some v => exact answered v rfl
    | none => exact ih fun s listed => each s (List.mem_cons_of_mem _ listed)

end

theorem solid_answers : ∀ e ∈ answers, ∀ s ∈ e.2, s.Solid := by
  simp [answers, Statement.Solid]

theorem solid_literals : ∀ e ∈ literals, e.2.Solid := by
  simp [literals]

theorem solid_logging : ∀ e ∈ logging, ∀ s ∈ e.2, s.Solid := by
  simp [logging, Statement.Solid]

theorem solid_compile {code : String} {statements : List Statement} (compiled : compile code = .ok statements) :
    ∀ s ∈ statements, s.Solid := by
  unfold compile at compiled
  cases found : Keyed.get? (dedent code) library with
  | none =>
    rw [found] at compiled
    cases compiled
    exact fun s none => absurd none List.not_mem_nil
  | some r =>
    rw [found] at compiled
    cases compiled
    have listed := Keyed.mem_of_get? found
    simp only [library, List.mem_append, List.mem_map, Prod.mk.injEq] at listed
    rcases listed with (((⟨e, listed, _, same⟩ | ⟨e, listed, _, same⟩) | ⟨e, listed, _, same⟩) | ⟨e, _, _, same⟩) |
      ⟨e, _, _, same⟩
    · cases same
      exact solid_answers e listed
    · cases same
      intro s only
      cases List.mem_singleton.mp only
      exact .literal (solid_literals e listed)
    · cases same
      exact solid_logging e listed
    · cases same
      intro s only
      cases List.mem_singleton.mp only
      exact trivial
    · cases same

theorem solid_evaluate (code : String) (input event : Value) (given : input.Solid) (last : event.Solid) :
    (evaluate code input event).Answers Value.Solid := by
  unfold evaluate
  split
  · rename_i statements compiled
    exact solid_exec given last (solid_compile compiled)
  · exact trivial

end Script

end ActionGraph
