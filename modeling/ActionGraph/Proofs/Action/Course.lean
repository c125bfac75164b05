import ActionGraph.Proofs.Action.Perform
import ActionGraph.Proofs.Session.History

/-!
How far an action has come. A suspended thread is what is left of the action it began as, after the
deeds of all its turns; so every deed is the next request of that action.
-/

namespace ActionGraph

namespace Action

variable {α β : Type}

/-- Answered as these deeds say, the first action comes to the second. An answer from outside, which
only a request can have that is not prompt, is not among the deeds and may be any. -/
inductive Reaches : Action α → List Deed → Action α → Prop
  | start (a : Action α) : Reaches a [] a
  | answered {r : Request} {next : r.Answer → Action α} {ds : List Deed} {b : Action α} (x : r.Answer) :
      Reaches (next x) ds b → Reaches (.ask r next) (.asked r (some x) :: ds) b
  | settled {r : Request} {next : r.Answer → Action α} {ds : List Deed} {b : Action α} (slow : ¬ r.Prompt)
      (x : r.Answer) : Reaches (next x) ds b → Reaches (.ask r next) (.asked r none :: ds) b

/-- After these deeds the action makes this request. -/
def Requests (a : Action α) (ds : List Deed) (r : Request) : Prop := ∃ next, a.Reaches ds (.ask r next)

/-- By these deeds the action comes to this result. -/
def Yields (a : Action α) (ds : List Deed) (x : α) : Prop := a.Reaches ds (.done x)

variable {a b c : Action α} {f : α → Action β} {ds more : List Deed} {r : Request}

theorem Reaches.append (h : a.Reaches ds b) (k : b.Reaches more c) : a.Reaches (ds ++ more) c := by
  induction h with
  | start a => exact k
  | answered x _ ih => exact .answered x (ih k)
  | settled slow x _ ih => exact .settled slow x (ih k)

theorem Reaches.requests (h : a.Reaches ds b) (k : b.Requests more r) : a.Requests (ds ++ more) r := by
  obtain ⟨next, k⟩ := k
  exact ⟨next, h.append k⟩

theorem Reaches.throughout {Q : (r : Request) → (r.Answer → Action α) → Prop} {P : Except Fault α → Prop}
    (h : a.Reaches ds b) (k : a.Throughout Q P) : b.Throughout Q P := by
  induction h with
  | start a => exact k
  | answered x _ ih => exact ih (k.2 x)
  | settled _ x _ ih => exact ih (k.2 x)

theorem Reaches.asked {R : Request → Prop} (h : a.Reaches ds b) (k : a.Asks R) :
    ∀ d ∈ ds, ∃ r x, d = .asked r x ∧ R r := by
  induction h with
  | start a => simp
  | answered x _ ih =>
    intro d hd
    rcases List.mem_cons.mp hd with rfl | hd
    · exact ⟨_, _, rfl, k.1⟩
    · exact ih (k.2 x) d hd
  | settled _ x _ ih =>
    intro d hd
    rcases List.mem_cons.mp hd with rfl | hd
    · exact ⟨_, _, rfl, k.1⟩
    · exact ih (k.2 x) d hd

theorem Requests.asks {R : Request → Prop} (h : a.Requests ds r) (k : a.Asks R) : R r := by
  obtain ⟨next, h⟩ := h
  exact (h.throughout k).1

theorem Yields.ends {P : Except Fault α → Prop} {x : α} (h : a.Yields ds x) (k : a.Ends P) : P (.ok x) :=
  h.throughout k

@[simp] theorem yields_done {x y : α} : (Action.done x).Yields ds y ↔ ds = [] ∧ y = x := by
  constructor
  · intro h
    cases h
    exact ⟨rfl, rfl⟩
  · rintro ⟨rfl, rfl⟩
    exact .start _

@[simp] theorem not_requests_done {x : α} : ¬ (Action.done x).Requests ds r := by
  rintro ⟨next, h⟩
  cases h

@[simp] theorem not_requests_failed {e : Fault} : ¬ (Action.failed e : Action α).Requests ds r := by
  rintro ⟨next, h⟩
  cases h

@[simp] theorem not_yields_failed {e : Fault} {x : α} : ¬ (Action.failed e : Action α).Yields ds x := by
  intro h
  cases h

@[simp] theorem yields_ofExcept {o : Except Fault α} {x : α} : (ofExcept o).Yields ds x ↔ ds = [] ∧ o = .ok x := by
  cases o with
  | ok y => simp [ofExcept, eq_comm]
  | error e => simp [ofExcept]

@[simp] theorem not_requests_ofExcept {o : Except Fault α} : ¬ (ofExcept o).Requests ds r := by
  cases o <;> simp [ofExcept]

/-- A prompt request is the next one, or it has an answer. -/
theorem Requests.of_ask {r r' : Request} {next : r.Answer → Action α} (h : (ask r next).Requests ds r')
    (prompt : r.Prompt) :
    ds = [] ∧ r' = r ∨ ∃ x rest, (next x).Requests rest r' ∧ ds = .asked r (some x) :: rest := by
  obtain ⟨_, h⟩ := h
  cases h with
  | start _ => exact .inl ⟨rfl, rfl⟩
  | answered x h => exact .inr ⟨x, _, ⟨_, h⟩, rfl⟩
  | settled slow x h => exact absurd prompt slow

theorem Yields.of_ask {r : Request} {next : r.Answer → Action α} {y : α} (h : (ask r next).Yields ds y)
    (prompt : r.Prompt) : ∃ x rest, (next x).Yields rest y ∧ ds = .asked r (some x) :: rest := by
  cases h with
  | answered x h => exact ⟨x, _, h, rfl⟩
  | settled slow x h => exact absurd prompt slow

/-- What is requested after a prompt request is requested by what follows on its answer. -/
theorem Requests.past {r r' : Request} {f : r.Answer → Action α} (h : ((request r).andThen f).Requests ds r')
    (prompt : r.Prompt) (other : r' ≠ r) : ∃ x rest, (f x).Requests rest r' ∧ ds = .asked r (some x) :: rest := by
  rcases Requests.of_ask h prompt with ⟨_, same⟩ | later
  · exact absurd same other
  · exact later

theorem Yields.of_request {r : Request} {x : r.Answer} (h : (request r).Yields ds x) (prompt : r.Prompt) :
    ds = [.asked r (some x)] := by
  obtain ⟨y, rest, ended, rfl⟩ := Yields.of_ask h prompt
  obtain ⟨rfl, rfl⟩ := yields_done.mp ended
  rfl

/-- One action after the other is still in the first, or the first has come to its result. -/
theorem Reaches.of_andThen {c : Action β} (h : (a.andThen f).Reaches ds c) :
    (∃ b, a.Reaches ds b ∧ c = b.andThen f) ∨
      ∃ x before after, ds = before ++ after ∧ a.Yields before x ∧ (f x).Reaches after c := by
  induction a generalizing ds with
  | done x => exact .inr ⟨x, [], ds, rfl, .start _, h⟩
  | failed e =>
    cases h
    exact .inl ⟨.failed e, .start _, rfl⟩
  | ask r next ih =>
    cases h with
    | start _ => exact .inl ⟨.ask r next, .start _, rfl⟩
    | answered x h =>
      rcases ih x h with ⟨b, hb, rfl⟩ | ⟨y, before, after, rfl, hy, hc⟩
      · exact .inl ⟨b, .answered x hb, rfl⟩
      · exact .inr ⟨y, _, after, rfl, .answered x hy, hc⟩
    | settled slow x h =>
      rcases ih x h with ⟨b, hb, rfl⟩ | ⟨y, before, after, rfl, hy, hc⟩
      · exact .inl ⟨b, .settled slow x hb, rfl⟩
      · exact .inr ⟨y, _, after, rfl, .settled slow x hy, hc⟩

theorem Requests.of_andThen (h : (a.andThen f).Requests ds r) :
    a.Requests ds r ∨ ∃ x before after, ds = before ++ after ∧ a.Yields before x ∧ (f x).Requests after r := by
  obtain ⟨next, h⟩ := h
  rcases h.of_andThen with ⟨b, hb, eq⟩ | ⟨x, before, after, eq, hx, hf⟩
  · cases b with
    | done x => exact .inr ⟨x, ds, [], by simp, hb, next, eq ▸ .start _⟩
    | failed e => cases eq
    | ask r' next' =>
      cases eq
      exact .inl ⟨next', hb⟩
  · exact .inr ⟨x, before, after, eq, hx, next, hf⟩

theorem Yields.of_andThen {y : β} (h : (a.andThen f).Yields ds y) :
    ∃ x before after, ds = before ++ after ∧ a.Yields before x ∧ (f x).Yields after y := by
  rcases Reaches.of_andThen h with ⟨b, hb, eq⟩ | reached
  · cases b with
    | done x =>
      have last : (f x).Yields [] y := by
        rw [Yields, eq]
        exact .start _
      exact ⟨x, ds, [], by simp, hb, last⟩
    | failed e => cases eq
    | ask r next => cases eq
  · exact reached

theorem Reaches.of_attempt {c : Action (Except Fault α)} (h : a.attempt.Reaches ds c) :
    ∃ b, a.Reaches ds b ∧ c = b.attempt := by
  induction a generalizing ds with
  | done x =>
    cases h
    exact ⟨_, .start _, rfl⟩
  | failed e =>
    cases h
    exact ⟨_, .start _, rfl⟩
  | ask r next ih =>
    cases h with
    | start _ => exact ⟨.ask r next, .start _, rfl⟩
    | answered x h =>
      obtain ⟨b, hb, eq⟩ := ih x h
      exact ⟨b, .answered x hb, eq⟩
    | settled slow x h =>
      obtain ⟨b, hb, eq⟩ := ih x h
      exact ⟨b, .settled slow x hb, eq⟩

theorem Requests.of_attempt (h : a.attempt.Requests ds r) : a.Requests ds r := by
  obtain ⟨next, h⟩ := h
  obtain ⟨b, hb, eq⟩ := h.of_attempt
  cases b <;> cases eq
  exact ⟨_, hb⟩

theorem Yields.of_attempt {o : Except Fault α} (h : a.attempt.Yields ds o) :
    (∃ x, o = .ok x ∧ a.Yields ds x) ∨ ∃ e, o = .error e ∧ a.Reaches ds (.failed e) := by
  obtain ⟨b, hb, eq⟩ := Reaches.of_attempt h
  cases b with
  | done x =>
    cases eq
    exact .inl ⟨x, rfl, hb⟩
  | failed e =>
    cases eq
    exact .inr ⟨e, rfl, hb⟩
  | ask r next => cases eq

end Action

variable {α : Type}

/-- The thread is what these deeds leave of the action. -/
def Thread.LeftOf (a : Action α) (ds : List Deed) : Thread α → Prop
  | .ready b => a.Reaches ds b
  | .due b => a.Reaches ds b
  | .waiting _ next => ∀ x, a.Reaches ds (next x)

/-- These deeds have brought the action to this result, or the thread is what they leave of it. -/
def Progress.LeftOf (a : Action α) (ds : List Deed) : Progress α → Prop
  | .ended (.ok x) => a.Yields ds x
  | .ended (.error e) => a.Reaches ds (.failed e)
  | .suspended t => t.LeftOf a ds

variable {a b : Action α} {t : Thread α} {ds : List Deed}

theorem Scene.slow_of_gate {s s' : Scene} {due : Bool} {r : Request} {gate : Nat}
    {answer : Except Fault Unit → r.Answer} (met : s.meet due r = (s', .atGate gate answer)) : ¬ r.Prompt := by
  have call : ∀ {β : Type} {f : Outside → Outside × β} {answer : Except Fault Unit → β},
      s.call due f = (s', .atGate gate answer) → ¬ r.Prompt := by
    intro β f answer called
    unfold Scene.call at called
    split at called <;> simp at called
  cases r with
  | mount id => exact call (f := (·.mount id)) met
  | create kind params => exact call (f := (·.create kind params)) met
  | destroy handle => exact call (f := (·.destroy handle)) met
  | animate handle keyframes duration => exact id
  | _ => simp [Scene.meet] at met

theorem Action.Reaches.leftOf_perform (h : a.Reaches ds b) (due : Bool) (s : Scene) :
    (b.perform due s).2.LeftOf a (ds ++ b.deeds due s) := by
  induction b generalizing due s ds with
  | done x => simpa [Action.perform, Action.deeds, Progress.LeftOf, Action.Yields] using h
  | failed e => simpa [Action.perform, Action.deeds, Progress.LeftOf] using h
  | ask r next ih =>
    rw [Action.perform, Action.deeds]
    rcases met : s.meet due r with ⟨s', x | x | _ | ⟨gate, answer⟩⟩
    · have further := ih x (h.append (.answered x (.start _))) false s'
      rwa [List.append_assoc] at further
    · exact h.append (.answered x (.start _))
    · simpa [Progress.LeftOf, Thread.LeftOf] using h
    · exact fun x => h.append (.settled (Scene.slow_of_gate met) (answer x) (.start _))

/-- Performed up to its next suspension, an action makes its first request, if that is not put off,
and goes on only with an answer that comes at once. -/
theorem Action.deeds_ask (r : Request) (next : r.Answer → Action α) (due : Bool) (s : Scene) :
    (ask r next).deeds due s = [] ∨
      (∃ x, (ask r next).deeds due s = [.asked r x] ∧ ∀ y, x = some y → ∃ s', s.meet due r = (s', .later y)) ∨
      ∃ x s', s.meet due r = (s', .now x) ∧
        (ask r next).deeds due s = .asked r (some x) :: (next x).deeds false s' := by
  rw [Action.deeds]
  rcases met : s.meet due r with ⟨s', x | x | _ | ⟨gate, answer⟩⟩
  · exact .inr (.inr ⟨x, s', rfl, rfl⟩)
  · exact .inr (.inl ⟨some x, rfl, fun y same => ⟨s', by rw [Option.some.inj same]⟩⟩)
  · exact .inl rfl
  · exact .inr (.inl ⟨none, rfl, fun y same => by cases same⟩)

theorem Action.requests_deeds {due : Bool} {s : Scene} {before after : List Deed} {r : Request}
    {x : Option r.Answer} (split : a.deeds due s = before ++ .asked r x :: after) : a.Requests before r := by
  induction a generalizing due s before with
  | done y => simp [Action.deeds] at split
  | failed e => simp [Action.deeds] at split
  | ask r' next ih =>
    rcases deeds_ask r' next due s with none | ⟨y, only, _⟩ | ⟨y, s', _, more⟩
    · simp [none] at split
    · rw [only] at split
      cases before with
      | nil =>
        cases split
        exact ⟨next, .start _⟩
      | cons d before => simp at split
    · rw [more] at split
      cases before with
      | nil =>
        cases split
        exact ⟨next, .start _⟩
      | cons d before =>
        obtain ⟨rfl, rest⟩ := List.cons.inj split
        obtain ⟨next', reached⟩ := ih y rest
        exact ⟨next', .answered y reached⟩

theorem Action.not_arrived (a : Action α) (due : Bool) (s : Scene) (id : String) : .arrived id ∉ a.deeds due s := by
  intro arrived
  induction a generalizing due s with
  | done x => cases arrived
  | failed e => cases arrived
  | ask r next ih =>
    rcases mem_deeds_ask arrived with ⟨answer, same⟩ | ⟨s', x, _, later⟩
    · cases same
    · exact ih x false s' later

theorem Thread.not_arrived (t : Thread α) (s : Scene) (id : String) : .arrived id ∉ t.deeds s := by
  cases t with
  | ready a => exact a.not_arrived false s id
  | due a => exact a.not_arrived true s id
  | waiting gate next => exact List.not_mem_nil

theorem Thread.LeftOf.perform (h : t.LeftOf a ds) (s : Scene) : (t.perform s).2.LeftOf a (ds ++ t.deeds s) := by
  cases t with
  | ready b => exact Action.Reaches.leftOf_perform h false s
  | due b => exact Action.Reaches.leftOf_perform h true s
  | waiting gate next =>
    rw [Thread.perform, Thread.deeds, List.append_nil]
    exact h

theorem Thread.LeftOf.settle (h : t.LeftOf a ds) (result : Except Fault Unit) : (t.settle result).LeftOf a ds := by
  cases t with
  | ready b => exact h
  | due b => exact h
  | waiting gate next => exact h result

/-- A deed of a thread is the next request of the action it began as. -/
theorem Thread.LeftOf.requests (h : t.LeftOf a ds) {s : Scene} {before after : List Deed} {r : Request}
    {x : Option r.Answer} (split : t.deeds s = before ++ .asked r x :: after) : a.Requests (ds ++ before) r := by
  cases t with
  | ready b => exact Action.Reaches.requests h (Action.requests_deeds split)
  | due b => exact Action.Reaches.requests h (Action.requests_deeds split)
  | waiting gate next => simp [Thread.deeds] at split

end ActionGraph
