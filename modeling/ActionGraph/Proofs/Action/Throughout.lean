import ActionGraph.Session.Thread

/-!
What holds throughout an action: at every request that it can come to, whatever was answered
before, and at every outcome that it can have. What holds throughout an action holds throughout
what is left of it when it is suspended.
-/

namespace ActionGraph

namespace Action

variable {α β : Type}

/-- Every request, with what follows on it, is as `Q` says, and every outcome as `P` says. -/
def Throughout (Q : (r : Request) → (r.Answer → Action α) → Prop) (P : Except Fault α → Prop) :
    Action α → Prop
  | .done x => P (.ok x)
  | .failed f => P (.error f)
  | .ask r next => Q r next ∧ ∀ x, (next x).Throughout Q P

def Asks (R : Request → Prop) (a : Action α) : Prop := a.Throughout (fun r _ => R r) fun _ => True

def Ends (P : Except Fault α → Prop) (a : Action α) : Prop := a.Throughout (fun _ _ => True) P

theorem bind_eq (a : Action α) (f : α → Action β) : a >>= f = a.andThen f := rfl

theorem attempt_andThen (a : Action α) (f : α → Action β) :
    (a.andThen f).attempt = a.attempt.andThen fun
      | .ok x => (f x).attempt
      | .error e => .done (.error e) := by
  induction a with
  | done x => rfl
  | failed e => rfl
  | ask r next ih => exact congrArg (Action.ask r) (funext ih)

variable {Q : (r : Request) → (r.Answer → Action α) → Prop} {P : Except Fault α → Prop}
  {Q' : (r : Request) → (r.Answer → Action β) → Prop} {P' : Except Fault β → Prop}

theorem Throughout.mono {Q₂ : (r : Request) → (r.Answer → Action α) → Prop}
    {P₂ : Except Fault α → Prop} {a : Action α} (h : a.Throughout Q P)
    (ask : ∀ r next, Q r next → Q₂ r next) (outcome : ∀ r, P r → P₂ r) : a.Throughout Q₂ P₂ := by
  induction a with
  | done x => exact outcome _ h
  | failed f => exact outcome _ h
  | ask r next ih => exact ⟨ask r next h.1, fun x => ih x (h.2 x)⟩

theorem Throughout.andThen {a : Action α} {f : α → Action β} (first : a.Throughout Q P)
    (ask : ∀ r next, Q r next → Q' r fun x => (next x).andThen f)
    (done : ∀ x, P (.ok x) → (f x).Throughout Q' P') (failed : ∀ e, P (.error e) → P' (.error e)) :
    (a.andThen f).Throughout Q' P' := by
  induction a with
  | done x => exact done x first
  | failed e => exact failed e first
  | ask r next ih => exact ⟨ask r next first.1, fun x => ih x (first.2 x)⟩

theorem Throughout.attempt {Q' : (r : Request) → (r.Answer → Action (Except Fault α)) → Prop}
    {P' : Except Fault (Except Fault α) → Prop} {a : Action α} (first : a.Throughout Q P)
    (ask : ∀ r next, Q r next → Q' r fun x => (next x).attempt) (done : ∀ r, P r → P' (.ok r)) :
    a.attempt.Throughout Q' P' := by
  induction a with
  | done x => exact done _ first
  | failed e => exact done _ first
  | ask r next ih => exact ⟨ask r next first.1, fun x => ih x (first.2 x)⟩

theorem throughout_ofExcept {r : Except Fault α} (h : P r) : (ofExcept r).Throughout Q P := by
  cases r with
  | ok x => exact h
  | error e => exact h

variable {R : Request → Prop}

theorem Asks.andThen {a : Action α} {f : α → Action β} (first : a.Asks R) (rest : ∀ x, (f x).Asks R) :
    (a.andThen f).Asks R :=
  Throughout.andThen first (fun _ _ h => h) (fun x _ => rest x) fun _ _ => trivial

theorem Asks.attempt {a : Action α} (first : a.Asks R) : a.attempt.Asks R :=
  Throughout.attempt first (fun _ _ h => h) fun _ _ => trivial

theorem Asks.mono {S : Request → Prop} {a : Action α} (h : a.Asks R) (weaker : ∀ r, R r → S r) : a.Asks S :=
  Throughout.mono h (fun r _ => weaker r) fun _ h => h

theorem asks_ofExcept (r : Except Fault α) : (ofExcept r).Asks R := throughout_ofExcept trivial

/-- Whatever comes first, only the outcomes of what follows count, as long as it cannot fail. -/
theorem Ends.andThen {a : Action α} {f : α → Action β} (first : a.Ends P)
    (done : ∀ x, P (.ok x) → (f x).Ends P') (failed : ∀ e, P (.error e) → P' (.error e)) :
    (a.andThen f).Ends P' :=
  Throughout.andThen first (fun _ _ _ => trivial) done failed

end Action

namespace Thread

variable {α : Type}

/-- What is left of a suspended action is as `Q` and `P` say, whatever it is answered. -/
def Throughout (Q : (r : Request) → (r.Answer → Action α) → Prop) (P : Except Fault α → Prop) :
    Thread α → Prop
  | .ready a => a.Throughout Q P
  | .due a => a.Throughout Q P
  | .waiting _ next => ∀ x, (next x).Throughout Q P

end Thread

/-- An outcome is as `P` says, or what is left of the action is as `Q` and `P` say. -/
def Progress.Throughout {α : Type} (Q : (r : Request) → (r.Answer → Action α) → Prop)
    (P : Except Fault α → Prop) : Progress α → Prop
  | .ended r => P r
  | .suspended t => t.Throughout Q P

section

variable {α : Type} {Q : (r : Request) → (r.Answer → Action α) → Prop} {P : Except Fault α → Prop}

theorem Action.throughout_perform {a : Action α} (h : a.Throughout Q P) (due : Bool) (s : Scene) :
    (a.perform due s).2.Throughout Q P := by
  induction a generalizing due s with
  | done x => exact h
  | failed f => exact h
  | ask r next ih =>
    rw [Action.perform]
    split
    · exact ih _ (h.2 _) _ _
    · exact h.2 _
    · exact h
    · exact fun x => h.2 _

theorem Thread.throughout_perform {t : Thread α} (h : t.Throughout Q P) (s : Scene) :
    (t.perform s).2.Throughout Q P := by
  cases t with
  | ready a => exact Action.throughout_perform h _ _
  | due a => exact Action.throughout_perform h _ _
  | waiting gate next => exact h

theorem Thread.throughout_settle {t : Thread α} (h : t.Throughout Q P) (result : Except Fault Unit) :
    (t.settle result).Throughout Q P := by
  cases t with
  | ready a => exact h
  | due a => exact h
  | waiting gate next => exact h result

end

end ActionGraph
