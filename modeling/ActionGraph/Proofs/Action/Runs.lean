import ActionGraph.Proofs.Action.Throughout
import ActionGraph.Proofs.Session.History

/-!
Actions that come to their end without waiting, and how they compose.
-/

namespace ActionGraph.Action

variable {α β : Type}

/-- Performed from `s`, the action does `ds` and ends in `s'` with `r`, all without waiting. -/
structure Runs (a : Action α) (s : Scene) (ds : List Deed) (s' : Scene) (r : Except Fault α) : Prop where
  performed : a.perform false s = (s', .ended r)
  deeds : a.deeds false s = ds

/-- Performed from `s`, the action does `ds` and is suspended in `s'`, with `t` left. -/
structure Suspends (a : Action α) (s : Scene) (ds : List Deed) (s' : Scene) (t : Thread α) : Prop where
  performed : a.perform false s = (s', .suspended t)
  deeds : a.deeds false s = ds

/-- Performed from `s`, the action does `ds` without waiting, and what is left is `b` in `s'`. -/
structure Leads (a : Action α) (s : Scene) (ds : List Deed) (s' : Scene) (b : Action α) : Prop where
  performed : a.perform false s = b.perform false s'
  deeds : a.deeds false s = ds ++ b.deeds false s'

variable {s s' s'' : Scene} {ds ds' : List Deed}

theorem runs_done (x : α) (s : Scene) : (Action.done x).Runs s [] s (.ok x) := ⟨rfl, rfl⟩

theorem Runs.ask {r : Request} {next : r.Answer → Action α} {x : r.Answer} {o : Except Fault α}
    (met : s.meet false r = (s', .now x)) (rest : (next x).Runs s' ds s'' o) :
    (Action.ask r next).Runs s (.asked r (some x) :: ds) s'' o := by
  refine ⟨?_, ?_⟩
  · rw [perform, met]
    exact rest.performed
  · rw [Action.deeds, met]
    exact congrArg _ rest.deeds

theorem suspends_later {r : Request} {next : r.Answer → Action α} {x : r.Answer}
    (met : s.meet false r = (s', .later x)) :
    (Action.ask r next).Suspends s [.asked r (some x)] s' (.ready (next x)) :=
  ⟨by rw [perform, met], by rw [Action.deeds, met]⟩

theorem suspends_atGate {r : Request} {next : r.Answer → Action α} {gate : Nat}
    {answer : Except Fault Unit → r.Answer} (met : s.meet false r = (s', .atGate gate answer)) :
    (Action.ask r next).Suspends s [.asked r none] s' (.waiting gate fun x => next (answer x)) :=
  ⟨by rw [perform, met], by rw [Action.deeds, met]⟩

theorem Leads.trans {a b c : Action α} (h : a.Leads s ds s' b) (k : b.Leads s' ds' s'' c) :
    a.Leads s (ds ++ ds') s'' c :=
  ⟨h.performed.trans k.performed, by rw [h.deeds, k.deeds, List.append_assoc]⟩

theorem Leads.runs {a b : Action α} {o : Except Fault α} (h : a.Leads s ds s' b) (k : b.Runs s' ds' s'' o) :
    a.Runs s (ds ++ ds') s'' o :=
  ⟨h.performed.trans k.performed, h.deeds.trans (congrArg _ k.deeds)⟩

theorem Leads.suspends {a b : Action α} {t : Thread α} (h : a.Leads s ds s' b) (k : b.Suspends s' ds' s'' t) :
    a.Suspends s (ds ++ ds') s'' t :=
  ⟨h.performed.trans k.performed, h.deeds.trans (congrArg _ k.deeds)⟩

theorem Runs.leads {a : Action α} {x : α} (first : a.Runs s ds s' (.ok x)) (f : α → Action β) :
    (a.andThen f).Leads s ds s' (f x) := by
  induction a generalizing s ds with
  | done y =>
    obtain ⟨performed, rfl⟩ := first
    cases performed
    exact ⟨rfl, rfl⟩
  | failed e =>
    cases first.performed
  | ask r next ih =>
    obtain ⟨performed, rfl⟩ := first
    rw [perform] at performed
    have both : ((Action.ask r next).andThen f).perform false s = (f x).perform false s' ∧
        ((Action.ask r next).andThen f).deeds false s = (Action.ask r next).deeds false s ++ (f x).deeds false s' := by
      simp only [andThen, perform, Action.deeds]
      generalize s.meet false r = y at performed
      obtain ⟨p, reply⟩ := y
      cases reply with
      | now y =>
        have rest := ih y ⟨performed, rfl⟩
        exact ⟨rest.performed, congrArg _ rest.deeds⟩
      | later y => cases performed
      | again => cases performed
      | atGate gate answer => cases performed
    exact ⟨both.1, both.2⟩

theorem Runs.andThen {a : Action α} {x : α} {f : α → Action β} {o : Except Fault β}
    (first : a.Runs s ds s' (.ok x)) (rest : (f x).Runs s' ds' s'' o) :
    (a.andThen f).Runs s (ds ++ ds') s'' o :=
  (first.leads f).runs rest

theorem Runs.attempt {a : Action α} {o : Except Fault α} (h : a.Runs s ds s' o) :
    a.attempt.Runs s ds s' (.ok o) := by
  induction a generalizing s ds with
  | done y =>
    obtain ⟨performed, rfl⟩ := h
    cases performed
    exact ⟨rfl, rfl⟩
  | failed e =>
    obtain ⟨performed, rfl⟩ := h
    cases performed
    exact ⟨rfl, rfl⟩
  | ask r next ih =>
    obtain ⟨performed, rfl⟩ := h
    rw [perform] at performed
    have both : ((Action.ask r next).attempt.perform false s = (s', .ended (.ok o))) ∧
        (Action.ask r next).attempt.deeds false s = (Action.ask r next).deeds false s := by
      simp only [Action.attempt, perform, Action.deeds]
      generalize s.meet false r = y at performed
      obtain ⟨p, reply⟩ := y
      cases reply with
      | now y =>
        have rest := ih y ⟨performed, rfl⟩
        exact ⟨rest.performed, congrArg _ rest.deeds⟩
      | later y => cases performed
      | again => cases performed
      | atGate gate answer => cases performed
    exact ⟨both.1, both.2⟩

theorem Runs.leads_tried {γ : Type} {a : Action α} {x : α} (first : a.Runs s ds s' (.ok x)) (f : α → Action β)
    (k : Except Fault β → Action γ) :
    ((a.andThen f).attempt.andThen k).Leads s ds s' ((f x).attempt.andThen k) := by
  rw [attempt_andThen, andThen_assoc]
  exact first.attempt.leads _

end ActionGraph.Action
