import ActionGraph.Proofs.Action.Perform
import ActionGraph.Proofs.Session.History

/-!
Actions that take several turns. Between two turns of an action anything may happen to the scene, so
its end is described by what it does in each of its turns. An action that is a part of a larger one
takes the same turns there as by itself, up to the one it ends in.
-/

namespace ActionGraph

variable {α β γ : Type}

namespace Scene

def diagnose (s : Scene) (line : String) : Scene := { s with outside := s.outside.diagnose line }

def log (s : Scene) (message : String) (data : Value) : Scene := { s with outside := s.outside.log message data }

end Scene

namespace Action

/-- Whatever the action asks for, it is asked for in the same way inside of `F`. -/
def Transparent (F : Action α → Action β) : Prop :=
  ∀ (r : Request) (next : r.Answer → Action α), F (.ask r next) = .ask r fun x => F (next x)

theorem transparent_attempt : Transparent (attempt (α := α)) := fun _ _ => rfl

theorem Transparent.andThen {F : Action α → Action β} (clear : Transparent F) (f : β → Action γ) :
    Transparent fun a => (F a).andThen f := fun r next => congrArg (Action.andThen · f) (clear r next)

end Action

namespace Thread

/-- What is left of the larger action when this is left of the part. -/
def through (F : Action α → Action β) : Thread α → Thread β
  | .ready a => .ready (F a)
  | .due (.ask r next) => .due (F (.ask r next))
  | .due a => .ready (F a)
  | .waiting gate next => .waiting gate fun x => F (next x)

variable (F : Action α → Action β) (t : Thread α)

@[simp] theorem waits_through : (t.through F).waits = t.waits := by
  cases t with
  | due a => cases a <;> rfl
  | _ => rfl

@[simp] theorem waitsAt_through (gate : Nat) : (t.through F).waitsAt gate = t.waitsAt gate := by
  cases t with
  | due a => cases a <;> rfl
  | _ => rfl

@[simp] theorem settle_through (result : Except Fault Unit) :
    (t.through F).settle result = (t.settle result).through F := by
  cases t with
  | due a => cases a <;> rfl
  | _ => rfl

end Thread

section

variable {F : Action α → Action β} (clear : Action.Transparent F)

include clear

/-- What is left of the larger action after a turn: when the part has ended, what follows on that goes
on at once. -/
theorem Action.Transparent.perform (due : Bool) (s : Scene) (a : Action α) (asks : due = false ∨ ∃ r next, a = .ask r next) :
    (F a).perform due s =
      match a.perform due s with
      | (s', .suspended t) => (s', .suspended (t.through F))
      | (s', .ended o) => (F (.ofExcept o)).perform false s' := by
  induction a generalizing due s with
  | done x =>
    rcases asks with rfl | ⟨_, _, same⟩
    · rfl
    · cases same
  | failed f =>
    rcases asks with rfl | ⟨_, _, same⟩
    · rfl
    · cases same
  | ask r next ih =>
    rw [clear r next, Action.perform, Action.perform]
    rcases s.meet due r with ⟨s', x | x | _ | ⟨gate, answer⟩⟩
    · exact ih x false s' (.inl rfl)
    · rfl
    · simp only [Thread.through, clear r next]
    · rfl

theorem Action.Transparent.deeds (due : Bool) (s : Scene) (a : Action α) (asks : due = false ∨ ∃ r next, a = .ask r next) :
    (F a).deeds due s = a.deeds due s ++
      match a.perform due s with
      | (_, .suspended _) => []
      | (s', .ended o) => (F (.ofExcept o)).deeds false s' := by
  induction a generalizing due s with
  | done x =>
    rcases asks with rfl | ⟨_, _, same⟩
    · rfl
    · cases same
  | failed f =>
    rcases asks with rfl | ⟨_, _, same⟩
    · rfl
    · cases same
  | ask r next ih =>
    rw [clear r next, Action.deeds, Action.deeds, Action.perform]
    rcases s.meet due r with ⟨s', x | x | _ | ⟨gate, answer⟩⟩
    · exact congrArg _ (ih x false s' (.inl rfl))
    · rfl
    · rfl
    · rfl

theorem Thread.perform_through (t : Thread α) (s : Scene) :
    (t.through F).perform s =
      match t.perform s with
      | (s', .suspended t) => (s', .suspended (t.through F))
      | (s', .ended o) => (F (.ofExcept o)).perform false s' := by
  cases t with
  | ready a => exact clear.perform false s a (.inl rfl)
  | due a =>
    cases a with
    | ask r next => exact clear.perform true s _ (.inr ⟨r, next, rfl⟩)
    | _ => rfl
  | waiting gate next => rfl

theorem Thread.deeds_through (t : Thread α) (s : Scene) :
    (t.through F).deeds s = t.deeds s ++
      match t.perform s with
      | (_, .suspended _) => []
      | (s', .ended o) => (F (.ofExcept o)).deeds false s' := by
  cases t with
  | ready a => exact clear.deeds false s a (.inl rfl)
  | due a =>
    cases a with
    | ask r next => exact clear.deeds true s _ (.inr ⟨r, next, rfl⟩)
    | _ => rfl
  | waiting gate next => rfl

theorem Thread.through_suspended {t t' : Thread α} {s s' : Scene} (turn : t.perform s = (s', .suspended t')) :
    (t.through F).perform s = (s', .suspended (t'.through F)) ∧ (t.through F).deeds s = t.deeds s := by
  rw [t.perform_through clear, t.deeds_through clear, turn]
  exact ⟨rfl, List.append_nil _⟩

theorem Thread.through_ended {t : Thread α} {s s' : Scene} {o : Except Fault α} (turn : t.perform s = (s', .ended o)) :
    (t.through F).perform s = (F (.ofExcept o)).perform false s' ∧
      (t.through F).deeds s = t.deeds s ++ (F (.ofExcept o)).deeds false s' := by
  rw [t.perform_through clear, t.deeds_through clear, turn]
  exact ⟨rfl, rfl⟩

end

namespace Thread

/-- Begun in the scene `s`, the thread comes to its end in the scene `s'` and with this outcome. The
next turn of a suspended thread is in whatever scene others have left; one that waits has its next
turn when it has been settled. -/
inductive Finishes : Thread α → (s s' : Scene) → Except Fault α → Prop
  | ends {t : Thread α} {s s' : Scene} {o : Except Fault α} : t.perform s = (s', .ended o) → t.Finishes s s' o
  | goesOn {t t' : Thread α} {s s₁ s₂ s' : Scene} {o : Except Fault α} :
      t.perform s = (s₁, .suspended t') → t'.waits = false → t'.Finishes s₂ s' o → t.Finishes s s' o
  | settled {t t' : Thread α} {s s₁ s₂ s' : Scene} {o : Except Fault α} (result : Except Fault Unit) :
      t.perform s = (s₁, .suspended t') → t'.waits = true → (t'.settle result).Finishes s₂ s' o → t.Finishes s s' o

variable {s s₁ s' : Scene} {o : Except Fault α}

theorem Finishes.of_turn {t u : Thread α} (h : t.Finishes s s' o) (same : u.perform s₁ = t.perform s) :
    u.Finishes s₁ s' o := by
  cases h with
  | ends turn => exact .ends (same.trans turn)
  | goesOn turn free rest => exact .goesOn (same.trans turn) free rest
  | settled result turn waits rest => exact .settled result (same.trans turn) waits rest

theorem finishes_congr {t u : Thread α} (same : u.perform s₁ = t.perform s) :
    u.Finishes s₁ s' o ↔ t.Finishes s s' o :=
  ⟨fun h => h.of_turn same.symm, fun h => h.of_turn same⟩

theorem finishes_of_ended {t : Thread α} {o₁ : Except Fault α} (turn : t.perform s = (s₁, .ended o₁)) :
    t.Finishes s s' o ↔ s' = s₁ ∧ o = o₁ := by
  constructor
  · intro h
    cases h with
    | ends ended =>
      cases turn.symm.trans ended
      exact ⟨rfl, rfl⟩
    | goesOn suspended => cases turn.symm.trans suspended
    | settled _ suspended => cases turn.symm.trans suspended
  · rintro ⟨rfl, rfl⟩
    exact .ends turn

theorem finishes_ask {r : Request} {next : r.Answer → Action α} {x : r.Answer} (met : s.meet false r = (s₁, .now x)) :
    (Thread.ready (.ask r next)).Finishes s s' o ↔ (Thread.ready (next x)).Finishes s₁ s' o :=
  finishes_congr (by simp only [Thread.perform, Action.perform, met])

theorem finishes_cached (port : Endpoint) {f : Value → Action α} :
    (Thread.ready ((Action.cached port).andThen f)).Finishes s s' o ↔
      (Thread.ready (f (s.memory.cache.value port))).Finishes s s' o :=
  finishes_ask rfl

/-- The larger action ends as what follows does, begun where the part has ended and as it has ended. -/
theorem finishes_through {F : Action α → Action β} (clear : Action.Transparent F) {t : Thread α} {o : Except Fault β} :
    (t.through F).Finishes s s' o ↔
      ∃ s₁ o₁, t.Finishes s s₁ o₁ ∧ (Thread.ready (F (.ofExcept o₁))).Finishes s₁ s' o := by
  constructor
  · intro h
    generalize eq : t.through F = u at h
    -- the turns of the larger action, each of which is one of the part until that has ended
    induction h generalizing t with
    | ends turn =>
      subst eq
      rw [t.perform_through clear] at turn
      split at turn
      · cases turn
      · rename_i s₁ o₁ ended
        exact ⟨s₁, o₁, .ends ended, .ends turn⟩
    | goesOn turn free rest ih =>
      subst eq
      rw [t.perform_through clear] at turn
      split at turn
      · rename_i s₁ t' suspended
        cases turn
        obtain ⟨s₂, o₁, part, follows⟩ := ih rfl
        exact ⟨s₂, o₁, .goesOn suspended (by simpa using free) part, follows⟩
      · rename_i s₁ o₁ ended
        exact ⟨s₁, o₁, .ends ended, .goesOn turn free rest⟩
    | settled result turn waits rest ih =>
      subst eq
      rw [t.perform_through clear] at turn
      split at turn
      · rename_i s₁ t' suspended
        cases turn
        obtain ⟨s₂, o₁, part, follows⟩ := ih (settle_through F t' result).symm
        exact ⟨s₂, o₁, .settled result suspended (by simpa using waits) part, follows⟩
      · rename_i s₁ o₁ ended
        exact ⟨s₁, o₁, .ends ended, .settled result turn waits rest⟩
  · rintro ⟨s₁, o₁, part, follows⟩
    induction part with
    | ends turn => exact follows.of_turn (by rw [perform_through clear, turn]; rfl)
    | goesOn turn free rest ih => exact .goesOn (by rw [perform_through clear, turn]) (by simpa using free) (ih follows)
    | settled result turn waits rest ih =>
      have settled := ih follows
      rw [← settle_through] at settled
      exact .settled result (by rw [perform_through clear, turn]) (by simpa using waits) settled

theorem finishes_tried {a : Action α} {f : Except Fault α → Action β} {o : Except Fault β} :
    (Thread.ready (a.attempt.andThen f)).Finishes s s' o ↔
      ∃ s₁ o₁, (Thread.ready a).Finishes s s₁ o₁ ∧ (Thread.ready (f o₁)).Finishes s₁ s' o := by
  have tried : (Thread.ready (a.attempt.andThen f)).Finishes s s' o ↔
      ∃ s₁ o₁, (Thread.ready a).Finishes s s₁ o₁ ∧ (Thread.ready ((Action.ofExcept o₁).attempt.andThen f)).Finishes s₁ s' o :=
    finishes_through (t := .ready a) (Action.transparent_attempt.andThen f)
  refine tried.trans (exists_congr fun s₁ => exists_congr fun o₁ => and_congr_right fun _ => ?_)
  cases o₁ <;> rfl

theorem Finishes.outcome {t : Thread α} {Q : (r : Request) → (r.Answer → Action α) → Prop}
    {P : Except Fault α → Prop} (h : t.Finishes s s' o) (k : t.Throughout Q P) : P o := by
  induction h with
  | @ends t s _ o turn =>
    have performed := throughout_perform k s
    rwa [turn] at performed
  | @goesOn t _ s _ _ _ _ turn free rest ih =>
    have performed := throughout_perform k s
    rw [turn] at performed
    exact ih performed
  | @settled t _ s _ _ _ _ result turn waits rest ih =>
    have performed := throughout_perform k s
    rw [turn] at performed
    exact ih (throughout_settle performed result)

end Thread

end ActionGraph
