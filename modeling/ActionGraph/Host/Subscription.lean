import ActionGraph.Keyed

/-!
Who listens to what. Handlers of one channel are kept in the order of subscription. Unsubscribing
goes by the handler, not by the subscription: it takes out the first handler equal to the given
one, and does nothing when there is none.
-/

namespace ActionGraph

structure Channel where
  selector : String
  eventClass : String
  deriving DecidableEq, Repr

structure Subscriptions (η : Type) where
  entries : List (Channel × List η)

namespace Subscriptions

variable {η : Type}

def empty : Subscriptions η := ⟨[]⟩

def handlers (s : Subscriptions η) (c : Channel) : List η := (Keyed.get? c s.entries).getD []

def subscribe (s : Subscriptions η) (c : Channel) (h : η) : Subscriptions η :=
  ⟨Keyed.put c (s.handlers c ++ [h]) s.entries⟩

def unsubscribe [DecidableEq η] (s : Subscriptions η) (c : Channel) (h : η) : Subscriptions η :=
  ⟨Keyed.put c ((s.handlers c).erase h) s.entries⟩

@[simp] theorem handlers_subscribe (s : Subscriptions η) (c c' : Channel) (h : η) :
    (s.subscribe c h).handlers c' = if c = c' then s.handlers c ++ [h] else s.handlers c' := by
  simp only [subscribe, handlers, Keyed.get?_put]
  split <;> rfl

@[simp] theorem handlers_unsubscribe [DecidableEq η] (s : Subscriptions η) (c c' : Channel) (h : η) :
    (s.unsubscribe c h).handlers c' = if c = c' then (s.handlers c).erase h else s.handlers c' := by
  simp only [unsubscribe, handlers, Keyed.get?_put]
  split <;> rfl

end Subscriptions

end ActionGraph
