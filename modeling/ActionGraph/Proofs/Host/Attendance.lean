import Mathlib.Data.List.Induction
import ActionGraph.Host.Basic

/-!
Who is called when an event fires. A host is told to end a subscription by naming its handler, so it ends
the first one in force of that handler, whoever asked. The history of the calls shows where this differs
from ending a subscription by its own callable, and that it does not differ anywhere else.
-/

namespace ActionGraph

namespace Host

variable {η : Type}

/-- What is asked of a host as a source of events. Each subscription gives a callable of its own to end
it, and goes by its number. What handlers call while an event fires counts as called after it: they do not
change who is called. -/
inductive Call (η : Type) where
  | addTarget (selector : String)
  | subscribe (c : Channel) (handler : η)
  | unsubscribe (n : Nat)
  | fire (c : Channel) (x y : Value)

/-- A subscription, whether its own callable was ever called, and whether it was ended, by that or by
another. -/
structure Ticket (η : Type) where
  channel : Channel
  handler : η
  called : Bool
  ended : Bool

/-- A host with the history of its subscriptions and with who was called with what. -/
structure Attendance (η : Type) where
  host : Host η
  tickets : List (Ticket η)
  heard : List (η × Value)

/-- The handlers of the subscriptions to a channel that are not over, in the order of subscription. -/
def remaining (past : Ticket η → Bool) (c : Channel) (tickets : List (Ticket η)) : List η :=
  (tickets.filter fun t => t.channel = c ∧ past t = false).map Ticket.handler

def endFirst [DecidableEq η] (c : Channel) (handler : η) : List (Ticket η) → List (Ticket η)
  | [] => []
  | t :: tickets =>
    if t.channel = c ∧ t.ended = false ∧ t.handler = handler then { t with ended := true } :: tickets
    else t :: endFirst c handler tickets

namespace Attendance

/-- The handlers of the subscriptions in force. -/
def inForce (s : Attendance η) (c : Channel) : List η := remaining Ticket.ended c s.tickets

/-- The handlers of the subscriptions whose own callables were never called. -/
def entitled (s : Attendance η) (c : Channel) : List η := remaining Ticket.called c s.tickets

def reached (s : Attendance η) (c : Channel) (handlers : List η) : List η :=
  if c.selector ∈ s.host.targets then handlers else []

def step [DecidableEq η] (s : Attendance η) : Call η → Attendance η
  | .addTarget selector => { s with host := s.host.addTarget selector }
  | .subscribe c handler =>
    { s with host := s.host.subscribe c handler, tickets := s.tickets ++ [⟨c, handler, false, false⟩] }
  | .unsubscribe n =>
    match s.tickets[n]? with
    | none => s
    | some t => { s with
        host := s.host.unsubscribe t.channel t.handler
        tickets := endFirst t.channel t.handler (s.tickets.set n { t with called := true }) }
  | .fire c x y =>
    { s with heard := s.heard ++ (s.host.listeners c).map fun handler => (handler, payload c.eventClass x y) }

def after [DecidableEq η] (timeScale : Value) (calls : List (Call η)) : Attendance η :=
  calls.foldl step ⟨.empty timeScale, [], []⟩

/-- A callable that ends just its own subscription. If it was called before, then no subscription to its
channel by its handler is left. If not, then after any such subscription before its own there are none by
other handlers before its own. -/
def Apt (s : Attendance η) (n : Nat) : Prop := ∀ t, s.tickets[n]? = some t →
  if t.called then t.handler ∉ s.entitled t.channel
  else (remaining Ticket.called t.channel (s.tickets.take n)).Pairwise fun a b => a = t.handler → b = t.handler

end Attendance

variable {past : Ticket η → Bool} {c c' : Channel} {handler : η} {t : Ticket η} {tickets earlier later : List (Ticket η)}

@[simp] theorem remaining_nil : remaining past c [] = [] := rfl

theorem remaining_cons : remaining past c (t :: tickets) =
    if t.channel = c ∧ past t = false then t.handler :: remaining past c tickets else remaining past c tickets := by
  by_cases left : t.channel = c ∧ past t = false <;> simp [remaining, left]

@[simp] theorem remaining_append :
    remaining past c (earlier ++ later) = remaining past c earlier ++ remaining past c later := by
  simp [remaining]

namespace Attendance

theorem around {s : Attendance η} {n : Nat} (found : s.tickets[n]? = some t) : ∃ earlier later,
    s.tickets = earlier ++ t :: later ∧ s.tickets.take n = earlier ∧
    s.tickets.set n { t with called := true } = earlier ++ { t with called := true } :: later := by
  obtain ⟨within, is⟩ := List.getElem?_eq_some_iff.mp found
  obtain ⟨earlier, later, split, length, marked⟩ : ∃ earlier later, s.tickets = earlier ++ s.tickets[n] :: later ∧
      earlier.length = n ∧ s.tickets.set n { t with called := true } = earlier ++ { t with called := true } :: later :=
    List.exists_of_set within
  rw [is] at split
  refine ⟨earlier, later, split, ?_, marked⟩
  rw [split]
  exact List.take_left' length

end Attendance

section

variable [DecidableEq η]

theorem remaining_endFirst : remaining Ticket.ended c' (endFirst c handler tickets) =
    if c = c' then (remaining Ticket.ended c' tickets).erase handler else remaining Ticket.ended c' tickets := by
  induction tickets with
  | nil => simp [endFirst]
  | cons t tickets ih =>
    unfold endFirst
    split
    · rename_i first
      obtain ⟨rfl, live, rfl⟩ := first
      by_cases same : t.channel = c' <;> simp [remaining_cons, live, same]
    · rename_i other
      by_cases same : c = c'
      · subst same
        by_cases left : t.channel = c ∧ t.ended = false
        · have stays : ¬ t.handler = handler := fun is => other ⟨left.1, left.2, is⟩
          simp [remaining_cons, left, ih, stays]
        · simp [remaining_cons, left, ih]
      · simp [remaining_cons, same, ih]

theorem called_endFirst : remaining Ticket.called c' (endFirst c handler tickets) = remaining Ticket.called c' tickets := by
  induction tickets with
  | nil => rfl
  | cons t tickets ih =>
    unfold endFirst
    split
    · simp [remaining_cons]
    · simp [remaining_cons, ih]

/-- Taking out the first of its kind is taking out this one if and only if all between them are of its
kind. -/
theorem erase_append_cons {a : η} {before behind : List η} :
    (before ++ a :: behind).erase a = before ++ behind ↔ before.Pairwise fun b c => b = a → c = a := by
  have shifted : ∀ between : List η, between ++ a :: behind = a :: (between ++ behind) ↔ ∀ c ∈ between, c = a := by
    intro between
    induction between with
    | nil => simp
    | cons b between ih =>
      simp only [List.cons_append, List.cons.injEq, List.forall_mem_cons]
      constructor
      · rintro ⟨rfl, rest⟩
        exact ⟨rfl, ih.mp rest⟩
      · rintro ⟨rfl, rest⟩
        exact ⟨rfl, ih.mpr rest⟩
  induction before with
  | nil => simp
  | cons b before ih =>
    rw [List.pairwise_cons, List.cons_append, List.cons_append]
    by_cases same : b = a
    · -- The first occurrence is removed, so all behind it move up by one place.
      subst same
      have rest : (∀ c ∈ before, b = b → c = b) ↔ ∀ c ∈ before, c = b := by simp
      rw [List.erase_cons_head, shifted, rest]
      constructor
      · intro all
        exact ⟨all, List.pairwise_of_forall_mem_list fun _ _ c there _ => all c there⟩
      · exact And.left
    · rw [List.erase_cons_tail (by simpa using same)]
      simp [same, ih]

namespace Attendance

variable {s : Attendance η} {n : Nat}

theorem inForce_unsubscribe (found : s.tickets[n]? = some t) (c : Channel) : (s.step (.unsubscribe n)).inForce c =
    if t.channel = c then (s.inForce c).erase t.handler else s.inForce c := by
  obtain ⟨earlier, later, split, -, marked⟩ := around found
  simp only [step, found, inForce, remaining_endFirst]
  rw [marked, split]
  simp [remaining_cons]

theorem entitled_unsubscribe_of (found : s.tickets[n]? = some t) (spared : t.channel = c → t.called = true) :
    (s.step (.unsubscribe n)).entitled c = s.entitled c := by
  obtain ⟨earlier, later, split, -, marked⟩ := around found
  simp only [step, found, entitled, called_endFirst]
  rw [marked, split, remaining_append, remaining_cons, remaining_append, remaining_cons]
  by_cases here : t.channel = c
  · simp [spared here]
  · simp [here]

theorem entitled_unsubscribe (found : s.tickets[n]? = some t) (fresh : t.called = false) : ∃ behind,
    s.entitled t.channel = remaining Ticket.called t.channel (s.tickets.take n) ++ t.handler :: behind ∧
    (s.step (.unsubscribe n)).entitled t.channel = remaining Ticket.called t.channel (s.tickets.take n) ++ behind := by
  obtain ⟨earlier, later, split, front, marked⟩ := around found
  refine ⟨remaining Ticket.called t.channel later, ?_, ?_⟩
  · rw [entitled, front, split]
    simp [remaining_cons, fresh]
  · simp only [step, found, entitled, called_endFirst]
    rw [marked, front]
    simp [remaining_cons]

/-- What the host knows is what the history shows to be in force. -/
def Kept (s : Attendance η) : Prop := ∀ c, s.host.subscriptions.handlers c = s.inForce c

theorem Kept.step (kept : s.Kept) (call : Call η) : (s.step call).Kept := by
  intro c
  cases call with
  | addTarget selector =>
    have same : (s.host.addTarget selector).subscriptions = s.host.subscriptions := by
      unfold addTarget
      split <;> rfl
    simpa [Attendance.step, same, inForce] using kept c
  | subscribe c' handler =>
    by_cases here : c' = c
    · subst here
      simp [Attendance.step, inForce, subscribe, remaining_cons, kept c']
    · simp [Attendance.step, inForce, subscribe, remaining_cons, kept c, here]
  | unsubscribe n =>
    cases found : s.tickets[n]? with
    | none => simpa [Attendance.step, found, inForce] using kept c
    | some t =>
      rw [inForce_unsubscribe found, ← kept c]
      simp only [Attendance.step, found, unsubscribe, Subscriptions.handlers_unsubscribe]
      by_cases here : t.channel = c
      · subst here
        rfl
      · rw [if_neg here, if_neg here]
  | fire c' x y => exact kept c

/-- The subscriptions in force are those whose own callables were never called. -/
def Fair (s : Attendance η) : Prop := ∀ c, s.inForce c = s.entitled c

theorem fair_unsubscribe (fair : s.Fair) : (s.step (.unsubscribe n)).Fair ↔ s.Apt n := by
  cases found : s.tickets[n]? with
  | none =>
    have same : s.step (.unsubscribe n) = s := by simp [step, found]
    simp [same, fair, Apt, found]
  | some t =>
    have elsewhere : ∀ c, t.channel ≠ c → (s.step (.unsubscribe n)).inForce c = (s.step (.unsubscribe n)).entitled c := by
      intro c other
      rw [inForce_unsubscribe found, if_neg other, entitled_unsubscribe_of found fun here => absurd here other, fair]
    have here : (s.step (.unsubscribe n)).Fair ↔
        (s.entitled t.channel).erase t.handler = (s.step (.unsubscribe n)).entitled t.channel := by
      have erased := inForce_unsubscribe found t.channel
      rw [if_pos rfl, fair] at erased
      rw [← erased]
      constructor
      · intro fair'
        exact fair' t.channel
      · intro same c
        by_cases is : t.channel = c
        · exact is ▸ same
        · exact elsewhere c is
    rw [here]
    simp only [Apt, found, Option.some.injEq, forall_eq']
    split
    · rename_i again
      rw [entitled_unsubscribe_of found fun _ => again, List.erase_eq_self_iff]
    · rename_i fresh
      obtain ⟨behind, before, then_⟩ := entitled_unsubscribe found (by simpa using fresh)
      rw [before, then_, erase_append_cons]

theorem Fair.step (fair : s.Fair) {call : Call η} (other : ∀ n, call ≠ .unsubscribe n) : (s.step call).Fair := by
  intro c
  cases call with
  | addTarget selector => exact fair c
  | subscribe c' handler =>
    have before : remaining Ticket.ended c s.tickets = remaining Ticket.called c s.tickets := fair c
    simp [Attendance.step, inForce, entitled, remaining_cons, before]
  | unsubscribe n => exact absurd rfl (other n)
  | fire c' x y => exact fair c

theorem kept_after (timeScale : Value) (calls : List (Call η)) : (after timeScale calls).Kept := by
  have all : ∀ s : Attendance η, s.Kept → (calls.foldl Attendance.step s).Kept := by
    induction calls with
    | nil => exact fun s kept => kept
    | cons call calls ih => exact fun s kept => ih _ (kept.step call)
  exact all _ fun c => rfl

theorem fair_run (fair : s.Fair) (calls : List (Call η)) :
    (∀ earlier later, calls = earlier ++ later → (earlier.foldl step s).Fair) ↔
      ∀ earlier n later, calls = earlier ++ .unsubscribe n :: later → (earlier.foldl step s).Apt n := by
  constructor
  · intro all earlier n later split
    have before := all earlier _ split
    have behind := all (earlier ++ [.unsubscribe n]) later (by simpa using split)
    rw [List.foldl_append] at behind
    exact (fair_unsubscribe before).mp behind
  · intro apt earlier
    -- The induction adds the calls at the end, as whether one is apt depends on those before it.
    induction earlier using List.reverseRecOn with
    | nil => exact fun _ _ => fair
    | append_singleton earlier call ih =>
      intro later split
      have before := ih (call :: later) (by simpa using split)
      rw [List.foldl_append]
      by_cases is : ∃ n, call = .unsubscribe n
      · obtain ⟨n, rfl⟩ := is
        exact (fair_unsubscribe before).mpr (apt earlier n later (by simpa using split))
      · exact before.step fun n same => is ⟨n, same⟩

/-- An event reaches, in the order of subscription and once each, the handlers of the subscriptions in
force, if its target is there. These are those whose own callables were never called, at every point of a
history if and only if every callable called in it was apt. -/
theorem listeners_after (timeScale : Value) (calls : List (Call η)) :
    (∀ s, s = after timeScale calls → ∀ c, s.host.listeners c = s.reached c (s.inForce c) ∧
      ∀ x y, (s.step (.fire c x y)).heard =
        s.heard ++ (s.reached c (s.inForce c)).map fun handler => (handler, payload c.eventClass x y)) ∧
    ((∀ earlier later, calls = earlier ++ later → (after timeScale earlier).Fair) ↔
      ∀ earlier n later, calls = earlier ++ .unsubscribe n :: later → (after timeScale earlier).Apt n) := by
  refine ⟨?_, fair_run (fun c => rfl) calls⟩
  rintro s rfl c
  have listening : (after timeScale calls).host.listeners c =
      (after timeScale calls).reached c ((after timeScale calls).inForce c) := by
    rw [listeners, reached, kept_after timeScale calls c]
  refine ⟨listening, fun x y => ?_⟩
  rw [← listening]
  rfl

end Attendance

end

def clicks : Channel := ⟨"#t", "click"⟩

def parting : List (Call String) :=
  [.addTarget "#t", .subscribe clicks "a", .subscribe clicks "b", .unsubscribe 0, .unsubscribe 0]

theorem listeners_after_parting : (Attendance.after (.int 0) parting).Fair ∧
    ((Attendance.after (.int 0) parting).step (.fire clicks (.int 3) (.int 4))).heard =
      [("b", payload "click" (.int 3) (.int 4))] := by
  obtain ⟨reaches, fair⟩ := Attendance.listeners_after (.int 0) parting
  refine ⟨fair.mpr ?_ parting [] (List.append_nil _).symm, ?_⟩
  · intro earlier n later split
    unfold parting at split
    match earlier, split with
    | [_, _, _], split =>
      cases split
      intro t found
      cases found
      exact List.Pairwise.nil
    | [_, _, _, _], split =>
      cases split
      intro t found
      cases found
      decide
    | _ :: _ :: _ :: _ :: _ :: _, split => simp at split
  · rw [((reaches _ rfl) clicks).2]
    rfl

/-- The second call of one callable ends the other subscription of the same handler. -/
theorem listeners_robbed : ¬ ∀ (timeScale : Value) (calls : List (Call String)) (c : Channel),
    (Attendance.after timeScale calls).host.listeners c =
      (Attendance.after timeScale calls).reached c ((Attendance.after timeScale calls).entitled c) := by
  intro independent
  exact absurd (independent (.int 0)
    [.addTarget "#t", .subscribe clicks "a", .subscribe clicks "a", .unsubscribe 0, .unsubscribe 0] clicks) (by decide)

end Host

end ActionGraph
