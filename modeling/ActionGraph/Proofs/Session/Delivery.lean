import Mathlib.Data.List.Forall2
import Mathlib.Data.List.Nodup
import ActionGraph.Proofs.Session.Constants
import ActionGraph.Proofs.Session.Enlistment
import ActionGraph.Proofs.Session.Landing

/-!
From events to pulses. An event begins one pulse for each listener it reaches, nothing else begins
any, each of them is in flight until its end is taken note of, and who waits for a run waits for all
of them, however many are begun while it waits.
-/

namespace ActionGraph

namespace Session

/-- The task is the pulse that a call of the listener begins. -/
def Starts (s : Session) (l : Listener) (t : Task) : Prop :=
  ∃ env, s.environment? l.run = some env ∧ t = ⟨l.run, true, false, .pulse (.leaving env l.origin)⟩

/-- What calling listeners one after the other comes to: each of them begins its pulse, up to the
first whose snapshot cannot be made. -/
structure Delivers (s : Session) (payload : Value) (ls heard rest : List Listener) : Prop where
  all : ls = heard ++ rest
  begun : ∃ begun, (s.notifyAll payload ls).1.tasks = s.tasks ++ begun ∧ List.Forall₂ s.Starts heard begun
  result : rest = [] ∧ (s.notifyAll payload ls).2 = .ok () ∨
    ∃ l more f, rest = l :: more ∧ (s.notifyAll payload ls).2 = .error f ∧
      ((s.notifyAll payload heard).1.snapshot l.eventClass payload).2 = .error f

variable {s s' : Session}

def Armed (s : Session) (l : Listener) : Prop := ∃ r, s.runs[l.run]? = some r ∧ r.armed = true

theorem Armed.of_fixed {l : Listener} (h : s.Armed l) (same : s'.runs.map GraphRun.fixed = s.runs.map GraphRun.fixed) :
    s'.Armed l := by
  obtain ⟨r, run, armed⟩ := h
  have found : (s'.runs.map GraphRun.fixed)[l.run]? = some r.fixed := by rw [same, List.getElem?_map, run]; rfl
  rw [List.getElem?_map] at found
  obtain ⟨q, there, eq⟩ := Option.map_eq_some_iff.mp found
  exact ⟨q, there, (congrArg GraphRun.armed eq).trans armed⟩

theorem Starts.of_fixed {l : Listener} {t : Task} (h : s'.Starts l t)
    (same : s'.runs.map GraphRun.fixed = s.runs.map GraphRun.fixed) : s.Starts l t := by
  obtain ⟨env, environment, begun⟩ := h
  exact ⟨env, environment?_of_fixed same _ ▸ environment, begun⟩

theorem notify_armed {l : Listener} {r : GraphRun} (run : s.runs[l.run]? = some r) (ready : r.armed = true)
    (payload : Value) : s.notify l payload = match s.snapshot l.eventClass payload with
      | (s, .error f) => (s, .error f)
      | (s, .ok e) => (s.beginPulse r l e, .ok true) := by
  rw [notify, run]
  exact if_pos ready

theorem Delivers.cons {l : Listener} {payload : Value} {ls heard rest : List Listener} {t : Task}
    (called : s.notify l payload = (s', .ok true)) (tasks : s'.tasks = s.tasks ++ [t]) (starts : s.Starts l t)
    (same : s'.runs.map GraphRun.fixed = s.runs.map GraphRun.fixed) (h : s'.Delivers payload ls heard rest) :
    s.Delivers payload (l :: ls) (l :: heard) rest where
  all := congrArg (l :: ·) h.all
  begun := by
    obtain ⟨begun, more, pulses⟩ := h.begun
    refine ⟨t :: begun, ?_, .cons starts (pulses.imp fun _ _ begins => begins.of_fixed same)⟩
    rw [notifyAll, called]
    simpa [tasks] using more
  result := by
    rw [notifyAll, called, notifyAll, called]
    exact h.result

theorem delivers (payload : Value) {ls : List Listener} (armed : ∀ l ∈ ls, s.Armed l) :
    ∃ heard rest, s.Delivers payload ls heard rest := by
  induction ls generalizing s with
  | nil => exact ⟨[], [], rfl, ⟨[], by simp [notifyAll], .nil⟩, .inl ⟨rfl, rfl⟩⟩
  | cons l ls ih =>
    obtain ⟨r, run, ready⟩ := armed l List.mem_cons_self
    have called := notify_armed run ready payload
    cases made : (s.snapshot l.eventClass payload).2 with
    | error f =>
      have refused : s.snapshot l.eventClass payload = ((s.snapshot l.eventClass payload).1, .error f) :=
        Prod.ext rfl made
      rw [refused] at called
      refine ⟨[], l :: ls, rfl, ⟨[], ?_, .nil⟩, .inr ⟨l, ls, f, rfl, ?_, made⟩⟩
      · rw [notifyAll, called]
        simp [snapshot_fst]
      · rw [notifyAll, called]
    | ok e =>
      have accepted : s.snapshot l.eventClass payload = ((s.snapshot l.eventClass payload).1, .ok e) :=
        Prod.ext rfl made
      rw [accepted] at called
      have environment : s.environment? l.run = some r.environment := by rw [environment?, run]; rfl
      have same := (grows_notify (s := s) l payload).runs
      rw [called] at same
      obtain ⟨heard, rest, delivered⟩ :=
        ih (s := (s.snapshot l.eventClass payload).1.beginPulse r l e) fun k listed =>
          (armed k (List.mem_cons_of_mem l listed)).of_fixed same
      exact ⟨l :: heard, rest, delivered.cons called rfl ⟨_, environment, rfl⟩ same⟩

/-- Waiting for the pulses of a run, whatever happens in the meantime: as long as some are in flight
it waits until these have ended, and looks again. -/
inductive Waits (k : Nat) : Session → List Move → Session → Prop
  | idle {s : Session} : s.isIdle k = true → Waits k s [] s
  | round {s s' : Session} {moves more : List Move} : s.isIdle k = false →
      (∀ r, s.runs[k]? = some r → ∀ i ∈ r.inFlight, ((s.follow moves).tasks[i]?).any (·.work.spent) = true) →
      Waits k (s.follow moves) more s' → Waits k s (moves ++ more) s'

theorem Waits.follow {k : Nat} {moves : List Move} (h : Waits k s moves s') :
    s' = s.follow moves ∧ s'.isIdle k = true := by
  induction h with
  | idle idle => exact ⟨rfl, idle⟩
  | round _ _ _ ih => exact ⟨by rw [ih.1, follow_append], ih.2⟩

theorem drain_follow (s : Session) (fuel : Nat) : s.drain fuel = s.follow (List.replicate fuel (.cue .step)) := by
  induction fuel generalizing s with
  | zero => rfl
  | succ fuel ih =>
    rw [drain, List.replicate_succ, Session.follow]
    have moved : s.move (.cue .step) = s.step?.getD s := rfl
    rw [moved]
    cases stepped : s.step? with
    | some next => exact ih next
    | none =>
      -- A session that cannot go on stays as it is.
      have stuck : ∀ n, s.follow (List.replicate n (.cue .step)) = s := by
        intro n
        induction n with
        | zero => rfl
        | succ n again => rw [List.replicate_succ, Session.follow, moved, stepped]; exact again
      exact (stuck fuel).symm

theorem Landing.over {noted : List Nat} (h : s.Landing noted) {k : Nat} (idle : s.isIdle k = true) :
    (∀ r, s.runs[k]? = some r → r.inFlight = []) ∧
      ∀ i ∈ s.started k, i ∈ noted ∧ (s.tasks[i]?).any (·.work.spent) = true := by
  have empty : ∀ r, s.runs[k]? = some r → r.inFlight = [] := by
    intro r run
    rw [isIdle, run] at idle
    exact List.isEmpty_iff.mp idle
  refine ⟨empty, fun i listed => ?_⟩
  obtain ⟨t, there, own⟩ := mem_started.mp listed
  have bound := (h.tasks t (List.mem_of_getElem? there)).2
  rw [own] at bound
  have run : s.runs[k]? = some s.runs[k] := List.getElem?_eq_getElem bound
  have none := h.inFlight k [] (by rw [List.getElem?_map, run, Option.map_some, empty _ run])
  have known : i ∈ noted := by
    have all := List.filter_eq_nil_iff.mp none.symm i listed
    simpa using all
  have one := h.ends i
  have positive := List.count_pos_iff.mpr known
  refine ⟨known, ?_⟩
  split at one
  · assumption
  · omega

/-- Nothing but an event, or a direct call of a handler, begins a pulse. -/
theorem tasks_move {m : Move} (happens : ∀ c x y, m ≠ .cue (.happen c x y))
    (calls : ∀ run place payload, m ≠ .cue (.call run place payload)) :
    (s.move m).tasks.length = s.tasks.length := by
  refine move_keeps (P := fun p => p.tasks.length = s.tasks.length) rfl ?_ m ?_
  · refine step_keeps (P := fun p => p.tasks.length = s.tasks.length) s rfl (fun i _ => ?_) (fun _ _ _ _ => rfl)
      fun i rest _ _ => ?_
    · rw [tasks_advance, List.length_modify]
    · rw [tasks_complete]
  · cases m with
    | cue c =>
      cases c with
      | step => rfl
      | prefer place => exact (quiet_prefer place).tasks
      | addTarget selector => rfl
      | happen channel x y => exact absurd rfl (happens channel x y)
      | call run place payload => exact absurd rfl (calls run place payload)
      | settle gate result => exact (quiet_settle gate result).tasks
      | stop run => exact (quiet_stop run).tasks
    | start env => exact congrArg List.length (tasks_start env)
    | cancel run => exact length_cancel run

end Session

end ActionGraph
