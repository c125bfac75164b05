import ActionGraph.Proofs.Cache.Writing
import ActionGraph.Proofs.Action.Memory

/-!
What happened in the runs of a session, in order: the deeds of tasks, as in a history, and between
them the events that listeners accepted. A chronicle is read off the moves of a session and adds
nothing to them.
-/

namespace ActionGraph

/-- An event that a listener accepted, and the task that it began. -/
structure Firing where
  listener : Listener
  snapshot : Snapshot
  task : Nat

inductive Happening where
  /-- A task did something. -/
  | did (task : Nat) (d : Deed)
  | fired (f : Firing)

namespace Happening

/-- What is published by it. An event is published on its trigger's port. -/
def write? : Happening → Option (Endpoint × Value)
  | .did _ d => d.write?
  | .fired f => some (f.listener.eventPort, .event f.snapshot)

def firing? : Happening → Option Firing
  | .did .. => none
  | .fired f => some f

def deed? : Happening → Option (Nat × Deed)
  | .did i d => some (i, d)
  | .fired _ => none

end Happening

/-- What happened in the runs of a session, each happening under the number of its run. -/
abbrev Chronicle := List (Nat × Happening)

namespace Chronicle

/-- What happened in one run. -/
def of (h : Chronicle) (k : Nat) : List Happening := h.filterMap fun x => if x.1 = k then some x.2 else none

/-- What a run published, in order. -/
def writes (h : Chronicle) (k : Nat) : List (Endpoint × Value) := (h.of k).filterMap Happening.write?

/-- What a run published on a port, in order. -/
def written (h : Chronicle) (k : Nat) (port : Endpoint) : List Value := Cache.valuesOn port (h.writes k)

/-- The events that listeners of a run accepted, in order. -/
def firings (h : Chronicle) (k : Nat) : List Firing := (h.of k).filterMap Happening.firing?

/-- The firings of the trigger under a node id. -/
def firingsOf (h : Chronicle) (k : Nat) (id : String) : List Firing :=
  (h.firings k).filter fun f => f.listener.origin.node = id

/-- The tasks that events have begun, in order. -/
def begun (h : Chronicle) : List Nat := h.filterMap fun x => x.2.firing?.map Firing.task

/-- What the tasks did, whichever run they belong to. -/
def history (h : Chronicle) : History := h.filterMap fun x => x.2.deed?

/-- What a run remembers after all this: what was published last on each port, and the last event. -/
def memory (h : Chronicle) (k : Nat) : Memory :=
  ⟨Cache.empty.after (h.writes k), (h.firings k).getLast?.map Firing.snapshot⟩

variable (h more : Chronicle) (k : Nat)

@[simp] theorem of_append : (h ++ more).of k = h.of k ++ more.of k := List.filterMap_append

@[simp] theorem writes_append : (h ++ more).writes k = h.writes k ++ more.writes k := by simp [writes]

@[simp] theorem written_append (port : Endpoint) :
    (h ++ more).written k port = h.written k port ++ more.written k port := by
  simp [written, Cache.valuesOn]

@[simp] theorem firings_append : (h ++ more).firings k = h.firings k ++ more.firings k := by simp [firings]

@[simp] theorem firingsOf_append (id : String) :
    (h ++ more).firingsOf k id = h.firingsOf k id ++ more.firingsOf k id := by
  simp [firingsOf]

@[simp] theorem begun_append : (h ++ more).begun = h.begun ++ more.begun := List.filterMap_append

@[simp] theorem history_append : (h ++ more).history = h.history ++ more.history := List.filterMap_append

theorem mem_of {x : Happening} : x ∈ h.of k ↔ (k, x) ∈ h := by
  simp only [of, List.mem_filterMap, Option.ite_none_right_eq_some, Option.some.injEq, Prod.exists]
  constructor
  · rintro ⟨j, y, listed, rfl, rfl⟩
    exact listed
  · intro listed
    exact ⟨k, x, listed, rfl, rfl⟩

theorem mem_firings {f : Firing} : f ∈ h.firings k ↔ (k, .fired f) ∈ h := by
  simp only [firings, List.mem_filterMap, mem_of]
  constructor
  · rintro ⟨x, listed, same⟩
    cases x with
    | did i d => cases same
    | fired g =>
      cases same
      exact listed
  · intro listed
    exact ⟨_, listed, rfl⟩

theorem value_memory (port : Endpoint) :
    (h.memory k).cache.value port = (h.written k port).getLast?.getD .absent := by
  simp [memory, written, Cache.value_after]

theorem holds_memory (port : Endpoint) : (h.memory k).cache.holds port = !(h.written k port).isEmpty := by
  simp [memory, written, Cache.holds_after]

end Chronicle

/-- The deeds of a task of a run, as happenings. -/
def Chronicle.deeds (k i : Nat) (ds : List Deed) : Chronicle := ds.map fun d => (k, .did i d)

/-- A firing, as happening of the run whose listener accepted it. -/
def Firing.happening (f : Firing) : Nat × Happening := (f.listener.run, .fired f)

namespace Chronicle

theorem deeds_of_self (k i : Nat) (ds : List Deed) : (deeds k i ds).of k = ds.map (.did i) := by
  induction ds with
  | nil => rfl
  | cons d ds ih => simp_all [deeds, of]

theorem deeds_of_other {k j : Nat} (other : k ≠ j) (i : Nat) (ds : List Deed) : (deeds k i ds).of j = [] := by
  simp [deeds, of, other]

@[simp] theorem history_deeds (k i : Nat) (ds : List Deed) : (deeds k i ds).history = ds.map fun d => (i, d) := by
  induction ds with
  | nil => rfl
  | cons d ds ih => simp_all [deeds, history, Happening.deed?]

@[simp] theorem begun_deeds (k i : Nat) (ds : List Deed) : (deeds k i ds).begun = [] := by
  simp [deeds, begun, Happening.firing?]

@[simp] theorem begun_firing (f : Firing) : begun [f.happening] = [f.task] := rfl

@[simp] theorem history_firing (h : Chronicle) (f : Firing) : (h ++ [f.happening]).history = h.history := by
  simp [history, Firing.happening, Happening.deed?]

theorem of_turn_self (h : Chronicle) (k i : Nat) (ds : List Deed) :
    (h ++ deeds k i ds).history.of i = h.history.of i ++ ds := by
  rw [history_append, history_deeds, History.of_append, History.of_map_self]

theorem of_turn_other (h : Chronicle) {i j : Nat} (other : i ≠ j) (k : Nat) (ds : List Deed) :
    (h ++ deeds k i ds).history.of j = h.history.of j := by
  rw [history_append, history_deeds, History.of_append, History.of_map_other other, List.append_nil]

@[simp] theorem writes_deeds (k i : Nat) (ds : List Deed) : (deeds k i ds).writes k = ds.filterMap Deed.write? := by
  rw [writes, deeds_of_self, List.filterMap_map]
  rfl

@[simp] theorem firings_deeds (k i j : Nat) (ds : List Deed) : (deeds k i ds).firings j = [] := by
  by_cases own : k = j
  · subst own
    simp [firings, deeds_of_self, Happening.firing?]
  · simp [firings, deeds_of_other own]

theorem memory_deeds (h : Chronicle) (k i : Nat) (ds : List Deed) :
    (h ++ deeds k i ds).memory k = (h.memory k).did ds := by
  simp [memory, Memory.did, Cache.after_append]

theorem memory_other (h : Chronicle) {more : Chronicle} {k : Nat} (none : more.of k = []) :
    (h ++ more).memory k = h.memory k := by
  simp [memory, writes, firings, none]

end Chronicle

namespace Session

/-- The firing that a call of a listener comes to, if the listener accepts it. -/
def firing? (s : Session) (l : Listener) (payload : Value) : Option Firing :=
  match (s.notify l payload).2, (s.snapshot l.eventClass payload).2 with
  | .ok true, .ok e => some ⟨l, e, s.tasks.length⟩
  | _, _ => none

/-- The firings that calls of listeners come to, until one of them fails. -/
def firings (s : Session) (payload : Value) : List Listener → List Firing
  | [] => []
  | l :: rest =>
    (s.firing? l payload).toList ++
      match s.notify l payload with
      | (_, .error _) => []
      | (s, .ok _) => s.firings payload rest

def firingsOf (s : Session) (m : Move) : List Firing :=
  if s.running.isSome then []
  else
    match m with
    | .cue (.happen c x y) => s.firings (Host.payload c.eventClass x y) (s.outside.host.listeners c)
    | .cue (.call run place payload) => (s.handler? run place).toList.flatMap fun l => (s.firing? l payload).toList
    | _ => []

/-- What the task that has the turn does next. -/
def turnOf (s : Session) : Move → Chronicle
  | .cue .step =>
    match s.running with
    | some i =>
      match s.tasks[i]? with
      | some t => Chronicle.deeds t.run i (s.deeds i)
      | none => []
    | none => []
  | _ => []

def happenings (s : Session) (m : Move) : Chronicle := (s.firingsOf m).map Firing.happening ++ s.turnOf m

def chronicle (s : Session) : List Move → Chronicle
  | [] => []
  | m :: moves => s.happenings m ++ (s.move m).chronicle moves

/-- What every move keeps, together with what happens in it, holds after all of them. -/
theorem chronicle_keeps {P : Session → Chronicle → Prop}
    (keeps : ∀ s h m, P s h → P (s.move m) (h ++ s.happenings m)) {s : Session} {h : Chronicle} (start : P s h)
    (moves : List Move) : P (s.follow moves) (h ++ s.chronicle moves) := by
  induction moves generalizing s h with
  | nil => simpa [chronicle, follow] using start
  | cons m moves ih =>
    have further := ih (keeps s h m start)
    rwa [List.append_assoc] at further

theorem deedsOf_of_turn (s : Session) (m : Move) : s.deedsOf m = (s.turnOf m).history := by
  unfold turnOf
  split
  · cases turned : s.running with
    | none => simp [deedsOf, turned, Chronicle.history]
    | some i =>
      cases task : s.tasks[i]? with
      | none => simp [deedsOf, turned, deeds, task, Chronicle.history]
      | some t => simp [deedsOf, turned, task]
  · rename_i other
    exact deedsOf_other s fun steps => other steps

theorem history_happenings (s : Session) (m : Move) : (s.happenings m).history = s.deedsOf m := by
  have none : ∀ fs : List Firing, Chronicle.history (fs.map Firing.happening) = [] := by
    intro fs
    simp [Chronicle.history, Firing.happening, Happening.deed?]
  rw [happenings, Chronicle.history_append, none, deedsOf_of_turn]
  rfl

theorem history_chronicle (s : Session) (moves : List Move) : (s.chronicle moves).history = s.history moves := by
  induction moves generalizing s with
  | nil => rfl
  | cons m moves ih => rw [chronicle, history, Chronicle.history_append, history_happenings, ih]

end Session

end ActionGraph
