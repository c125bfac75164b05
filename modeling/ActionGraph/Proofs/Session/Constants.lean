import ActionGraph.Proofs.Demonstration.Environment
import ActionGraph.Proofs.Session.Mounts
import ActionGraph.Proofs.Session.Unbroken
import ActionGraph.Proofs.Session.Writes

/-!
Constants are published once. Whichever pulse asks first for the text, the number or the mount of a
node, and however pulses take turns, its port is written at most once in a run, nobody but the node
writes it, and everybody who is wired to it finds the same value at any time.
-/

namespace ActionGraph

/-- A host without a screen, as a session finds it: it answers at once, it does not fail, and nobody
listens to it yet. -/
structure Outside.Headless (o : Outside) : Prop where
  prompt : o.staging.deferred = false
  sound : o.staging.faults = []
  unheard : o.Unheard

theorem Outside.headless_fresh : fresh.Headless := ⟨rfl, rfl, unheard_fresh⟩

/-- Such a host never comes to fail. -/
theorem Outside.Headless.sound_follow {o : Outside} (headless : o.Headless) (moves : List Move) :
    ((Session.empty o).follow moves).outside.staging.faults = [] := by
  rw [Session.staging_follow]
  exact headless.sound

namespace Session

variable {s : Session} {h before after : Chronicle} {k : Nat} {env : Environment} {c port : String} {v : Value}

theorem Mounted.given (mounted : s.Mounted h) {i : Nat} {id : String}
    (asked : .asked (.mount id) (some (.ok v)) ∈ h.history.of i) : s.outside.Mounts id := by
  obtain ⟨earlier, later, own⟩ := List.append_of_mem asked
  obtain ⟨before, after, k, split, _⟩ := Chronicle.split_of own
  exact mounted k i id v (by simp [split])

/-- Only its own node publishes a constant, and only after it was supplied with it. -/
theorem Told.constant_supplied (told : s.Told h) (environment : s.environment? k = some env)
    (determines : env.Determines c port v) {x : Happening} {w : Value} (split : h = before ++ (k, x) :: after)
    (write : x.write? = some (⟨c, port⟩, w)) : ∃ i answer earlier later, x = .did i (.asked (.publish ⟨c, port⟩ w) answer) ∧
      before.history.of i = earlier ++ later ∧ env.Supplies ⟨c, port⟩ w later := by
  cases told.wrote environment determines.builtin split write with
  | fired wanted own on _ =>
    obtain ⟨node, _, _, _, events⟩ := Environment.wanted_builtin determines.builtin wanted
    obtain ⟨_, _, constant⟩ := determines.node
    rw [← own, events] at on
    cases on
    exact absurd rfl constant.not_event
  | supplied own supplies => exact ⟨_, _, _, _, rfl, own, supplies⟩
  | given _ gives =>
    obtain ⟨node, b, found, known, _, idle, _⟩ := determines.producer
    cases idle.symm.trans (gives.runs known found)

theorem Told.constant_written (told : s.Told h) (environment : s.environment? k = some env)
    (determines : env.Determines c port v) (sound : s.outside.staging.faults = []) {w : Value}
    (written : w ∈ h.written k ⟨c, port⟩) :
    w = v ∧ ∀ id, v = .element (.mount id) → ∃ i, .asked (.mount id) (some (.ok v)) ∈ h.history.of i := by
  obtain ⟨before, after, x, split, write⟩ := Chronicle.mem_written.mp written
  obtain ⟨i, answer, earlier, later, rfl, own, supplies⟩ := told.constant_supplied environment determines split write
  have mine : h.history.of i = earlier ++ later ++ .asked (.publish ⟨c, port⟩ w) answer :: after.history.of i := by
    rw [split, Chronicle.of_split, own]
  obtain ⟨same, asked⟩ := determines.supplies supplies fun d listed => told.given sound i d (by simp [mine, listed])
  exact ⟨same, fun id mount => ⟨i, by simp [mine, asked id mount]⟩⟩

/-- What a run remembers on the port of a constant, at any moment, is nothing or the constant. -/
theorem Told.constant_cached (told : s.Told h) (environment : s.environment? k = some env)
    (determines : env.Determines c port v) (sound : s.outside.staging.faults = []) (split : h = before ++ after) :
    (before.memory k).cache.value ⟨c, port⟩ = .absent ∧ before.written k ⟨c, port⟩ = [] ∨
      (before.memory k).cache.value ⟨c, port⟩ = v ∧ v ∈ h.written k ⟨c, port⟩ := by
  rw [Chronicle.value_memory]
  cases last : (before.written k ⟨c, port⟩).getLast? with
  | none => exact .inl ⟨rfl, List.getLast?_eq_none_iff.mp last⟩
  | some w =>
    have written : w ∈ h.written k ⟨c, port⟩ := by
      rw [split, Chronicle.written_append]
      exact List.mem_append_left _ (List.mem_of_getLast? last)
    obtain ⟨rfl, _⟩ := told.constant_written environment determines sound written
    exact .inr ⟨rfl, written⟩

theorem Told.constant_read (told : s.Told h) (environment : s.environment? k = some env)
    (determines : env.Determines c port v) (sound : s.outside.staging.faults = []) {input : Endpoint} {edge : Edge}
    (fed : env.graph.incoming? input = some edge) (source : edge.source = ⟨c, port⟩) {i : Nat} {d : Deed}
    (mine : (k, .did i d) ∈ h) {ds : List Deed} (part : ∀ d ∈ ds, d ∈ h.history.of i) {w : Value}
    (yields : (env.resolve input).Yields ds w) :
    w = v ∧ ∀ id, v = .element (.mount id) → ∃ j, .asked (.mount id) (some (.ok v)) ∈ h.history.of j := by
  have looked : ∀ x, .asked (.cached ⟨c, port⟩) (some x) ∈ ds →
      x.isAbsent = true ∨ x = v ∧ v ∈ h.written k ⟨c, port⟩ := by
    intro x asked
    obtain ⟨before, after, split⟩ := told.numbered.splits mine (part _ asked)
    have met : x = (before.memory k).cache.value ⟨c, port⟩ := (told.recorded.met _ _ _ _ _ split).cached
    rw [met]
    rcases told.constant_cached environment determines sound split with ⟨absent, _⟩ | known
    · exact .inl (by rw [absent]; rfl)
    · exact .inr known
  obtain ⟨rfl, found | given⟩ := determines.read fed source yields (fun d listed => told.given sound i d (part d listed))
    fun x asked => (looked x asked).imp_right And.left
  · refine ⟨rfl, ?_⟩
    rcases looked w found with absent | ⟨_, written⟩
    · exact absurd absent (Bool.eq_false_iff.mp determines.present)
    · exact (told.constant_written environment determines sound written).2
  · exact ⟨rfl, fun id same => ⟨i, part _ (given id same)⟩⟩

/-- The trigger of the demonstration is called twice, and its pulses take turns. -/
def spawning : List Move :=
  [.start (Demonstration.environment none (fun _ _ _ => .ended (.ok .null)) .standard), .cue (.call 0 0 .null),
    .cue (.call 0 0 .null)] ++ .replicate 8 (.cue .step)

end Session

end ActionGraph
