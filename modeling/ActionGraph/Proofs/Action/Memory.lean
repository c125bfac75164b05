import ActionGraph.Proofs.Action.Course
import ActionGraph.Proofs.Action.Perform
import ActionGraph.Proofs.Cache.Writing

/-!
What the deeds of an action tell of the memory it acts on. The memory afterwards is the one before
with the writes among the deeds, and every answer was given where the deeds before it had led.
-/

namespace ActionGraph

/-- What a deed publishes. -/
def Deed.write? : Deed → Option (Endpoint × Value)
  | .asked (.publish port v) _ => some (port, v)
  | _ => none

/-- The memory after these deeds of its run. -/
def Memory.did (m : Memory) (ds : List Deed) : Memory := { m with cache := m.cache.after (ds.filterMap Deed.write?) }

@[simp] theorem Memory.did_nil (m : Memory) : m.did [] = m := rfl

theorem Memory.did_append (m : Memory) (ds more : List Deed) : m.did (ds ++ more) = (m.did ds).did more := by
  simp [did, Cache.after_append]

/-- If the deed is an answered request, it was answered where a run remembers `m`, under these
circumstances. -/
def Deed.Met (m : Memory) (staging : Staging) : Deed → Prop
  | .asked r (some x) => ∃ (s s' : Scene) (due : Bool), s.memory = m ∧ s.outside.staging = staging ∧
      (s.meet due r = (s', .now x) ∨ s.meet due r = (s', .later x))
  | _ => True

namespace Scene

variable {s s' : Scene} {due : Bool} {r : Request}

theorem call_cases {α : Type} (s : Scene) (due : Bool) (make : Outside → Outside × α) :
    s.call due make = (s, .again) ∨
      s.call due make = ({ s with outside := (make s.outside).1 }, .now (make s.outside).2) := by
  unfold call
  split
  · exact .inl rfl
  · exact .inr rfl

theorem eq_of_again (met : s.meet due r = (s', .again)) : s' = s := by
  have call : ∀ {α : Type} {f : Outside → Outside × α}, s.call due f = (s', .again) → s' = s := by
    intro α f called
    rcases s.call_cases due f with again | now
    · exact congrArg Prod.fst (called.symm.trans again)
    · cases called.symm.trans now
  cases r with
  | mount id => exact call (f := (·.mount id)) met
  | create kind params => exact call (f := (·.create kind params)) met
  | destroy handle => exact call (f := (·.destroy handle)) met
  | animate handle keyframes duration => exact absurd met s.animate_not_again
  | _ => simp [meet] at met

theorem memory_meet (s : Scene) (due : Bool) (r : Request) (x : Option r.Answer) :
    (s.meet due r).1.memory = s.memory.did [.asked r x] := by
  cases r with
  | publish port v => rfl
  | mount id => exact s.memory_call due _
  | create kind params => exact s.memory_call due _
  | destroy handle => exact s.memory_call due _
  | animate handle keyframes duration => exact s.memory_animate _ _ _
  | _ => rfl

end Scene

namespace Action

variable {α : Type}

/-- What an action remembers for its run is what its deeds tell. -/
theorem memory_perform (a : Action α) (due : Bool) (s : Scene) :
    (a.perform due s).1.memory = s.memory.did (a.deeds due s) := by
  induction a generalizing due s with
  | done x => rfl
  | failed e => rfl
  | ask r next ih =>
    have kept := fun x => s.memory_meet due r x
    rw [perform, deeds]
    rcases met : s.meet due r with ⟨s', x | x | _ | ⟨gate, answer⟩⟩
    · have first : s'.memory = s.memory.did [.asked r (some x)] := by simpa [met] using kept (some x)
      have rest := ih x false s'
      rwa [first, ← Memory.did_append] at rest
    · simpa [met] using kept (some x)
    · simp [Scene.eq_of_again met]
    · simpa [met] using kept none

theorem met_deeds (a : Action α) (due : Bool) (s : Scene) {before after : List Deed} {d : Deed}
    (split : a.deeds due s = before ++ d :: after) : d.Met (s.memory.did before) s.outside.staging := by
  induction a generalizing due s before with
  | done x => simp [deeds] at split
  | failed e => simp [deeds] at split
  | ask r next ih =>
    rcases deeds_ask r next due s with none | ⟨x, only, later⟩ | ⟨x, s', met, more⟩
    · simp [none] at split
    · rw [only] at split
      cases before with
      | cons d' before => simp at split
      | nil =>
        obtain ⟨rfl, _⟩ := List.cons.inj split
        cases x with
        | none => trivial
        | some x =>
          obtain ⟨s', met⟩ := later x rfl
          exact ⟨s, s', due, rfl, rfl, .inr met⟩
    · rw [more] at split
      cases before with
      | nil =>
        obtain ⟨rfl, _⟩ := List.cons.inj split
        exact ⟨s, s', due, rfl, rfl, .inl met⟩
      | cons d' before =>
        obtain ⟨rfl, rest⟩ := List.cons.inj split
        have memory := s.memory_meet due r (some x)
        have staging := congrArg Prod.fst (s.premises_meet due r)
        rw [met] at memory staging
        have further := ih x false s' rest
        rw [memory, ← Memory.did_append] at further
        rwa [← show s'.outside.staging = s.outside.staging from staging]

end Action

namespace Thread

variable {α : Type}

theorem memory_perform (t : Thread α) (s : Scene) : (t.perform s).1.memory = s.memory.did (t.deeds s) := by
  cases t with
  | ready a => exact a.memory_perform false s
  | due a => exact a.memory_perform true s
  | waiting gate next => rfl

theorem met_deeds (t : Thread α) (s : Scene) {before after : List Deed} {d : Deed}
    (split : t.deeds s = before ++ d :: after) : d.Met (s.memory.did before) s.outside.staging := by
  cases t with
  | ready a => exact a.met_deeds false s split
  | due a => exact a.met_deeds true s split
  | waiting gate next => simp [deeds] at split

end Thread

namespace Deed

variable {m : Memory} {staging : Staging}

theorem Met.cached {port : Endpoint} {v : Value} (h : (asked (.cached port) (some v)).Met m staging) :
    v = m.cache.value port := by
  obtain ⟨s, s', due, rfl, _, now | later⟩ := h
  · cases now
    rfl
  · cases later

theorem Met.mount (sound : staging.faults = []) {id : String} {x : Except Fault Value}
    (h : (asked (.mount id) (some x)).Met m staging) : x = .ok (.element (.mount id)) := by
  obtain ⟨s, s', due, _, rfl, met⟩ := h
  have called : s.call due (·.mount id) = (s', .now x) ∨ s.call due (·.mount id) = (s', .later x) := met
  have given : (s.outside.mount id).2 = .ok (.element (.mount id)) := by rw [s.outside.mount_sound sound]
  rcases s.call_cases due (·.mount id) with again | now
  · simp [again] at called
  · simp only [now, Prod.mk.injEq, Reply.now.injEq, reduceCtorEq, and_false, or_false] at called
    exact called.2.symm.trans given

theorem Met.create (sound : staging.faults = []) {kind : String} {params : List (String × Value)}
    {x : Except Fault Value} (h : (asked (.create kind params) (some x)).Met m staging) :
    ∃ e, x = .ok (.element e) := by
  obtain ⟨s, s', due, _, rfl, met⟩ := h
  have called : s.call due (·.create kind params) = (s', .now x) ∨
      s.call due (·.create kind params) = (s', .later x) := met
  have made : ∃ e, (s.outside.create kind params).2 = .ok (.element e) := by
    rw [s.outside.create_sound sound]
    exact ⟨_, rfl⟩
  rcases s.call_cases due (·.create kind params) with again | now
  · simp [again] at called
  · simp only [now, Prod.mk.injEq, Reply.now.injEq, reduceCtorEq, and_false, or_false] at called
    exact called.2 ▸ made

end Deed

end ActionGraph
