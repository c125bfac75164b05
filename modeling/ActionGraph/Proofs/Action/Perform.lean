import ActionGraph.Proofs.Action.Throughout
import ActionGraph.Proofs.Session.Frame

/-!
What performing an action does to its scene, as far as its requests tell: without a pause or an
animation nobody else goes on in between, and only publishing changes published values.
-/

namespace ActionGraph

/-- Met at once by a host that does not defer its calls. -/
def Request.Prompt : Request → Prop
  | .animate .. | .pause => False
  | _ => True

/-- Publishes nothing on a port. -/
def Request.Spares (port : Endpoint) : Request → Prop
  | .publish other _ => other ≠ port
  | _ => True

namespace Scene

variable (s : Scene)

theorem call_prompt {α : Type} (prompt : s.outside.staging.deferred = false) (due : Bool)
    (make : Outside → Outside × α) :
    s.call due make = ({ s with outside := (make s.outside).1 }, .now (make s.outside).2) := by
  unfold call
  rw [prompt]
  rfl

theorem meet_prompt (prompt : s.outside.staging.deferred = false) (due : Bool) {r : Request} (h : r.Prompt) :
    ∃ s' x, s.meet due r = (s', .now x) := by
  cases r with
  | mount id => exact ⟨_, _, s.call_prompt prompt due (·.mount id)⟩
  | create kind params => exact ⟨_, _, s.call_prompt prompt due (·.create kind params)⟩
  | destroy handle => exact ⟨_, _, s.call_prompt prompt due (·.destroy handle)⟩
  | animate handle keyframes duration => exact h.elim
  | pause => exact h.elim
  | _ => exact ⟨_, _, rfl⟩

theorem call_answered {α : Type} (prompt : s.outside.staging.deferred = false) (make : Outside → Outside × α)
    {o : Outside} {x : α} (made : make s.outside = (o, x)) : s.call false make = (⟨s.memory, o⟩, .now x) := by
  rw [s.call_prompt prompt, made]

theorem meet_mount (prompt : s.outside.staging.deferred = false) (sound : s.outside.staging.faults = [])
    (id : String) : ∃ o : Outside, s.meet false (.mount id) = (⟨s.memory, o⟩, .now (.ok (.element (.mount id)))) ∧
      o.staging = s.outside.staging ∧ o.host = (s.outside.host.mount id).1 :=
  ⟨_, s.call_answered prompt (·.mount id) (s.outside.mount_sound sound id), rfl, rfl⟩

theorem meet_create (prompt : s.outside.staging.deferred = false) (sound : s.outside.staging.faults = [])
    (kind : String) (params : List (String × Value)) :
    ∃ o : Outside, s.meet false (.create kind params) =
        (⟨s.memory, o⟩, .now (.ok (.element (s.outside.host.nextElement kind)))) ∧
      o.staging = s.outside.staging ∧ o.host = (s.outside.host.create kind params).1 :=
  ⟨_, s.call_answered prompt (·.create kind params) (s.outside.create_sound sound kind params), rfl, rfl⟩

theorem meet_destroy (prompt : s.outside.staging.deferred = false) (sound : s.outside.staging.faults = [])
    (e : ElementRef) :
    ∃ o : Outside, s.meet false (.destroy (.element e)) = (⟨s.memory, o⟩, .now (.ok ())) ∧
      o.staging = s.outside.staging ∧ o.host = { s.outside.host with tree := s.outside.host.tree.detach e } :=
  ⟨_, s.call_answered prompt (·.destroy (.element e)) (s.outside.destroy_sound sound e), rfl, rfl⟩

theorem stock_animate (handle keyframes duration : Value) :
    (s.outside.animate handle keyframes duration).1.stock = s.outside.stock := by
  rw [Outside.animate_eq]
  refine Outside.stock_planned _ .animate fun p => ?_
  unfold Outside.fly
  dsimp only
  split <;> rfl

/-- An animation touches nothing but the record of animations. Its answer comes at once only if it
fails at once. -/
theorem meet_animate (handle keyframes duration : Value) :
    ∃ o : Outside, o.stock = s.outside.stock ∧
      ((∃ f, s.meet false (.animate handle keyframes duration) = (⟨s.memory, o⟩, .now (.error f))) ∨
        s.meet false (.animate handle keyframes duration) = (⟨s.memory, o⟩, .later (.ok ())) ∨
        ∃ gate, s.meet false (.animate handle keyframes duration) = (⟨s.memory, o⟩, .atGate gate id)) := by
  have stock := s.stock_animate handle keyframes duration
  cases called : s.outside.animate handle keyframes duration with
  | mk o answer =>
    have met : s.meet false (.animate handle keyframes duration) = s.animate handle keyframes duration := rfl
    rw [called] at stock
    rw [met, animate, called]
    cases answer with
    | error f => exact ⟨o, stock, .inl ⟨f, rfl⟩⟩
    | ok _ =>
      cases gated : o.staging.gated with
      | false => exact ⟨o, stock, .inr (.inl (if_neg (Bool.eq_false_iff.mp gated)))⟩
      | true => exact ⟨{ o with gates := o.gates + 1 }, stock, .inr (.inr ⟨o.gates, if_pos gated⟩)⟩

/-- A host that defers its calls does not put an animation off. -/
theorem animate_not_again {s' : Scene} {handle keyframes duration : Value} {due : Bool} :
    s.meet due (.animate handle keyframes duration) ≠ (s', .again) := by
  intro met
  obtain ⟨o, _, ⟨f, now⟩ | later | ⟨gate, wait⟩⟩ := s.meet_animate handle keyframes duration
  · cases now.symm.trans met
  · cases later.symm.trans met
  · cases wait.symm.trans met

theorem not_again {s' : Scene} {r : Request} : s.meet true r ≠ (s', .again) := by
  have call : ∀ {α : Type} {f : Outside → Outside × α}, s.call true f ≠ (s', .again) := by
    intro α f put
    simp [Scene.call] at put
  cases r with
  | mount id => exact call (f := (·.mount id))
  | create kind params => exact call (f := (·.create kind params))
  | destroy handle => exact call (f := (·.destroy handle))
  | animate handle keyframes duration => exact s.animate_not_again
  | _ => simp [meet]

theorem memory_call {α : Type} (due : Bool) (make : Outside → Outside × α) :
    (s.call due make).1.memory = s.memory := by
  unfold call
  split <;> rfl

theorem memory_animate (handle keyframes duration : Value) :
    (s.animate handle keyframes duration).1.memory = s.memory := by
  unfold animate
  split
  · rfl
  · split <;> rfl

theorem cache_meet (due : Bool) {r : Request} {port : Endpoint} (h : r.Spares port) :
    (s.meet due r).1.memory.cache.value port = s.memory.cache.value port := by
  cases r with
  | publish other v => exact (Cache.value_publish _ _ _ _).trans (if_neg h)
  | mount id => exact congrArg (·.cache.value port) (s.memory_call due _)
  | create kind params => exact congrArg (·.cache.value port) (s.memory_call due _)
  | destroy handle => exact congrArg (·.cache.value port) (s.memory_call due _)
  | animate handle keyframes duration => exact congrArg (·.cache.value port) (s.memory_animate _ _ _)
  | _ => rfl

end Scene

namespace Action

variable {α : Type}

theorem perform_prompt {a : Action α} (h : a.Asks Request.Prompt) (due : Bool) (s : Scene)
    (prompt : s.outside.staging.deferred = false) : ∃ s' r, a.perform due s = (s', .ended r) := by
  induction a generalizing due s with
  | done x => exact ⟨s, .ok x, rfl⟩
  | failed f => exact ⟨s, .error f, rfl⟩
  | ask r next ih =>
    have kept := congrArg Prod.fst (s.premises_meet due r)
    obtain ⟨s', x, met⟩ := s.meet_prompt prompt due h.1
    rw [met] at kept
    rw [perform, met]
    exact ih x (h.2 x) false s' ((congrArg Staging.deferred kept).trans prompt)

theorem cache_perform {port : Endpoint} {a : Action α} (h : a.Asks (Request.Spares port)) (due : Bool) (s : Scene) :
    (a.perform due s).1.memory.cache.value port = s.memory.cache.value port := by
  induction a generalizing due s with
  | done x => rfl
  | failed f => rfl
  | ask r next ih =>
    have kept := s.cache_meet due h.1
    rw [perform]
    generalize s.meet due r = y at kept
    obtain ⟨s', reply⟩ := y
    cases reply with
    | now x => exact (ih x (h.2 x) false s').trans kept
    | _ => exact kept

/-- Every deed of an action is its first request, or belongs to what follows on that. -/
theorem mem_deeds_ask {r : Request} {next : r.Answer → Action α} {due : Bool} {s : Scene} {d : Deed}
    (h : d ∈ (ask r next).deeds due s) :
    (∃ answer, d = .asked r answer) ∨ ∃ s' x, s.meet due r = (s', .now x) ∧ d ∈ (next x).deeds false s' := by
  rw [deeds] at h
  split at h
  · rename_i s' x met
    rcases List.mem_cons.mp h with rfl | h
    · exact .inl ⟨_, rfl⟩
    · exact .inr ⟨s', x, met, h⟩
  · exact .inl ⟨_, List.mem_singleton.mp h⟩
  · cases h
  · exact .inl ⟨_, List.mem_singleton.mp h⟩

end Action

end ActionGraph
