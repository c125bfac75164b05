import ActionGraph.Proofs.Action.Memory
import ActionGraph.Proofs.Action.Turns

/-!
Actions that make sure before they change anything. Once such an action has made an element or taken
one out, or has asked for an animation, it does not fail any more. So wherever it has failed, nothing
has changed on the host but for mounts that were asked for.
-/

namespace ActionGraph

variable {α β : Type}

/-- From the first scene to the second the host is asked for such mounts, and nothing else changes there. -/
structure Scene.Mounting (P : String → Prop) (s s' : Scene) : Prop where
  staging : s'.outside.staging = s.outside.staging
  host : ∃ ids, (∀ id ∈ ids, P id) ∧
    s'.outside.host = { s.outside.host with mounts := s.outside.host.mounts ++ ids }

namespace Scene

variable {P Q : String → Prop} {a b c s s' : Scene} {id : String}

theorem Mounting.of_same (staging : b.outside.staging = a.outside.staging) (host : b.outside.host = a.outside.host) :
    Mounting P a b := by
  refine ⟨staging, [], nofun, ?_⟩
  rw [host, List.append_nil]

theorem Mounting.refl (s : Scene) : Mounting P s s := .of_same rfl rfl

theorem Mounting.trans (h : Mounting P a b) (k : Mounting P b c) : Mounting P a c := by
  obtain ⟨ids, first, hosts⟩ := h.host
  obtain ⟨more, second, further⟩ := k.host
  refine ⟨k.staging.trans h.staging, ids ++ more, fun id listed => ?_, ?_⟩
  · exact (List.mem_append.mp listed).elim (first id) (second id)
  · rw [further, hosts, List.append_assoc]

theorem Mounting.mono (h : Mounting P a b) (weaker : ∀ id, P id → Q id) : Mounting Q a b := by
  obtain ⟨ids, listed, host⟩ := h.host
  exact ⟨h.staging, ids, fun id there => weaker id (listed id there), host⟩

theorem Mounting.prompt (h : Mounting P a b) (prompt : a.outside.staging.deferred = false) :
    b.outside.staging.deferred = false := by
  rw [h.staging]
  exact prompt

end Scene

namespace Outside

variable (o : Outside)

theorem host_log (message : String) (data : Value) : (o.log message data).host = o.host :=
  o.log_keeps (P := fun p => p.host = o.host) message data rfl rfl fun _ _ h => h

theorem staging_log (message : String) (data : Value) : (o.log message data).staging = o.staging :=
  o.log_keeps (P := fun p => p.staging = o.staging) message data rfl rfl fun _ _ h => h

/-- A planned call that fails has done nothing, if what it does cannot fail after a change. -/
theorem host_planned {c : HostCall} {act : Outside → Outside × Except Fault β} {f : Fault}
    (acts : ∀ p, (act p).2 = .error f → (act p).1.host = p.host) (failed : (o.planned c act).2 = .error f) :
    (o.planned c act).1.host = o.host := by
  unfold planned at failed ⊢
  split
  · rfl
  · rename_i none
    rw [none] at failed
    exact acts _ failed

theorem host_create {kind : String} {params : List (String × Value)} {f : Fault}
    (failed : (o.create kind params).2 = .error f) : (o.create kind params).1.host = o.host := by
  rw [create_eq] at failed ⊢
  exact host_planned _ (fun p failed => nomatch failed) failed

theorem host_destroy {handle : Value} {f : Fault} (failed : (o.destroy handle).2 = .error f) :
    (o.destroy handle).1.host = o.host := by
  rw [destroy_eq] at failed ⊢
  refine host_planned _ (fun p failed => ?_) failed
  unfold remove at failed ⊢
  split
  · rfl
  · rename_i destroyed
    rw [destroyed] at failed
    cases failed

theorem host_mount (id : String) : ∃ ids, (∀ other ∈ ids, other = id) ∧
    (o.mount id).1.host = { o.host with mounts := o.host.mounts ++ ids } := by
  have none : ∃ ids : List String, (∀ other ∈ ids, other = id) ∧
      o.host = { o.host with mounts := o.host.mounts ++ ids } := ⟨[], nofun, by rw [List.append_nil]⟩
  rw [mount_eq]
  unfold planned
  split
  · exact none
  · dsimp only [Host.mount]
    split
    · exact none
    · exact ⟨[id], fun other => List.mem_singleton.mp, rfl⟩

end Outside

/-- Changes nothing but mounts such as these. -/
def Request.Harmless (P : String → Prop) : Request → Prop
  | .log .. | .diagnose _ | .cached _ | .lastEvent | .clock => True
  | .mount id => P id
  | _ => False

/-- An element is made, taken out or animated only where nothing can fail any more. -/
def Request.Cautious (P : String → Prop) : (r : Request) → (r.Answer → Action α) → Prop
  | .create .., next => ∀ v, (next (Except.ok v)).Ends fun o => o.isOk
  | .destroy _, next => ∀ x, (next (Except.ok x)).Ends fun o => o.isOk
  | .animate .., next => ∀ x, (next x).Ends fun o => o.isOk
  | r, _ => r.Harmless P

variable {P : String → Prop}

theorem Request.Harmless.cautious {r : Request} (h : r.Harmless P) (next : r.Answer → Action α) : r.Cautious P next := by
  cases r with
  | create kind params => exact h.elim
  | destroy handle => exact h.elim
  | animate handle keyframes duration => exact h.elim
  | _ => exact h

theorem Scene.meet_harmless (s : Scene) (prompt : s.outside.staging.deferred = false) {r : Request} (h : r.Harmless P) :
    ∃ s₁ x, s.meet false r = (s₁, .now x) ∧ s.Mounting P s₁ ∧ s₁.memory = s.memory := by
  cases r with
  | log message data =>
    exact ⟨_, (), rfl, .of_same (s.outside.staging_log _ _) (s.outside.host_log _ _), rfl⟩
  | diagnose line => exact ⟨_, (), rfl, .of_same rfl rfl, rfl⟩
  | cached port => exact ⟨s, _, rfl, .refl s, rfl⟩
  | lastEvent => exact ⟨s, _, rfl, .refl s, rfl⟩
  | clock => exact ⟨_, _, rfl, .of_same rfl rfl, rfl⟩
  | mount id =>
    obtain ⟨ids, listed, host⟩ := s.outside.host_mount id
    have staging := congrArg Prod.fst (s.outside.premises_mount id)
    exact ⟨_, _, s.call_prompt prompt false (·.mount id), ⟨staging, ids, fun other there => listed other there ▸ h, host⟩, rfl⟩
  | _ => exact h.elim

namespace Action

def Cautious (P : String → Prop) (a : Action α) : Prop := a.Throughout (fun r next => r.Cautious P next) fun _ => True

theorem Cautious.after {a : Action α} {f : α → Action β} (first : a.Asks (Request.Harmless P))
    (rest : ∀ x, (f x).Cautious P) : (a.andThen f).Cautious P :=
  Throughout.andThen first (fun _ _ harmless => harmless.cautious _) (fun x _ => rest x) fun _ _ => trivial

variable {s s' : Scene}

theorem finishes_harmless {a : Action α} (harmless : a.Asks (Request.Harmless P))
    (prompt : s.outside.staging.deferred = false) {o : Except Fault α} (ended : (Thread.ready a).Finishes s s' o) :
    s.Mounting P s' ∧ s'.memory = s.memory := by
  induction a generalizing s with
  | done x =>
    obtain ⟨rfl, _⟩ := (Thread.finishes_of_ended rfl).mp ended
    exact ⟨.refl s', rfl⟩
  | failed e =>
    obtain ⟨rfl, _⟩ := (Thread.finishes_of_ended rfl).mp ended
    exact ⟨.refl s', rfl⟩
  | ask r next ih =>
    obtain ⟨s₁, x, met, mounting, kept⟩ := s.meet_harmless prompt harmless.1
    obtain ⟨rest, memory⟩ := ih x (harmless.2 x) (mounting.prompt prompt) ((Thread.finishes_ask met).mp ended)
    exact ⟨mounting.trans rest, memory.trans kept⟩

/-- Where a cautious action has failed, nothing has changed but for mounts, and nobody else has gone on. -/
theorem Cautious.failing {a : Action α} {f : Fault} (cautious : a.Cautious P)
    (prompt : s.outside.staging.deferred = false) (failed : (Thread.ready a).Finishes s s' (.error f)) :
    a.perform false s = (s', .ended (.error f)) ∧ s.Mounting P s' ∧ s'.memory = s.memory := by
  induction a generalizing s with
  | done x =>
    obtain ⟨_, same⟩ := (Thread.finishes_of_ended rfl).mp failed
    cases same
  | failed e =>
    obtain ⟨rfl, same⟩ := (Thread.finishes_of_ended rfl).mp failed
    cases same
    exact ⟨rfl, .refl s', rfl⟩
  | ask r next ih =>
    have step : ∀ s₁ x, s.meet false r = (s₁, .now x) → s.Mounting P s₁ → s₁.memory = s.memory →
        (ask r next).perform false s = (s', .ended (.error f)) ∧ s.Mounting P s' ∧ s'.memory = s.memory := by
      intro s₁ x met mounting kept
      obtain ⟨performed, rest, memory⟩ := ih x (cautious.2 x) (mounting.prompt prompt) ((Thread.finishes_ask met).mp failed)
      refine ⟨?_, mounting.trans rest, memory.trans kept⟩
      rw [perform, met]
      exact performed
    have others : r.Harmless P → (ask r next).perform false s = (s', .ended (.error f)) ∧ s.Mounting P s' ∧
        s'.memory = s.memory := by
      intro harmless
      obtain ⟨s₁, x, met, mounting, kept⟩ := s.meet_harmless prompt harmless
      exact step s₁ x met mounting kept
    -- What cannot fail any more after an answer is not answered so.
    have never : ∀ {x : r.Answer} {s₁ : Scene}, (next x).Ends (fun o => o.isOk) → s.meet false r ≠ (s₁, .now x) := by
      intro x s₁ ends met
      have fine := ((Thread.finishes_ask met).mp failed).outcome (t := .ready (next x)) ends
      cases fine
    cases r with
    | create kind params =>
      have met := s.call_prompt prompt false (·.create kind params)
      cases made : (s.outside.create kind params).2 with
      | ok v => exact absurd (by rw [← made]; exact met) (never (cautious.1 v))
      | error g =>
        have staging := congrArg Prod.fst (s.outside.premises_create kind params)
        exact step _ _ met (.of_same staging (s.outside.host_create made)) rfl
    | animate handle keyframes duration =>
      have ends : (ask (.animate handle keyframes duration) next).Ends fun o => o.isOk := ⟨trivial, cautious.1⟩
      cases failed.outcome (t := .ready (ask _ next)) ends
    | destroy handle =>
      have met := s.call_prompt prompt false (·.destroy handle)
      cases taken : (s.outside.destroy handle).2 with
      | ok x => exact absurd (by rw [← taken]; exact met) (never (cautious.1 x))
      | error g =>
        have staging := congrArg Prod.fst (s.outside.premises_destroy handle)
        exact step _ _ met (.of_same staging (s.outside.host_destroy taken)) rfl
    | _ => exact others cautious.1

end Action

end ActionGraph
