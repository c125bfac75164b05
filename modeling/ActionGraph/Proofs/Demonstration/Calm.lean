import ActionGraph.Proofs.Action.Runs
import ActionGraph.Proofs.Demonstration.Environment
import ActionGraph.Proofs.Session.Elements
import ActionGraph.Proofs.Session.Frame

/-!
The scene that pulses of the demonstration share, and what they do to it besides making, moving and
removing elements: next to nothing. What was published once of the mount, the emoji and the event
stays of use to every pulse.
-/

namespace ActionGraph.Demonstration

/-- A host without faults that answers at once, and published values that are what they should be,
as far as there are any. -/
structure Warm (s : Scene) : Prop where
  prompt : s.outside.staging.deferred = false
  sound : s.outside.staging.faults = []
  tool : s.memory.cache.value toolPort = .absent ∨
    s.memory.cache.value toolPort = .element overlay ∧ "cj-ui-overlay" ∈ s.outside.host.mounts
  emoji : s.memory.cache.value emojiPort = .absent ∨ s.memory.cache.value emojiPort = .text "🪽"
  event : s.memory.cache.value eventPort = .absent ∨ ∃ e, s.memory.cache.value eventPort = .event e

/-- Elements stay where they are, and a warm scene stays warm. -/
structure Steady (s s' : Scene) : Prop where
  created : s'.outside.host.created = s.outside.host.created
  tree : s'.outside.host.tree = s.outside.host.tree
  mounts : ∀ id ∈ s.outside.host.mounts, id ∈ s'.outside.host.mounts
  warm : Warm s → Warm s'

theorem Steady.refl (s : Scene) : Steady s s := ⟨rfl, rfl, fun _ there => there, id⟩

theorem Steady.trans {a b c : Scene} (h : Steady a b) (k : Steady b c) : Steady a c where
  created := k.created.trans h.created
  tree := k.tree.trans h.tree
  mounts id there := k.mounts id (h.mounts id there)
  warm start := k.warm (h.warm start)

/-- A stretch of deeds that does nothing to elements. -/
structure Calm (s s' : Scene) (ds : List Deed) : Prop extends Steady s s' where
  idle : ∀ d ∈ ds, d.Idle

theorem Calm.refl (s : Scene) : Calm s s [] := ⟨.refl s, nofun⟩

theorem Calm.trans {a b c : Scene} {ds ds' : List Deed} (h : Calm a b ds) (k : Calm b c ds') :
    Calm a c (ds ++ ds') where
  toSteady := h.toSteady.trans k.toSteady
  idle d there := (List.mem_append.mp there).elim (h.idle d) (k.idle d)

theorem Warm.of_stock {s s' : Scene} (h : Warm s) (memory : s'.memory.cache = s.memory.cache)
    (stock : s'.outside.stock = s.outside.stock) : Warm s' := by
  have staging : s'.outside.staging = s.outside.staging := congrArg Stock.staging stock
  have mounts : s'.outside.host.mounts = s.outside.host.mounts := congrArg Stock.mounts stock
  exact ⟨by rw [staging]; exact h.prompt, by rw [staging]; exact h.sound, by rw [memory, mounts]; exact h.tool,
    by rw [memory]; exact h.emoji, by rw [memory]; exact h.event⟩

theorem Steady.of_stock {s s' : Scene} (memory : s'.memory.cache = s.memory.cache)
    (stock : s'.outside.stock = s.outside.stock) : Steady s s' where
  created := congrArg Stock.created stock
  tree := congrArg Stock.tree stock
  mounts id there := by rwa [show s'.outside.host.mounts = _ from congrArg Stock.mounts stock]
  warm h := h.of_stock memory stock

theorem Warm.publish {s : Scene} (h : Warm s) (port : Endpoint) (v : Value)
    (tool : port = toolPort → v = .element overlay ∧ "cj-ui-overlay" ∈ s.outside.host.mounts)
    (emoji : port = emojiPort → v = .text "🪽") (event : port = eventPort → ∃ e, v = .event e) :
    Warm (s.publish port v) := by
  have value : ∀ q, (s.publish port v).memory.cache.value q = if port = q then v else s.memory.cache.value q :=
    fun q => Cache.value_publish _ _ _ _
  refine ⟨h.prompt, h.sound, ?_, ?_, ?_⟩
  · rw [value]
    split
    · rename_i same
      exact .inr (tool same)
    · exact h.tool
  · rw [value]
    split
    · rename_i same
      exact .inr (emoji same)
    · exact h.emoji
  · rw [value]
    split
    · rename_i same
      exact .inr (event same)
    · exact h.event

/-- The action comes to a result without a stir, and that is as `post` says. -/
def Calmly {α : Type} (a : Action α) (s : Scene) (post : α → Scene → Prop) : Prop :=
  ∃ ds s' x, a.Runs s ds s' (.ok x) ∧ Calm s s' ds ∧ post x s'

section

variable {α β : Type} {s : Scene} {post : α → Scene → Prop} {post' : β → Scene → Prop}

theorem calmly_done {x : α} (h : post x s) : Calmly (.done x) s post :=
  ⟨[], s, x, Action.runs_done x s, .refl s, h⟩

theorem Calmly.andThen {a : Action α} {f : α → Action β} (first : Calmly a s post) (warm : Warm s)
    (rest : ∀ x s', Warm s' → post x s' → Calmly (f x) s' post') : Calmly (a.andThen f) s post' := by
  obtain ⟨ds, s', x, runs, calm, found⟩ := first
  obtain ⟨ds', s'', y, runs', calm', found'⟩ := rest x s' (calm.warm warm) found
  exact ⟨ds ++ ds', s'', y, runs.andThen runs', calm.trans calm', found'⟩

theorem Calmly.attempt {a : Action α} (h : Calmly a s post) :
    Calmly a.attempt s fun r s' => ∃ x, r = .ok x ∧ post x s' := by
  obtain ⟨ds, s', x, runs, calm, found⟩ := h
  exact ⟨ds, s', .ok x, runs.attempt, calm, x, rfl, found⟩

theorem Calmly.mono {a : Action α} {weaker : α → Scene → Prop} (h : Calmly a s post)
    (imp : ∀ x s', post x s' → weaker x s') : Calmly a s weaker := by
  obtain ⟨ds, s', x, runs, calm, found⟩ := h
  exact ⟨ds, s', x, runs, calm, imp x s' found⟩

theorem calmly_ask {r : Request} {next : r.Answer → Action α} {s' : Scene} {x : r.Answer}
    (met : s.meet false r = (s', .now x)) (memory : s'.memory.cache = s.memory.cache)
    (stock : s'.outside.stock = s.outside.stock) (idle : (Deed.asked r (some x)).Idle) (warm : Warm s)
    (rest : Warm s' → Calmly (next x) s' post) : Calmly (.ask r next) s post := by
  obtain ⟨ds, s'', y, runs, calm, found⟩ := rest (warm.of_stock memory stock)
  have first : Calm s s' [.asked r (some x)] :=
    ⟨.of_stock memory stock, fun d there => List.mem_singleton.mp there ▸ idle⟩
  exact ⟨_, s'', y, .ask met runs, first.trans calm, found⟩

theorem calmly_log {message : String} {data : Value} {next : Unit → Action α} (warm : Warm s)
    (rest : ∀ s', Warm s' → s'.memory = s.memory → Calmly (next ()) s' post) :
    Calmly (.ask (.log message data) next) s post :=
  calmly_ask rfl rfl (s.outside.stock_log message data) ⟨rfl, rfl, rfl⟩ warm fun warm' => rest _ warm' rfl

theorem calmly_diagnose {line : String} {next : Unit → Action α} (warm : Warm s)
    (rest : ∀ s', Warm s' → s'.memory = s.memory → s'.outside.host = s.outside.host → Calmly (next ()) s' post) :
    Calmly (.ask (.diagnose line) next) s post :=
  calmly_ask rfl rfl rfl ⟨rfl, rfl, rfl⟩ warm fun warm' => rest _ warm' rfl rfl

theorem calmly_cached {port : Endpoint} {next : Value → Action α} (warm : Warm s)
    (rest : Calmly (next (s.memory.cache.value port)) s post) : Calmly (.ask (.cached port) next) s post :=
  calmly_ask rfl rfl rfl ⟨rfl, rfl, rfl⟩ warm fun _ => rest

theorem calmly_publish {port : Endpoint} {v : Value} {next : Unit → Action α} (warm : Warm (s.publish port v))
    (rest : Calmly (next ()) (s.publish port v) post) : Calmly (.ask (.publish port v) next) s post := by
  obtain ⟨ds, s', x, runs, calm, found⟩ := rest
  have idle : ∀ d ∈ [Deed.asked (.publish port v) (some ())], d.Idle :=
    fun d there => List.mem_singleton.mp there ▸ ⟨rfl, rfl, rfl⟩
  have first : Calm s (s.publish port v) [.asked (.publish port v) (some ())] :=
    ⟨⟨rfl, rfl, fun _ there => there, fun _ => warm⟩, idle⟩
  exact ⟨_, s', x, .ask rfl runs, first.trans calm, found⟩

end

end ActionGraph.Demonstration
