import ActionGraph.Proofs.Action.Perform
import ActionGraph.Proofs.Demonstration.Calm

/-!
How the nodes of the demonstration come by their inputs. The mount, the emoji and its size are
computed where nobody has done so before; an element is read off the node before.
-/

namespace ActionGraph

namespace Host

variable {η : Type} (h : Host η) (id : String)

theorem mem_mount : id ∈ (h.mount id).1.mounts := by
  unfold mount
  dsimp only
  split
  · assumption
  · exact List.mem_append_right _ (List.mem_singleton.mpr rfl)

theorem mount_keeps : (h.mount id).1.created = h.created ∧ (h.mount id).1.tree = h.tree ∧
    ∀ other ∈ h.mounts, other ∈ (h.mount id).1.mounts := by
  unfold mount
  dsimp only
  split
  · exact ⟨rfl, rfl, fun _ there => there⟩
  · exact ⟨rfl, rfl, fun _ there => List.mem_append_left _ there⟩

end Host

namespace Demonstration

variable {α : Type} {s : Scene} {post : α → Scene → Prop}

theorem Calmly.mounted {a : Action α} {id : String} (h : Calmly a s post) (there : id ∈ s.outside.host.mounts) :
    Calmly a s fun x s' => post x s' ∧ id ∈ s'.outside.host.mounts := by
  obtain ⟨ds, s', x, runs, calm, found⟩ := h
  exact ⟨ds, s', x, runs, calm, found, calm.mounts id there⟩

theorem calmly_mount (warm : Warm s) : Calmly (Action.mount "cj-ui-overlay") s fun v s' =>
    v = .element overlay ∧ "cj-ui-overlay" ∈ s'.outside.host.mounts := by
  obtain ⟨o, met, staging, host⟩ := s.meet_mount warm.prompt warm.sound "cj-ui-overlay"
  obtain ⟨created, tree, mounts⟩ := s.outside.host.mount_keeps "cj-ui-overlay"
  rw [← host] at created tree mounts
  have there : "cj-ui-overlay" ∈ o.host.mounts := host ▸ s.outside.host.mem_mount "cj-ui-overlay"
  have warm' : Warm ⟨s.memory, o⟩ :=
    ⟨staging ▸ warm.prompt, staging ▸ warm.sound, warm.tool.imp_right fun known => ⟨known.1, there⟩, warm.emoji,
      warm.event⟩
  have idle : ∀ d ∈ [Deed.asked (.mount "cj-ui-overlay") (some (.ok (.element overlay)))], d.Idle :=
    fun d listed => List.mem_singleton.mp listed ▸ ⟨rfl, rfl, rfl⟩
  exact ⟨_, ⟨s.memory, o⟩, _, .ask met (Action.runs_done _ _),
    ⟨⟨created, tree, mounts, fun _ => warm'⟩, idle⟩, rfl, there⟩

section

variable {env : Environment} {node : Node}

theorem calmly_supply {b : Behavior} {port : String} {v : Value} {P : Host Listener → Prop} (warm : Warm s)
    (supplied : Calmly (b.supply env.settings node port) s fun x s' => x = v ∧ P s'.outside.host)
    (present : v.isAbsent = false)
    (publish : ∀ s' : Scene, Warm s' → P s'.outside.host → Warm (s'.publish ⟨node.id, port⟩ v)) :
    Calmly (env.supply node b port) s fun x s' => x = v ∧ P s'.outside.host := by
  refine Calmly.andThen supplied.attempt warm fun outcome s' warm' found => ?_
  obtain ⟨x, rfl, rfl, holds⟩ := found
  dsimp only
  rw [present]
  refine calmly_diagnose warm' fun s'' warm'' memory host => ?_
  have holds' : P s''.outside.host := host ▸ holds
  exact calmly_publish (publish s'' warm'' holds') (calmly_done ⟨rfl, holds'⟩)

theorem calmly_resolve {input : Endpoint} (port : Endpoint) {otherwise : Action Value}
    {post : Value → Scene → Prop}
    (resolves : env.resolve input = (Action.cached port).andThen fun existing =>
      if existing.isAbsent then otherwise else .done existing) (warm : Warm s)
    (existing : (s.memory.cache.value port).isAbsent = false → post (s.memory.cache.value port) s)
    (missing : (s.memory.cache.value port).isAbsent = true → Calmly otherwise s post) :
    Calmly (env.resolve input) s post := by
  rw [resolves]
  refine calmly_cached warm ?_
  change Calmly (ite _ _ _) s post
  split
  · rename_i none
    exact missing none
  · rename_i present
    exact calmly_done (existing (Bool.eq_false_iff.mpr present))

theorem calmly_readInputs {spec : Input} {specs : List Input} {ports : Ports} {found : Value → Scene → Prop}
    {post : Ports → Scene → Prop} (warm : Warm s)
    (resolved : Calmly (env.resolve ⟨node.id, spec.port⟩) s fun wired s' =>
      ∃ v, spec.value node wired = .ok v ∧ found v s')
    (rest : ∀ v s', Warm s' → found v s' → Calmly (env.readInputs node specs (Keyed.put spec.port v ports)) s' post) :
    Calmly (env.readInputs node (spec :: specs) ports) s post := by
  refine Calmly.andThen resolved warm fun wired s' warm' got => ?_
  obtain ⟨v, value, holds⟩ := got
  rw [value]
  exact rest v s' warm' holds

end

section

variable (graphId : Option String) (evaluate : Script.Evaluator) (settings : Settings)

theorem read_tool (warm : Warm s) :
    Calmly ((environment graphId evaluate settings).resolve ⟨"n_spawn", "tool_in"⟩) s fun wired s' =>
      wired = .element overlay ∧ "cj-ui-overlay" ∈ s'.outside.host.mounts := by
  refine calmly_resolve toolPort rfl warm (fun present => ?_) fun _ => ?_
  · rcases warm.tool with none | known
    · rw [none] at present
      cases present
    · exact known
  · refine calmly_supply (P := fun host => "cj-ui-overlay" ∈ host.mounts) warm (calmly_mount warm) rfl
      fun s' warm' there => warm'.publish _ _ (fun _ => ⟨rfl, there⟩) (absurd · (by decide)) (absurd · (by decide))

theorem read_emoji (warm : Warm s) :
    Calmly ((environment graphId evaluate settings).resolve ⟨"n_spawn", "data_in_emoji"⟩) s fun wired _ =>
      wired = .text "🪽" := by
  refine calmly_resolve emojiPort rfl warm (fun present => ?_) fun _ => ?_
  · rcases warm.emoji with none | known
    · rw [none] at present
      cases present
    · exact known
  · refine (calmly_supply (P := fun _ => True) warm (v := .text "🪽") (calmly_done ⟨rfl, trivial⟩) rfl
      fun s' warm' _ => warm'.publish _ _ (absurd · (by decide)) (fun _ => rfl) (absurd · (by decide))).mono
        fun _ _ found => found.1

theorem read_size (warm : Warm s) :
    Calmly ((environment graphId evaluate settings).resolve ⟨"n_spawn", "data_in_size"⟩) s fun _ _ => True := by
  refine calmly_resolve sizePort rfl warm (fun _ => trivial) fun _ => ?_
  exact (calmly_supply (P := fun _ => True) warm (v := .int 120) (calmly_done ⟨rfl, trivial⟩) rfl
    fun s' warm' _ => warm'.publish _ _ (absurd · (by decide)) (absurd · (by decide)) (absurd · (by decide))).mono
      fun _ _ _ => trivial

theorem read_event (warm : Warm s) :
    Calmly ((environment graphId evaluate settings).resolve ⟨"n_spawn", "data_in_event"⟩) s fun wired _ =>
      wired = .absent ∨ ∃ e, wired = .event e :=
  calmly_resolve eventPort rfl warm (fun _ => warm.event)
    fun _ => calmly_done (.inl rfl)

structure Given (ports : Ports) (s : Scene) : Prop where
  root : ports.value "tool_in" = .element overlay
  event : ports.value "data_in_event" = .null ∨ ∃ e, ports.value "data_in_event" = .event e
  mounted : "cj-ui-overlay" ∈ s.outside.host.mounts

theorem value_size (wired : Value) :
    ∃ v, Input.value ⟨"data_in_size", some "defaultSizePx", .int 120, some .number⟩ spawnNode wired = .ok v := by
  unfold Input.value
  dsimp only
  split
  · exact ⟨_, rfl⟩
  · exact ⟨_, rfl⟩

theorem reads_spawn (warm : Warm s) :
    Calmly ((environment graphId evaluate settings).readInputs spawnNode Builtin.spawnEmoji.inputs []) s Given := by
  have tool : Calmly ((environment graphId evaluate settings).resolve ⟨"n_spawn", "tool_in"⟩) s fun wired s' =>
      ∃ v, (Input.wired "tool_in").value spawnNode wired = .ok v ∧
        (v = .element overlay ∧ "cj-ui-overlay" ∈ s'.outside.host.mounts) := by
    refine (read_tool graphId evaluate settings warm).mono fun wired s' found => ?_
    rw [found.1]
    exact ⟨_, rfl, rfl, found.2⟩
  refine calmly_readInputs warm tool fun root s₁ warm found => ?_
  obtain ⟨rfl, mounted⟩ := found
  have emoji : Calmly ((environment graphId evaluate settings).resolve ⟨"n_spawn", "data_in_emoji"⟩) s₁ fun wired s' =>
      ∃ v, Input.value ⟨"data_in_emoji", some "defaultEmoji", .text "✨", some .text⟩ spawnNode wired = .ok v ∧
        "cj-ui-overlay" ∈ s'.outside.host.mounts := by
    refine ((read_emoji graphId evaluate settings warm).mounted mounted).mono fun wired s' found => ?_
    rw [found.1]
    exact ⟨_, rfl, found.2⟩
  refine calmly_readInputs warm emoji fun shown s₂ warm mounted => ?_
  have size : Calmly ((environment graphId evaluate settings).resolve ⟨"n_spawn", "data_in_size"⟩) s₂ fun wired s' =>
      ∃ v, Input.value ⟨"data_in_size", some "defaultSizePx", .int 120, some .number⟩ spawnNode wired = .ok v ∧
        "cj-ui-overlay" ∈ s'.outside.host.mounts := by
    refine ((read_size graphId evaluate settings warm).mounted mounted).mono fun wired s' found => ?_
    obtain ⟨v, value⟩ := value_size wired
    exact ⟨v, value, found.2⟩
  refine calmly_readInputs warm size fun extent s₃ warm mounted => ?_
  have event : Calmly ((environment graphId evaluate settings).resolve ⟨"n_spawn", "data_in_event"⟩) s₃ fun wired s' =>
      ∃ v, (Input.wired "data_in_event").value spawnNode wired = .ok v ∧
        ((v = .null ∨ ∃ e, v = .event e) ∧ "cj-ui-overlay" ∈ s'.outside.host.mounts) := by
    refine ((read_event graphId evaluate settings warm).mounted mounted).mono fun wired s' found => ?_
    rcases found with ⟨rfl | ⟨e, rfl⟩, mounted⟩
    · exact ⟨_, rfl, .inl rfl, mounted⟩
    · exact ⟨_, rfl, .inr ⟨e, rfl⟩, mounted⟩
  refine calmly_readInputs warm event fun happened s₄ warm known => ?_
  exact calmly_done ⟨rfl, known.1, known.2⟩

theorem read_element {input port : Endpoint} {env : Environment} {node : Node} {e : ElementRef}
    (resolves : env.resolve input = (Action.cached port).andThen fun existing =>
      if existing.isAbsent then .done .absent else .done existing) (warm : Warm s)
    (published : s.memory.cache.value port = .element e) :
    Calmly (env.resolve input) s fun wired _ =>
      ∃ v, (Input.wired "data_in_el").value node wired = .ok v ∧ v = .element e := by
  refine calmly_resolve port resolves warm (fun _ => ?_) fun none => ?_
  · rw [published]
    exact ⟨_, rfl, rfl⟩
  · rw [published] at none
    cases none

theorem reads_fly {e : ElementRef} (warm : Warm s) (spawned : s.memory.cache.value spawnPort = .element e) :
    Calmly ((environment graphId evaluate settings).readInputs flyNode Builtin.animateFly.inputs []) s fun ports _ =>
      ports = [("data_in_el", .element e), ("data_in_toX", .int 1100), ("data_in_toY", .int (-180)),
        ("data_in_ms", .int 900), ("data_in_scaleTo", .null)] := by
  refine calmly_readInputs warm (read_element rfl warm spawned) fun element s' warm' same => ?_
  rw [same]
  exact calmly_done rfl

theorem reads_remove {e : ElementRef} (warm : Warm s) (flown : s.memory.cache.value flyPort = .element e) :
    Calmly ((environment graphId evaluate settings).readInputs removeNode Builtin.removeElement.inputs []) s
      fun ports _ => ports = [("data_in_el", .element e)] := by
  refine calmly_readInputs warm (read_element rfl warm flown) fun element s' warm' same => ?_
  rw [same]
  exact calmly_done rfl

end

end Demonstration

end ActionGraph
