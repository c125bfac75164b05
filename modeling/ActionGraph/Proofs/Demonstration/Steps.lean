import ActionGraph.Proofs.Behavior.Builtin
import ActionGraph.Proofs.Demonstration.Reading
import ActionGraph.Proofs.Pulse.Visit

/-!
What a pulse of the demonstration does at each of its three nodes. It makes one element, lets that
very element fly, and takes it out again.
-/

namespace ActionGraph.Demonstration

variable {s s' : Scene}

theorem opening {env : Environment} {node : Node} {b : Behavior} {post : Ports → Scene → Prop} (warm : Warm s)
    (read : ∀ s', Warm s' → s'.memory = s.memory → Calmly (env.readInputs node b.inputs []) s' post) :
    ∃ ds s' ports, (env.run node b).Leads s ds s' (((b.effect env.settings node ports).andThen
      (Environment.publishAll node)).attempt.andThen (env.goOn node b)) ∧ Calm s s' ds ∧ post ports s' := by
  let line := "[ENGINE] Executing node: " ++ node.id ++ " (" ++ node.type ++ ")"
  let s₁ : Scene := ⟨s.memory, s.outside.diagnose line⟩
  have executing : (Action.diagnose line).Runs s [.asked (.diagnose line) (some ())] s₁ (.ok ()) :=
    .ask rfl (Action.runs_done _ _)
  have calm₁ : Calm s s₁ [.asked (.diagnose line) (some ())] :=
    ⟨.of_stock rfl rfl, fun d there => List.mem_singleton.mp there ▸ ⟨rfl, rfl, rfl⟩⟩
  obtain ⟨ds, s', ports, runs, calm, found⟩ := read s₁ (calm₁.warm warm) rfl
  refine ⟨_, s', ports, ?_, calm₁.trans calm, found⟩
  rw [Environment.run_eq]
  exact (executing.leads _).trans (runs.leads_tried _ _)

section

variable (graphId : Option String) (evaluate : Script.Evaluator) (settings : Settings)

theorem leave_calmly (warm : Warm s) :
    Calmly ((environment graphId evaluate settings).leave origin) s fun ids _ => ids = ["n_spawn"] :=
  calmly_diagnose warm fun _ _ _ _ => calmly_done rfl

end

/-- A new element is in the mount, and published for the next node. -/
structure Spawned (s s' : Scene) (e : ElementRef) : Prop where
  element : e = s.outside.host.nextElement "emoji"
  created : s'.outside.host.created = s.outside.host.created ++ [e]
  tree : ∃ params, s'.outside.host.tree = (s.outside.host.tree.set e (.detached params)).append overlay e
  mounted : "cj-ui-overlay" ∈ s'.outside.host.mounts
  warm : Warm s'
  published : s'.memory.cache.value spawnPort = .element e

theorem Spawned.after {s₀ : Scene} {e : ElementRef} (steady : Steady s₀ s) (h : Spawned s s' e) :
    Spawned s₀ s' e where
  element := by rw [h.element, Host.nextElement, steady.created]; rfl
  created := by rw [h.created, steady.created]
  tree := by rw [← steady.tree]; exact h.tree
  mounted := h.mounted
  warm := h.warm
  published := h.published

variable (graphId : Option String) (evaluate : Script.Evaluator) (settings : Settings)

theorem appear_runs (ports : Ports) (x y : Float) (warm : Warm s)
    (mounted : "cj-ui-overlay" ∈ s.outside.host.mounts) :
    ∃ ds s' e, (((Builtin.appear spawnNode ports (.element overlay) ⟨.float x, .float y⟩).andThen
      (Environment.publishAll spawnNode)).attempt.andThen
        ((environment graphId evaluate settings).goOn spawnNode Builtin.spawnEmoji)).Runs s ds s' (.ok ["n_fly"]) ∧
      Ledger ds [e] [] [] ∧ Spawned s s' e := by
  obtain ⟨left, across⟩ :
      ∃ n, Number.add (.float x) (Builtin.numberSetting spawnNode "offsetX" (.int 0)) = .ok n :=
    ⟨_, rfl⟩
  obtain ⟨top, down⟩ :
      ∃ n, Number.add (.float y) (Builtin.numberSetting spawnNode "offsetY" (.int 0)) = .ok n :=
    ⟨_, rfl⟩
  let params : List (String × Value) := [("text", ports.value "data_in_emoji"), ("x", left.toValue),
    ("y", top.toValue), ("size", ports.value "data_in_size"), ("parent", .element overlay)]
  let shown : Value := .record [("emoji", ports.value "data_in_emoji"), ("x", left.toValue), ("y", top.toValue),
    ("size", ports.value "data_in_size")]
  have appears : Builtin.appear spawnNode ports (.element overlay) ⟨.float x, .float y⟩ =
      (Action.create "emoji" params).andThen fun element =>
        (Action.log "Spawned emoji" shown).andThen fun _ => .done [("data_out_el", element)] := by
    unfold Builtin.appear
    rw [across, down]
    rfl
  obtain ⟨o, met, staging, host⟩ := s.meet_create warm.prompt warm.sound "emoji" params
  let e := s.outside.host.nextElement "emoji"
  let s₁ : Scene := ⟨s.memory, o⟩
  let s₂ : Scene := ⟨s.memory, o.log "Spawned emoji" shown⟩
  let s₃ : Scene := s₂.publish spawnPort (.element e)
  have stock : s₂.outside.stock = o.stock := o.stock_log _ _
  have warm₁ : Warm s₁ :=
    ⟨staging ▸ warm.prompt, staging ▸ warm.sound, host ▸ warm.tool, warm.emoji, warm.event⟩
  have warm₂ : Warm s₂ := warm₁.of_stock rfl stock
  have warm₃ : Warm s₃ :=
    warm₂.publish _ _ (absurd · (by decide)) (absurd · (by decide)) (absurd · (by decide))
  have there : "cj-ui-overlay" ∈ s₂.outside.host.mounts := by
    have same : s₂.outside.host.mounts = o.host.mounts := congrArg Stock.mounts stock
    have kept : o.host.mounts = (s.outside.host.create "emoji" params).1.mounts := congrArg Host.mounts host
    rw [same, kept]
    exact mounted
  rw [appears]
  refine ⟨_, ⟨s₃.memory, s₃.outside.diagnose _⟩, e, .ask met (.ask rfl (.ask rfl (.ask rfl (Action.runs_done _ _)))),
    ⟨rfl, rfl, rfl⟩, ?_⟩
  exact
    { element := rfl
      created := (congrArg Stock.created stock).trans (congrArg Host.created host)
      tree := ⟨Host.ownParams params, (congrArg Stock.tree stock).trans (congrArg Host.tree host)⟩
      mounted := there
      warm := ⟨warm₃.prompt, warm₃.sound, warm₃.tool, warm₃.emoji, warm₃.event⟩
      published := (Cache.value_publish _ _ _ _).trans (if_pos rfl) }

theorem read_located {v : Value} (warm : Warm s) (known : v = .null ∨ ∃ e, v = .event e) :
    Calmly (if v.isNull then Builtin.lastEventValue else .done v) s fun event _ =>
      ∃ x y, Builtin.spawnPoint settings event = ⟨.float x, .float y⟩ := by
  rcases known with rfl | ⟨e, rfl⟩
  · refine calmly_ask rfl rfl rfl ⟨rfl, rfl, rfl⟩ warm fun _ => ?_
    cases s.memory.lastEvent with
    | none => exact calmly_done ⟨settings.width / 2, settings.height / 2, rfl⟩
    | some e => exact calmly_done ⟨e.x, e.y, rfl⟩
  · exact calmly_done ⟨e.x, e.y, rfl⟩

theorem spawn_runs (warm : Warm s) :
    ∃ ds s' e, ((environment graphId evaluate settings).visit "n_spawn").Runs s ds s' (.ok ["n_fly"]) ∧
      Ledger ds [e] [] [] ∧ Spawned s s' e := by
  obtain ⟨ds₁, s₁, ports, opened, calm₁, given⟩ := opening warm fun s' warm' _ =>
    reads_spawn graphId evaluate settings warm'
  have warm₁ := calm₁.warm warm
  obtain ⟨ds₂, s₂, event, runs, calm₂, x, y, point⟩ := read_located settings warm₁ given.event
  have warm₂ := calm₂.warm warm₁
  obtain ⟨ds₃, s₃, e, appears, ledger, spawned⟩ :=
    appear_runs graphId evaluate settings ports x y warm₂ (calm₂.mounts _ given.mounted)
  refine ⟨_, s₃, e, opened.runs ?_, (ledger_idle calm₁.idle).append ((ledger_idle calm₂.idle).append ledger),
    (spawned.after calm₂.toSteady).after calm₁.toSteady⟩
  rw [← point] at appears
  have split : (Builtin.spawnEmoji.effect (environment graphId evaluate settings).settings spawnNode ports).andThen
      (Environment.publishAll spawnNode) =
      (if (ports.value "data_in_event").isNull then Builtin.lastEventValue
        else .done (ports.value "data_in_event")).andThen fun event =>
      (Builtin.appear spawnNode ports (.element overlay) (Builtin.spawnPoint settings event)).andThen
        (Environment.publishAll spawnNode) := by
    have present : ¬ (Value.element overlay).isNull = true := Bool.false_ne_true
    rw [Builtin.spawnEmoji_effect, given.root, if_neg present, Action.done_andThen, Action.andThen_assoc]
    rfl
  rw [split]
  exact (runs.leads_tried _ _).runs appears

/-- What is left of a flight that has settled so. -/
def landing (e : ElementRef) (settled : Except Fault Unit) : Action (List String) :=
  let ended : Action Unit := match settled with
    | .ok _ => .done ()
    | .error f => Action.log "Animation did not finish" (.record [("node", .text "n_fly"), ("error", .text f.line)])
  let flown : Action Ports := ended.andThen fun _ =>
    (Action.log "Animated emoji"
      (.record [("toX", .int 1100), ("toY", .int (-180)), ("durationMs", .int 900)])).andThen fun _ =>
      .done [("data_out_el", .element e)]
  (flown.andThen (Environment.publishAll flyNode)).attempt.andThen
    ((environment graphId evaluate settings).goOn flyNode Builtin.animateFly)

theorem fly_leads {e : ElementRef} (warm : Warm s) (spawned : s.memory.cache.value spawnPort = .element e) :
    ∃ ds s' frames, ((environment graphId evaluate settings).visit "n_fly").Leads s ds s'
      (.ask (.animate (.element e) frames (.int 900)) (landing graphId evaluate settings e)) ∧ Calm s s' ds := by
  obtain ⟨ds, s', ports, opened, calm, rfl⟩ := opening warm fun s' warm' memory =>
    reads_fly graphId evaluate settings warm' (memory ▸ spawned)
  obtain ⟨frames, next, asks, lands⟩ : ∃ frames next,
      ((Builtin.animateFly.effect settings flyNode [("data_in_el", .element e), ("data_in_toX", .int 1100),
        ("data_in_toY", .int (-180)), ("data_in_ms", .int 900), ("data_in_scaleTo", .null)]).andThen
          (Environment.publishAll flyNode)).attempt.andThen
            ((environment graphId evaluate settings).goOn flyNode Builtin.animateFly) =
        .ask (.animate (.element e) frames (.int 900)) next ∧ next = landing graphId evaluate settings e :=
    ⟨_, _, rfl, funext fun settled => by cases settled <;> rfl⟩
  subst lands
  exact ⟨ds, s', frames, asks ▸ opened, calm⟩

theorem landing_calmly (warm : Warm s) (e : ElementRef) (settled : Except Fault Unit) :
    Calmly (landing graphId evaluate settings e settled) s fun ids s' =>
      ids = ["n_remove"] ∧ s'.memory.cache.value flyPort = .element e := by
  have rest : ∀ s, Warm s → Calmly (.ask (.log "Animated emoji"
      (.record [("toX", .int 1100), ("toY", .int (-180)), ("durationMs", .int 900)])) fun _ =>
        .ask (.publish flyPort (.element e)) fun _ =>
          (environment graphId evaluate settings).leave ⟨"n_fly", "exec_out"⟩) s
      fun ids s' => ids = ["n_remove"] ∧ s'.memory.cache.value flyPort = .element e := by
    intro s warm
    refine calmly_log warm fun s₁ warm₁ _ => ?_
    refine calmly_publish (warm₁.publish _ _ (absurd · (by decide)) (absurd · (by decide)) (absurd · (by decide))) ?_
    refine calmly_diagnose ?_ fun s₂ warm₂ memory _ => calmly_done ⟨rfl, ?_⟩
    · exact warm₁.publish _ _ (absurd · (by decide)) (absurd · (by decide)) (absurd · (by decide))
    · rw [memory]
      exact (Cache.value_publish _ _ _ _).trans (if_pos rfl)
  cases settled with
  | ok _ => exact rest s warm
  | error f => exact calmly_log warm fun s₁ warm₁ _ => rest s₁ warm₁

/-- The action of a thread that waits for the flight of an element, or was just told of its end. -/
def Landing (e : ElementRef) : Thread (List String) → Prop
  | .ready a => ∃ settled, a = landing graphId evaluate settings e settled
  | .due _ => False
  | .waiting _ next => next = landing graphId evaluate settings e

theorem flying?_asked (before ds : List Deed) (e : ElementRef) (frames duration : Value)
    (answer : Option (Except Fault Unit)) :
    flying? (before ++ (ds ++ [.asked (.animate (.element e) frames duration) answer])) = some e := by
  rw [← List.append_assoc, flying?_append]
  rfl

theorem ledger_animate (e : ElementRef) (frames duration : Value) (answer : Option (Except Fault Unit)) :
    Ledger [.asked (.animate (.element e) frames duration) answer] [] [e] [] := ⟨rfl, rfl, rfl⟩

/-- A visit of the second node lets the element fly that was published. It waits for the end of the
flight, or else goes on to the next node. -/
theorem fly_visit {e : ElementRef} (warm : Warm s) (spawned : s.memory.cache.value spawnPort = .element e) :
    ∃ ds s', Steady s s' ∧ Ledger ds [] [e] [] ∧
      (((environment graphId evaluate settings).visit "n_fly").Runs s ds s' (.ok ["n_remove"]) ∧
          s'.memory.cache.value flyPort = .element e ∨
        ∃ t, ((environment graphId evaluate settings).visit "n_fly").Suspends s ds s' t ∧
          Landing graphId evaluate settings e t ∧ ∀ before, flying? (before ++ ds) = some e) := by
  obtain ⟨ds, s₁, frames, leads, calm⟩ := fly_leads graphId evaluate settings warm spawned
  obtain ⟨o, stock, met⟩ := s₁.meet_animate (.element e) frames (.int 900)
  have steady : Steady s ⟨s₁.memory, o⟩ := calm.toSteady.trans (.of_stock rfl stock)
  rcases met with ⟨f, met⟩ | met | ⟨gate, met⟩
  · obtain ⟨ds', s', ids, lands, calm', rfl, published⟩ :=
      landing_calmly graphId evaluate settings (steady.warm warm) e (.error f)
    have ledger := (ledger_idle calm.idle).append
      ((ledger_animate e frames (.int 900) (some (.error f))).append (ledger_idle calm'.idle))
    exact ⟨_, s', steady.trans calm'.toSteady, ledger, .inl ⟨leads.runs (.ask met lands), published⟩⟩
  · have ledger := (ledger_idle calm.idle).append (ledger_animate e frames (.int 900) (some (.ok ())))
    exact ⟨_, ⟨s₁.memory, o⟩, steady, ledger, .inr ⟨_, leads.suspends (Action.suspends_later met), ⟨_, rfl⟩,
      fun before => flying?_asked _ _ _ _ _ _⟩⟩
  · have ledger := (ledger_idle calm.idle).append (ledger_animate e frames (.int 900) none)
    exact ⟨_, ⟨s₁.memory, o⟩, steady, ledger, .inr ⟨_, leads.suspends (Action.suspends_atGate met), rfl,
      fun before => flying?_asked _ _ _ _ _ _⟩⟩

/-- The element is out of the mount, and the pulse has nothing left to do. -/
structure Removed (s s' : Scene) (e : ElementRef) : Prop where
  created : s'.outside.host.created = s.outside.host.created
  tree : s'.outside.host.tree = s.outside.host.tree.detach e
  mounts : ∀ id ∈ s.outside.host.mounts, id ∈ s'.outside.host.mounts
  warm : Warm s'

theorem remove_runs {e : ElementRef} (warm : Warm s) (flown : s.memory.cache.value flyPort = .element e) :
    ∃ ds s', ((environment graphId evaluate settings).visit "n_remove").Runs s ds s' (.ok []) ∧
      Ledger ds [] [] [e] ∧ (∀ before, flying? (before ++ ds) = none) ∧ Removed s s' e := by
  obtain ⟨ds, s₁, ports, opened, calm, rfl⟩ := opening warm fun s' warm' memory =>
    reads_remove graphId evaluate settings warm' (memory ▸ flown)
  have warm₁ := calm.warm warm
  obtain ⟨o, met, staging, host⟩ := s₁.meet_destroy warm₁.prompt warm₁.sound e
  have warm₂ : Warm ⟨s₁.memory, o⟩ :=
    ⟨staging ▸ warm₁.prompt, staging ▸ warm₁.sound, host ▸ warm₁.tool, warm₁.emoji, warm₁.event⟩
  let left : Outside := o.log "Removed element" .null
  have logged : left.stock = o.stock := o.stock_log _ _
  have stock : left.stock = ⟨s₁.outside.staging, s₁.outside.host.mounts, s₁.outside.host.created,
      s₁.outside.host.tree.detach e, s₁.outside.host.timeScale⟩ := by
    rw [logged, Outside.stock, staging, host]
  have mounts : left.host.mounts = s₁.outside.host.mounts := congrArg Stock.mounts stock
  refine ⟨_, ⟨s₁.memory, left⟩, opened.runs (.ask met (.ask rfl (Action.runs_done _ _))),
    (ledger_idle calm.idle).append ⟨rfl, rfl, rfl⟩, fun before => ?_, ?_⟩
  · rw [flying?, List.getLast?_append, List.getLast?_append]
    rfl
  exact
    { created := (congrArg Stock.created stock).trans calm.created
      tree := (congrArg Stock.tree stock).trans (by rw [calm.tree])
      mounts := fun id there => mounts ▸ calm.mounts id there
      warm := warm₂.of_stock rfl logged }

end ActionGraph.Demonstration
