import ActionGraph.Proofs.Graph.Checked
import ActionGraph.Proofs.Pulse.Values
import ActionGraph.Proofs.Session.Constants
import ActionGraph.Proofs.Session.Results

/-!
What is in the cache of a run. Nothing in its type says which values a port may have; but with the
built-in behaviors, on a host without a screen, only outputs of the nodes ever hold anything, and what
they hold is what the type of their node says.
-/

namespace ActionGraph

theorem Cache.mem_after {c : Cache} {e : Endpoint × Value} {ws : List (Endpoint × Value)}
    (listed : e ∈ (c.after ws).entries) : e ∈ c.entries ∨ e ∈ ws := by
  induction ws generalizing c with
  | nil => exact .inl listed
  | cons w ws ih =>
    rcases ih listed with old | written
    · rcases Keyed.mem_put old with rfl | old
      · exact .inr List.mem_cons_self
      · exact .inl old
    · exact .inr (List.mem_cons_of_mem _ written)

namespace Outside

/-- What a port of a node of this type may hold. Of mounts and of elements, only those of the host. -/
inductive Fits (o : Outside) : (type port : String) → Value → Prop
  | text (s : String) : Fits o "data.constString" "data_out" (.text s)
  | whole (n : Int) : Fits o "data.constNumber" "data_out" (.int n)
  | fraction (x : Float) : Fits o "data.constNumber" "data_out" (.float x)
  | mount {id : String} : o.Mounts id → Fits o "tool.uiRoot" "tool_out" (.element (.mount id))
  | event (e : Snapshot) : Fits o "event.uiHover" "data_out_event" (.event e)
  | spawned {e : ElementRef} : o.Made e → Fits o "ui.spawnEmoji" "data_out_el" (.element e)
  | flown {v : Value} : v.isNull = false → Fits o "ui.animateFly" "data_out_el" v
  | answered (v : Value) : Fits o "logic.eval" "data_out" v
  | failed (m : String) : Fits o "logic.eval" "error_out" (.record [("message", .text m)])

theorem Fits.declared {o : Outside} {type q : String} {v : Value} (fits : o.Fits type q v) :
    ∃ t, Palette.find? type = some t ∧ ∃ p ∈ t.ports, p.id = q ∧ p.direction = .outward ∧ p.kind ≠ .exec := by
  cases fits <;> exact ⟨_, rfl, by decide⟩

theorem fits_constant {o : Outside} {settings : Settings} {node : Node} {q : String} {v : Value}
    (constant : Builtin.Constant settings node q v) (mounted : ∀ id, v = .element (.mount id) → o.Mounts id) :
    o.Fits node.type q v := by
  cases constant with
  | text type => exact type ▸ .text _
  | number type =>
    rw [type]
    cases Builtin.numberSetting node "value" (.int 0) with
    | int n => exact .whole n
    | float x => exact .fraction x
  | mount type => exact type ▸ .mount (mounted _ rfl)

end Outside

/-- Values of this kind are all something, what the built-in types come to by themselves is of it, and
the scripts of the graph answer an input of it with a value of it. -/
structure Environment.Sustains (env : Environment) (evaluate : Script.Evaluator) (G : Value → Prop) : Prop where
  present : ∀ v, G v → v.isAbsent = false
  own : ∀ v : Value, v.Own → G v
  answers : ∀ node ∈ env.graph.nodes, node.type = "logic.eval" → ∀ input (last : Option Snapshot), G input →
    (evaluate (Value.textOr (node.setting? "code") "") input (last.elim .null Snapshot.toRecord)).Answers G

theorem Value.Own.solid {v : Value} (own : v.Own) : v.Solid := by
  cases own with
  | nothing => exact solid_null
  | text s => exact solid_text s
  | number n => exact solid_number n
  | element e => exact solid_element e
  | event e => exact solid_event e
  | failure m => exact solid_record fun e only => List.mem_singleton.mp only ▸ solid_text m

/-- Scripts that answer something with something sustain what is something throughout. -/
theorem Environment.sustains_solid (env : Environment) {evaluate : Script.Evaluator}
    (answers : ∀ code input event, input.Solid → event.Solid → (evaluate code input event).Answers Value.Solid) :
    env.Sustains evaluate Value.Solid where
  present _ solid := solid.present
  own _ own := own.solid
  answers node _ _ input last given := by
    refine answers _ input _ given ?_
    cases last with
    | none => exact Value.solid_null
    | some e => exact Value.solid_record (by simp)

namespace Session

variable {s : Session} {h before after : Chronicle} {k i : Nat} {env : Environment} {evaluate : Script.Evaluator}
  {G : Value → Prop} {port : Endpoint} {v : Value}

theorem Told.looked (told : s.Told h) (split : h = before ++ after) {d : Deed} (mine : (k, .did i d) ∈ h)
    (found : .asked (.cached port) (some v) ∈ before.history.of i) (present : v.isAbsent = false) :
    v ∈ before.written k port := by
  obtain ⟨earlier, later, own⟩ := List.append_of_mem found
  obtain ⟨start, rest, k', here, _⟩ := Chronicle.split_of own
  have whole : h = start ++ (k', .did i (.asked (.cached port) (some v))) :: (rest ++ after) := by simp [split, here]
  obtain ⟨t, task, rfl⟩ := told.numbered.tasks k i d mine
  have listed : (k', .did i (.asked (.cached port) (some v))) ∈ h := by simp [whole]
  obtain ⟨t', task', rfl⟩ := told.numbered.tasks k' i _ listed
  cases task.symm.trans task'
  have met := (told.recorded.met _ _ _ _ _ whole).cached
  rw [Chronicle.value_memory] at met
  cases last : (start.written t.run port).getLast? with
  | none =>
    rw [last] at met
    rw [met] at present
    cases present
  | some w =>
    rw [last] at met
    obtain rfl : v = w := met
    rw [here, Chronicle.written_append]
    exact List.mem_append_left _ (List.mem_of_getLast? last)

/-- What the host has been asked for it has still. -/
structure Stocked (s : Session) (h : Chronicle) : Prop where
  mounted : s.Mounted h
  made : ∀ k i kind params e,
    (k, .did i (.asked (.create kind params) (some (.ok (.element e))))) ∈ h → s.outside.Made e

section

variable (told : s.Told h) (stocked : s.Stocked h) (environment : s.environment? k = some env)
  (builtin : env.repertoire = Builtin.repertoire evaluate) (sound : s.outside.staging.faults = [])
  (distinct : (env.graph.nodes.map (·.id)).Nodup) (sustains : env.Sustains evaluate G)

include told sound in
theorem Told.made {kind : String} {params : List (String × Value)}
    (asked : .asked (.create kind params) (some (.ok v)) ∈ h.history.of i) :
    ∃ k e, v = .element e ∧ (k, .did i (.asked (.create kind params) (some (.ok v)))) ∈ h := by
  obtain ⟨earlier, later, own⟩ := List.append_of_mem asked
  obtain ⟨start, rest, k, here, _⟩ := Chronicle.split_of own
  obtain ⟨e, same⟩ := (told.recorded.met _ _ _ _ _ here).create sound
  exact ⟨k, e, Except.ok.inj same, by simp [here]⟩

include told stocked sound sustains in
/-- What a node gives is such a value and fits its port, if its first input is such a value. -/
theorem Told.outcome_fits {node : Node} (listed : node ∈ env.graph.nodes) {b : Behavior}
    (known : (Builtin.repertoire evaluate).find? node.type = some b) {inputs : Ports} {ds : List Deed}
    (mine : ∀ d ∈ ds, d ∈ h.history.of i) {q : String} (outcome : Builtin.Outcome evaluate node inputs ds q v)
    (first : ∀ port specs, b.inputs = .wired port :: specs → port ∉ specs.map (·.port) → G (inputs.value port)) :
    G v ∧ s.outside.Fits node.type q v := by
  cases outcome with
  | @spawned kind params v type asked =>
    obtain ⟨k, e, rfl, told⟩ := told.made sound (mine _ asked)
    exact ⟨sustains.own _ (.element e), type ▸ .spawned (stocked.made k i kind params e told)⟩
  | flown type there =>
    rw [type] at known ⊢
    cases known
    exact ⟨first "data_in_el" _ rfl (by decide), .flown there⟩
  | answered type yields =>
    rw [type] at known
    cases known
    have input : G (inputs.value "data_in") := first "data_in" _ rfl (by decide)
    exact ⟨(sustains.answers node listed type _ _ input).yields yields, type ▸ .answered v⟩
  | failed m type => exact ⟨sustains.own _ (.failure m), type ▸ .failed m⟩

include told stocked environment builtin sound distinct sustains

/-- As long as only such values have been published, one more is such a value and fits its port. -/
theorem Told.write_fits (good : ∀ port v, v ∈ before.written k port → G v) {x : Happening}
    (split : h = before ++ (k, x) :: after) (write : x.write? = some (port, v)) :
    G v ∧ ∃ node, env.graph.node? port.node = some node ∧ s.outside.Fits node.type port.port v := by
  cases told.wrote environment ⟨_, builtin⟩ split write with
  | fired wanted own on event =>
    obtain ⟨node, listed, type, _, events⟩ := Environment.wanted_builtin ⟨_, builtin⟩ wanted
    rw [← own, events] at on
    subst on event
    exact ⟨sustains.own _ (.event _), node, Graph.node?_of_mem distinct listed, type ▸ .event _⟩
  | @supplied i answer earlier later own supplies =>
    have mine : h.history.of i = before.history.of i ++ .asked (.publish port v) answer :: after.history.of i := by
      rw [split, Chronicle.of_split]
    cases supplies with
    | intro found known passive _ present yields =>
      obtain ⟨constant, mount⟩ := Builtin.constant_of_supply (builtin ▸ known) passive yields present
        fun d listed => told.given sound i d (by simp [mine, own, listed])
      refine ⟨sustains.own _ constant.own, _, found, Outside.fits_constant constant fun id same => ?_⟩
      have given : .asked (.mount id) (some (.ok v)) ∈ h.history.of i := by simp [mine, own, mount id same]
      exact stocked.mounted.given given
  | @given i answer earlier since own gives =>
    have listed : (k, .did i (.asked (.publish port v) answer)) ∈ h := by simp [split]
    have mine : h.history.of i = before.history.of i ++ .asked (.publish port v) answer :: after.history.of i := by
      rw [split, Chronicle.of_split]
    cases gives with
    | @intro node b first reading doing inputs arrived read gives =>
      obtain ⟨found, known, _⟩ := Environment.found_of_arrive arrived
      have honest : ∀ d ∈ reading, d.Given := fun d listed => told.given sound i d (by simp [mine, own, listed])
      -- Whatever the node has found on a port was published before, so it is such a value.
      have first : ∀ port specs, b.inputs = .wired port :: specs → port ∉ specs.map (·.port) → G (inputs.value port) := by
        intro input specs inputs once
        rw [inputs] at read
        rcases Environment.first_of_readInputs ⟨_, builtin⟩ honest read once with ⟨source, asked, present⟩ | made
        · exact good source _ (told.looked split listed (by simp [own, asked]) present)
        · exact sustains.own _ made
      rw [builtin] at known
      have part : ∀ d ∈ doing, d ∈ h.history.of i := fun d listed => by simp [mine, own, listed]
      have outcome := Builtin.outcome_effect known gives
      have good := told.outcome_fits stocked sound sustains (List.mem_of_find?_eq_some found) known part outcome first
      exact ⟨good.1, node, found, good.2⟩

theorem Told.sustained (split : h = before ++ after) (written : v ∈ before.written k port) : G v := by
  induction before using List.reverseRecOn generalizing after port v with
  | nil => cases written
  | append_singleton front last ih =>
    have begins : h = front ++ (last :: after) := by simp [split]
    have earlier : ∀ port v, v ∈ Chronicle.written front k port → G v := fun port v => ih begins
    rw [Chronicle.written_append] at written
    rcases List.mem_append.mp written with old | new
    · exact earlier port v old
    · rcases Chronicle.written_single k port last with none | ⟨x, w, rfl, write, one⟩
      · rw [none] at new
        cases new
      · rw [one] at new
        cases List.mem_singleton.mp new
        have here : h = front ++ (k, x) :: after := by simp [split]
        exact (told.write_fits stocked environment builtin sound distinct sustains earlier here write).1

theorem Told.fits (written : v ∈ h.written k port) :
    G v ∧ ∃ node, env.graph.node? port.node = some node ∧ s.outside.Fits node.type port.port v := by
  obtain ⟨before, after, x, split, write⟩ := Chronicle.mem_written.mp written
  refine told.write_fits stocked environment builtin sound distinct sustains (fun port v written => ?_) split write
  exact told.sustained stocked environment builtin sound distinct sustains split written

end

/-- The cache is typed. On a host without a screen, whatever happens in a session that begins with it,
let a run have built-in behaviors and a checked graph whose nodes have distinct ids, and let its scripts
not leave some kind of values that are all something. Whatever its cache holds is then on an output of a
node that has such a port, other than those that pulses leave by; it is something, so that a port holds
something exactly if there is a value for it; and it fits its port: a text, a number, a mount of the
host, an event, an element that the host has made, anything but null that was let fly, the answer of a
script, or a record of nothing but a message. -/
theorem cache_typed {o : Outside} (headless : o.Headless) (moves : List Move)
    (environment : ((empty o).follow moves).environment? k = some env)
    (builtin : env.repertoire = Builtin.repertoire evaluate) (checked : env.graph.Checked)
    (distinct : (env.graph.nodes.map (·.id)).Nodup) (sustains : env.Sustains evaluate G) :
    ∀ r, ((empty o).follow moves).runs[k]? = some r →
      (∀ port v, (port, v) ∈ r.memory.cache.entries → v.isAbsent = false ∧
        ∃ node, env.graph.node? port.node = some node ∧
          (∃ p ∈ node.ports, p.id = port.port ∧ p.direction = .outward ∧ p.kind ≠ .exec) ∧
          ((empty o).follow moves).outside.Fits node.type port.port v) ∧
      ∀ port, r.memory.cache.holds port = !(r.memory.cache.value port).isAbsent := by
  intro r run
  have told := told_follow headless.unheard moves
  have sound := headless.sound_follow moves
  have stocked : ((empty o).follow moves).Stocked ((empty o).chronicle moves) :=
    ⟨mounted_follow o moves, fun k i kind params e asked => made_follow o moves asked⟩
  have fits : ∀ port v, (port, v) ∈ r.memory.cache.entries → G v ∧ ∃ node,
      env.graph.node? port.node = some node ∧ ((empty o).follow moves).outside.Fits node.type port.port v := by
    intro port v listed
    rw [told.recorded.memory k r run] at listed
    rcases Cache.mem_after listed with none | written
    · cases none
    · have there : v ∈ ((empty o).chronicle moves).written k port := List.mem_filterMap.mpr ⟨_, written, if_pos rfl⟩
      exact told.fits stocked environment builtin sound distinct sustains there
  refine ⟨fun port v listed => ?_, fun port => ?_⟩
  · obtain ⟨good, node, found, fit⟩ := fits port v listed
    obtain ⟨t, type, p, listed, own, outward, data⟩ := fit.declared
    obtain ⟨t', type', ports⟩ := checked.offered node (List.mem_of_find?_eq_some found)
    cases type.symm.trans type'
    exact ⟨sustains.present v good, node, found, ⟨p, (ports p).mpr listed, own, outward, data⟩, fit⟩
  · unfold Cache.holds Keyed.has Cache.value
    cases there : Keyed.get? port r.memory.cache.entries with
    | none => rfl
    | some v =>
      have present := sustains.present v (fits port v (Keyed.mem_of_get? there)).1
      simp [present]

/-- The trigger of the demonstration is called, with the scripts that are understood. -/
def flying : List Move :=
  [.start (Demonstration.environment none Script.evaluate .standard), .cue (.call 0 0 .null)] ++ .replicate 8 (.cue .step)

theorem cache_typed_flying : ∃ r v, ((empty .fresh).follow flying).runs[0]? = some r ∧
    (Demonstration.emojiPort, v) ∈ r.memory.cache.entries ∧
      ((empty .fresh).follow flying).outside.Fits "data.constString" "data_out" v := by
  have environment := environment?_first .fresh (Demonstration.environment none Script.evaluate .standard) flying.tail
  obtain ⟨r, run⟩ := Option.isSome_iff_exists.mp (by decide +kernel : (((empty .fresh).follow flying).runs[0]?).isSome)
  have typed := cache_typed Outside.headless_fresh flying environment rfl (Demonstration.checked none) (by decide)
    (Environment.sustains_solid _ Script.solid_evaluate) r run
  have holds : (((empty .fresh).follow flying).runs[0]?.map
      fun r => (Keyed.get? Demonstration.emojiPort r.memory.cache.entries).isSome) = some true := by decide +kernel
  rw [run] at holds
  obtain ⟨v, there⟩ := Option.isSome_iff_exists.mp (Option.some.inj holds)
  have listed := Keyed.mem_of_get? there
  obtain ⟨_, node, found, _, fits⟩ := typed.1 _ v listed
  cases found
  exact ⟨r, v, run, listed, fits⟩

end Session

end ActionGraph
