import ActionGraph.Proofs.Demonstration.Overlay
import ActionGraph.Proofs.Session.Audience
import ActionGraph.Proofs.Session.Flight
import ActionGraph.Proofs.Session.Stop

/-!
The invariant of the demonstration: where its pulses are, what they did to elements, and what the
mount has of them. Whatever happens next keeps it.
-/

namespace ActionGraph.Demonstration

def listener : Listener := ⟨0, 0, origin, eventPort, "mouseover"⟩

section

variable (graphId : Option String) (evaluate : Script.Evaluator) (settings : Settings)

theorem wanted_eq : (environment graphId evaluate settings).wanted 0 =
    [⟨⟨"#hoverTarget", "mouseover"⟩, listener⟩] := rfl

/-- What holds of every state of the demonstration and all that was done before. -/
structure Flow (r : GraphRun) (s : Session) (h : History) : Prop where
  runs : s.runs = [r]
  environment : r.environment = environment graphId evaluate settings
  warm : Warm (s.scene r)
  tasks : ∀ (i : Nat) (t : Task), s.tasks[i]? = some t → t.run = 0 ∧ t.counted = true ∧ t.cancelled = false ∧
    Phase graphId evaluate settings r.memory.cache (s.running = some i) t.work (h.of i)
  unborn : ∀ i : Nat, s.tasks[i]? = none → h.of i = []
  furnished : Furnished s.outside.host h
  heard : s.outside.Heard listener

end

variable {graphId : Option String} {evaluate : Script.Evaluator} {settings : Settings} {r r' : GraphRun}
  {s s' : Session} {h : History}

theorem Furnished.of_stock {o o' : Outside} (f : Furnished o.host h) (stock : o'.stock = o.stock) :
    Furnished o'.host h := by
  have created : o'.host.created = o.host.created := congrArg Stock.created stock
  have tree : o'.host.tree = o.host.tree := congrArg Stock.tree stock
  have mounts : o'.host.mounts = o.host.mounts := congrArg Stock.mounts stock
  exact ⟨created ▸ f.made, created ▸ f.numbered, tree ▸ f.held, mounts ▸ f.mounted⟩

theorem Flow.still (f : Flow graphId evaluate settings r s h) (runs : s'.runs = [r'])
    (environment : r'.environment = r.environment) (cache : r'.memory.cache = r.memory.cache)
    (stock : s'.outside.stock = s.outside.stock) (heard : s'.outside.Heard listener)
    (unborn : ∀ i : Nat, s'.tasks[i]? = none → s.tasks[i]? = none)
    (tasks : ∀ (i : Nat) (t' : Task), s'.tasks[i]? = some t' → ∃ t, s.tasks[i]? = some t ∧ t'.run = t.run ∧
      t'.counted = t.counted ∧ t'.cancelled = t.cancelled ∧
      (Phase graphId evaluate settings r.memory.cache (s.running = some i) t.work (h.of i) →
        Phase graphId evaluate settings r.memory.cache (s'.running = some i) t'.work (h.of i))) :
    Flow graphId evaluate settings r' s' h where
  runs := runs
  environment := environment.trans f.environment
  warm := f.warm.of_stock cache stock
  tasks i t' task' := by
    obtain ⟨t, task, run, counted, cancelled, phase⟩ := tasks i t' task'
    obtain ⟨run', counted', cancelled', phase'⟩ := f.tasks i t task
    exact ⟨run.trans run', counted.trans counted', cancelled.trans cancelled', cache ▸ phase phase'⟩
  unborn i none := f.unborn i (unborn i none)
  furnished := f.furnished.of_stock stock
  heard := heard

theorem Flow.keeps (f : Flow graphId evaluate settings r s h) {i : Nat} {t : Task} {p : Pulse}
    (task : s.tasks[i]? = some t) (work : t.work = .pulse p) : h.keeps i = true := by
  obtain ⟨_, _, _, phase⟩ := f.tasks i t task
  rw [work] at phase
  rw [History.keeps, phase.keeps]
  rfl

theorem Flow.rest (f : Flow graphId evaluate settings r s h)
    (nothing : ∀ (i : Nat) (t : Task), s.tasks[i]? = some t → s.running = some i → t.work.spent = true) :
    Flow graphId evaluate settings r s.rest h := by
  refine f.still f.runs rfl rfl rfl f.heard (fun _ none => none) fun i t task =>
    ⟨t, task, rfl, rfl, rfl, fun phase => ?_⟩
  by_cases turn : s.running = some i
  · have spent := nothing i t task turn
    generalize t.work = w at spent phase
    generalize h.of i = ds at phase
    cases phase with
    | gone settled ledger => exact .gone settled ledger
    | _ => cases spent
  · exact phase.idle turn

theorem Flow.advancePulse (f : Flow graphId evaluate settings r s h) {i : Nat} {t : Task} {p : Pulse}
    (turn : s.running = some i) (task : s.tasks[i]? = some t) (work : t.work = .pulse p) :
    ∃ r', Flow graphId evaluate settings r' (s.advancePulse i t r p)
      (h ++ History.tagged i (p.visit.deeds (s.scene r) ++ p.arrival (p.visit.perform (s.scene r)).2)) := by
  obtain ⟨run, counted, active, phase⟩ := f.tasks i t task
  rw [work] at phase
  have turned := phase.turn f.warm
  obtain ⟨tasks, runs, outside, running⟩ := s.advancePulse_spec i t r p
  have premises := p.visit.premises_perform (s.scene r)
  refine ⟨{ r with memory := (p.visit.perform (s.scene r)).1.memory }, ?_⟩
  exact
    { runs := by rw [runs, f.runs, run]; rfl
      environment := f.environment
      warm := by
        rw [Session.scene, outside]
        exact turned.warm
      tasks := by
        intro j t' task'
        rw [tasks] at task'
        by_cases own : i = j
        · subst own
          rw [List.getElem?_modify_eq, task] at task'
          cases task'
          rw [History.of_tagged_self]
          refine ⟨run, counted, active, ?_⟩
          have phase' := turned.phase
          rw [← f.environment] at phase'
          refine phase'.mono fun onward => ?_
          rw [running, if_neg (Bool.eq_false_iff.mp onward)]
          exact turn
        · rw [List.getElem?_modify_ne _ _ own] at task'
          obtain ⟨run', counted', active', phase'⟩ := f.tasks j t' task'
          rw [History.of_tagged_other _ own]
          -- The elements in the cache may be others now, but this task is not between two nodes.
          refine ⟨run', counted', active', phase'.idle fun other => own ?_⟩
          exact Option.some.inj (turn.symm.trans other)
      unborn := by
        intro j none
        rw [tasks, List.getElem?_modify] at none
        have absent : s.tasks[j]? = .none := by simpa using none
        have other : i ≠ j := by
          rintro rfl
          rw [task] at absent
          cases absent
        rw [History.of_tagged_other _ other]
        exact f.unborn j absent
      furnished := by
        rw [outside]
        exact f.furnished.effect (f.keeps task work) turned.effect
      heard := f.heard.of_premises (by rw [outside]; exact premises) }

def bearing (r : GraphRun) : Environment × Memory := (r.environment, r.memory)

theorem Flow.alone (f : Flow graphId evaluate settings r s h) (same : s'.runs.map bearing = s.runs.map bearing) :
    ∃ r', s'.runs = [r'] ∧ r'.environment = r.environment ∧ r'.memory = r.memory := by
  rw [f.runs, List.map_singleton] at same
  obtain ⟨r', alone, eq⟩ := List.map_eq_singleton_iff.mp same
  exact ⟨r', alone, congrArg Prod.fst eq, congrArg Prod.snd eq⟩

theorem Flow.between (f : Flow graphId evaluate settings r s h) (idle : s.running = none)
    (runs : s'.runs.map bearing = s.runs.map bearing) (tasks : s'.tasks = s.tasks)
    (stock : s'.outside.stock = s.outside.stock) (heard : s'.outside.Heard listener) :
    ∃ r', Flow graphId evaluate settings r' s' h := by
  obtain ⟨r', alone, environment, memory⟩ := f.alone runs
  refine ⟨r', f.still alone environment (congrArg Memory.cache memory) stock heard (fun i none => tasks ▸ none)
    fun i t task => ⟨t, tasks ▸ task, rfl, rfl, rfl, fun phase => phase.idle ?_⟩⟩
  rw [idle]
  exact nofun

theorem Flow.advance (f : Flow graphId evaluate settings r s h) {i : Nat} (turn : s.running = some i) :
    ∃ r', Flow graphId evaluate settings r' (s.advance i) (h ++ History.tagged i (s.deeds i)) := by
  cases task : s.tasks[i]? with
  | none =>
    have rests : s.advance i = s.rest := by rw [Session.advance, task]
    have deeds : s.deeds i = [] := by rw [Session.deeds, task]
    rw [rests, deeds, History.tagged, List.map_nil, List.append_nil]
    refine ⟨r, f.rest fun j t task' turn' => ?_⟩
    obtain rfl : i = j := Option.some.inj (turn.symm.trans turn')
    rw [task] at task'
    cases task'
  | some t =>
    obtain ⟨run, counted, active, phase⟩ := f.tasks i t task
    have found : s.runs[t.run]? = some r := by rw [run, f.runs]; rfl
    have going : ¬ t.cancelled = true := Bool.eq_false_iff.mp active
    cases work : t.work with
    | pulse p =>
      rw [Session.advance_pulse task active found work, Session.deeds_pulse task active found work]
      exact f.advancePulse turn task work
    | lookup thread =>
      rw [work] at phase
      cases phase
    | ended result =>
      have rests : s.advance i = s.rest := by
        rw [Session.advance, task]
        dsimp only
        rw [if_neg going, found, work]
      have deeds : s.deeds i = [] := by
        rw [Session.deeds, task]
        dsimp only
        rw [if_neg going, found, work]
      rw [rests, deeds, History.tagged, List.map_nil, List.append_nil]
      refine ⟨r, f.rest fun j t' task' turn' => ?_⟩
      obtain rfl : i = j := Option.some.inj (turn.symm.trans turn')
      rw [task] at task'
      cases task'
      rw [work]
      rfl
    | dropped =>
      rw [work] at phase
      cases phase

theorem Flow.step (f : Flow graphId evaluate settings r s h) :
    ∃ r', Flow graphId evaluate settings r' (s.step?.getD s) (h ++ s.deedsOf (.cue .step)) := by
  unfold Session.deedsOf
  cases turned : s.running with
  | some i =>
    rw [Session.step_running turned]
    exact f.advance turned
  | none =>
    rw [List.append_nil]
    cases queued : s.queue with
    | nil => exact ⟨r, by rwa [Session.step_idle turned queued]⟩
    | cons turn rest =>
      rw [Session.step_turn turned queued]
      cases turn with
      | resume i => exact f.between turned rfl rfl rfl f.heard
      | complete i =>
        exact f.between turned (Session.runs_complete (fun _ _ => rfl) i) (Session.tasks_complete i)
          (Session.stock_complete _ i) (f.heard.of_premises (Session.premises_complete _ i))

theorem Flow.begun (f : Flow graphId evaluate settings r s h) (idle : s.running = none) (e : Snapshot) :
    ∃ r', Flow graphId evaluate settings r' (s.beginPulse r listener e) h := by
  let began : Task := ⟨0, true, false, .pulse (.leaving r.environment origin)⟩
  let memory : Memory := ⟨r.memory.cache.publish eventPort (.event e), some e⟩
  have tasks : (s.beginPulse r listener e).tasks = s.tasks ++ [began] := rfl
  have running : (s.beginPulse r listener e).running = none := idle
  have noted : Warm (s.scene { r with memory := { r.memory with lastEvent := some e } }) :=
    ⟨f.warm.prompt, f.warm.sound, f.warm.tool, f.warm.emoji, f.warm.event⟩
  refine ⟨{ r with memory := memory, inFlight := r.inFlight ++ [s.tasks.length] }, ?_⟩
  exact
    { runs := by
        have runs : (s.beginPulse r listener e).runs = (s.runs.modify 0 fun k => { k with memory := memory }).modify 0
          fun k => { k with inFlight := k.inFlight ++ [s.tasks.length] } := rfl
        rw [runs, f.runs]
        rfl
      environment := f.environment
      warm := noted.publish eventPort (.event e) (absurd · (by decide)) (absurd · (by decide)) fun _ => ⟨e, rfl⟩
      tasks := by
        intro i t task
        rw [running]
        rw [tasks] at task
        rcases Nat.lt_or_ge i s.tasks.length with old | new
        · rw [List.getElem?_append_left old] at task
          obtain ⟨run, counted, active, phase⟩ := f.tasks i t task
          exact ⟨run, counted, active, phase.idle (by rw [idle]; exact nofun)⟩
        · rw [List.getElem?_append_right new] at task
          obtain rfl : t = began := List.mem_singleton.mp (List.mem_of_getElem? task)
          have unborn : h.of i = [] := f.unborn i (List.getElem?_eq_none new)
          rw [unborn]
          have begins : Phase graphId evaluate settings memory.cache (none = some i)
            (.pulse (.leaving (Demonstration.environment graphId evaluate settings) origin)) [] := .fresh
          rw [← f.environment] at begins
          exact ⟨rfl, rfl, rfl, begins⟩
      unborn := by
        intro i none
        rw [tasks] at none
        have beyond := List.getElem?_eq_none_iff.mp none
        rw [List.length_append] at beyond
        exact f.unborn i (List.getElem?_eq_none (by omega))
      furnished := f.furnished.of_stock rfl
      heard := f.heard }

theorem Flow.notify (f : Flow graphId evaluate settings r s h) (idle : s.running = none) (payload : Value) :
    (∃ r', Flow graphId evaluate settings r' (s.notify listener payload).1 h) ∧
      (s.notify listener payload).1.running = none := by
  have result := s.notified listener payload
  generalize s.notify listener payload = x at result
  have read : Flow graphId evaluate settings r (s.snapshot listener.eventClass payload).1 h :=
    f.still f.runs rfl rfl rfl f.heard (fun _ none => none) fun _ t task => ⟨t, task, rfl, rfl, rfl, id⟩
  cases result with
  | unarmed _ => exact ⟨⟨r, f⟩, idle⟩
  | refused _ _ _ => exact ⟨⟨r, read⟩, idle⟩
  | @begun k e run _ _ =>
    obtain rfl : k = r := by
      rw [f.runs] at run
      exact (Option.some.inj run).symm
    exact ⟨read.begun idle e, idle⟩

theorem Flow.notifyAll (f : Flow graphId evaluate settings r s h) (idle : s.running = none) (payload : Value)
    {ls : List Listener} (own : ∀ l ∈ ls, l = listener) :
    ∃ r', Flow graphId evaluate settings r' (s.notifyAll payload ls).1 h := by
  refine (Session.notifyAll_keeps (P := fun s => (∃ r', Flow graphId evaluate settings r' s h) ∧ s.running = none)
    payload ?_ ⟨⟨r, f⟩, idle⟩).1
  rintro s l listed ⟨⟨r, f⟩, idle⟩
  obtain rfl := own l listed
  exact f.notify idle payload

theorem Flow.happen (f : Flow graphId evaluate settings r s h) (idle : s.running = none) (c : Channel) (x y : Value) :
    ∃ r', Flow graphId evaluate settings r' (s.happen c x y).1 h := by
  refine f.notifyAll idle (Host.payload c.eventClass x y) fun l listed => ?_
  unfold Host.listeners at listed
  split at listed
  · exact f.heard c l listed
  · cases listed

theorem Flow.call (f : Flow graphId evaluate settings r s h) (idle : s.running = none) (run place : Nat)
    (payload : Value) : ∃ r', Flow graphId evaluate settings r' (s.call run place payload) h := by
  unfold Session.call
  split
  · rename_i l found
    obtain rfl : l = listener := by
      unfold Session.handler? at found
      obtain ⟨k, own, found⟩ := Option.bind_eq_some_iff.mp found
      obtain ⟨w, wanted, rfl⟩ := Option.map_eq_some_iff.mp found
      have place := List.mem_of_find?_eq_some wanted
      rw [f.runs] at own
      obtain ⟨bound, rfl⟩ := List.getElem?_eq_some_iff.mp own
      obtain rfl : run = 0 := Nat.lt_one_iff.mp bound
      have listed : w ∈ r.environment.wanted 0 := place
      rw [f.environment, wanted_eq] at listed
      rw [List.mem_singleton.mp listed]
    exact (f.notify idle payload).1
  · exact ⟨r, f⟩

theorem Flow.settle (f : Flow graphId evaluate settings r s h) (gate : Nat) (result : Except Fault Unit) :
    ∃ r', Flow graphId evaluate settings r' (s.settle gate result).1 h := by
  unfold Session.settle
  split
  · exact ⟨r, f⟩
  · rename_i j _
    let settled : Session := { s with tasks := s.tasks.modify j fun t => { t with work := t.work.settle result } }
    let resumed : Session := settled.enqueue (.resume j)
    have runs : resumed.runs = [r] := f.runs
    refine ⟨r, f.still runs rfl rfl rfl f.heard (fun i none => ?_) fun i t' task' => ?_⟩
    · have none : settled.tasks[i]? = .none := none
      simpa [settled, List.getElem?_modify] using none
    · have task' : settled.tasks[i]? = some t' := task'
      rw [List.getElem?_modify] at task'
      obtain ⟨t, task, rfl⟩ := Option.map_eq_some_iff.mp task'
      by_cases own : j = i
      · rw [if_pos own]
        exact ⟨t, task, rfl, rfl, rfl, fun phase => phase.settle result⟩
      · rw [if_neg own]
        exact ⟨t, task, rfl, rfl, rfl, id⟩

theorem Flow.stop (f : Flow graphId evaluate settings r s h) (idle : s.running = none) (run : Nat) :
    ∃ r', Flow graphId evaluate settings r' (s.stop run) h := by
  refine Session.stop_keeps (P := fun s' => ∃ r', Flow graphId evaluate settings r' s' h) ⟨r, f⟩ run fun ws => ?_
  exact f.between idle (Session.map_modify_same fun _ => rfl) rfl (s.outside.stock_disarm ws) (f.heard.disarm ws)

theorem Flow.prefer (f : Flow graphId evaluate settings r s h) (idle : s.running = none) (place : Nat) :
    ∃ r', Flow graphId evaluate settings r' (s.prefer place) h := by
  unfold Session.prefer
  split
  · exact f.between idle rfl rfl rfl f.heard
  · exact ⟨r, f⟩

theorem Flow.addTarget (f : Flow graphId evaluate settings r s h) (idle : s.running = none) (selector : String) :
    ∃ r', Flow graphId evaluate settings r' (s.addTarget selector) h := by
  have premises : (s.addTarget selector).outside.premises = s.outside.premises := by
    unfold Session.addTarget Outside.premises
    dsimp only [Host.addTarget]
    split <;> rfl
  exact f.between idle rfl rfl (s.stock_addTarget selector) (f.heard.of_premises premises)

theorem Flow.undergo (f : Flow graphId evaluate settings r s h) (idle : s.running = none) (c : Cue) :
    ∃ r', Flow graphId evaluate settings r' (s.undergo (.cue c)) h := by
  cases c with
  | step => exact ⟨r, f⟩
  | prefer place => exact f.prefer idle place
  | addTarget selector => exact f.addTarget idle selector
  | happen channel x y => exact f.happen idle channel x y
  | call run place payload => exact f.call idle run place payload
  | settle gate result => exact f.settle gate result
  | stop run => exact f.stop idle run

theorem Flow.move (f : Flow graphId evaluate settings r s h) (c : Cue) :
    ∃ r', Flow graphId evaluate settings r' (s.move (.cue c)) (h ++ s.deedsOf (.cue c)) := by
  by_cases steps : c = .step
  · subst steps
    exact f.step
  · have other : Move.cue c ≠ .cue .step := fun same => steps (Move.cue.inj same)
    rw [Session.deedsOf_other s other, Session.move_other other, List.append_nil]
    cases turn : s.running with
    | some i => exact ⟨r, f⟩
    | none => exact f.undergo turn c

theorem Flow.follow (f : Flow graphId evaluate settings r s h) (cues : List Cue) :
    ∃ r', Flow graphId evaluate settings r' (s.follow (cues.map .cue)) (h ++ s.history (cues.map .cue)) := by
  induction cues generalizing r s h with
  | nil => exact ⟨r, by rwa [List.map_nil, Session.history, List.append_nil]⟩
  | cons c cues ih =>
    obtain ⟨r', f'⟩ := f.move c
    rw [List.map_cons, Session.history, ← List.append_assoc]
    exact ih f'

/-- The outside at the beginning: a host on which nothing has happened yet, without faults. How fast
it is, which targets it has, and when it answers are open, as are the clock and the sink. -/
def stage (timeScale : Value) (targets : List String) (sticky gated : Bool) (clock : Clock) (sink : Sink) :
    Outside where
  host := { Host.empty timeScale with targets := targets }
  staging := ⟨[], false, sticky, gated⟩
  calls := []
  clock := clock
  sink := sink
  handed := 0
  gates := 0
  trace := #[]

variable (graphId evaluate settings) in
theorem flow_start (timeScale : Value) (targets : List String) (sticky gated : Bool) (clock : Clock) (sink : Sink) :
    ∃ r, Flow graphId evaluate settings r
      ((Session.empty (stage timeScale targets sticky gated clock sink)).start
        (environment graphId evaluate settings)).1 [] := by
  let o := stage timeScale targets sticky gated clock sink
  obtain ⟨r, runs, env, memory⟩ := Session.runs_start (s := .empty o) (environment graphId evaluate settings)
  have stock := Session.stock_start (.empty o) (environment graphId evaluate settings)
  have tasks := Session.tasks_start (s := .empty o) (environment graphId evaluate settings)
  have clean : Warm (⟨.empty, o⟩ : Scene) := ⟨rfl, rfl, .inl rfl, .inl rfl, .inl rfl⟩
  have bare : Furnished o.host [] := ⟨rfl, rfl, Tree.holds_empty overlay, .inl rfl⟩
  have alone : o.Heard listener := fun _ _ listed => nomatch listed
  refine ⟨r, ?_⟩
  exact
    { runs := runs
      environment := env
      warm := clean.of_stock (congrArg Memory.cache memory) stock
      tasks := by
        intro i t task
        rw [tasks] at task
        cases task
      unborn := fun _ _ => rfl
      furnished := bare.of_stock stock
      heard := Session.heard_start alone fun w listed => by
        have listed : w ∈ (environment graphId evaluate settings).wanted 0 := listed
        rw [wanted_eq] at listed
        rw [List.mem_singleton.mp listed] }

end ActionGraph.Demonstration
