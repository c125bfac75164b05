import ActionGraph.Proofs.Session.Constants
import ActionGraph.Proofs.Session.Events
import ActionGraph.Proofs.Session.Landing
import ActionGraph.Proofs.Session.Replies
import ActionGraph.Proofs.Session.Trail

/-!
Independent pulses do not disturb each other. Of what a secluded pulse sees, constants are the same in
any company, its event is on a port that nobody else writes, and the ports of its own nodes are left
alone by pulses that keep apart. So its answers are those that it would get by itself, and what it does
is the same as without the others, but for the names of elements.
-/

namespace ActionGraph

/-- The pulses of another trigger keep apart from these nodes: their cascade is finite and has none of
them, and neither it nor their trigger feeds any of them. -/
structure Environment.Apart (env : Environment) (nodes : List String) (other : String) : Prop where
  cascade : ∃ others, env.Unfolding (env.targets ⟨other, "exec_out"⟩) others ∧ (∀ n ∈ others, n ∉ nodes) ∧
    ∀ port, env.Feeds nodes port → port.node ∉ others
  trigger : ∀ port, env.Feeds nodes port → port.node ≠ other

namespace Environment

variable {env : Environment}

theorem exit?_of_hover (builtin : env.IsBuiltin)
    (distinct : (env.graph.nodes.map (·.id)).Nodup) {node : Node} (listed : node ∈ env.graph.nodes)
    (type : node.type = "event.uiHover") : env.exit? node.id = none := by
  obtain ⟨evaluate, eq⟩ := builtin
  have known : env.repertoire.find? node.type = some Builtin.uiHover := by
    rw [eq, type]
    rfl
  exact exit?_of_passive (Graph.node?_of_mem distinct listed) known rfl

theorem Determines.exit? {c q : String} {v : Value} (determines : env.Determines c q v) :
    env.exit? c = none := by
  obtain ⟨node, b, found, known, _, idle, _⟩ := determines.producer
  exact Graph.id_of_node? found ▸ exit?_of_passive found known idle

theorem Unfolding.runs {ids nodes : List String} (unfolding : env.Unfolding ids nodes) :
    ∀ n ∈ nodes, (env.exit? n).isSome := by
  induction unfolding with
  | nil => nofun
  | skip _ _ ih => exact ih
  | emit exit _ _ ihBelow ihBeyond =>
    intro n listed
    rcases List.mem_cons.mp listed with rfl | listed
    · simp [exit]
    · rcases List.mem_append.mp listed with listed | listed
      · exact ihBelow n listed
      · exact ihBeyond n listed

theorem Feeds.edge {nodes : List String} {port : Endpoint} (feeds : env.Feeds nodes port) :
    ∃ edge ∈ env.graph.edges, edge.target.node ∈ nodes ∧ edge.source = port := by
  cases feeds with
  | intro own _ _ fed =>
    have target := List.find?_some fed
    exact ⟨_, List.mem_of_find?_eq_some fed, by rw [beq_iff_eq] at target; rw [target]; exact own, rfl⟩

theorem Supplies.determined (builtin : env.IsBuiltin) {port : Endpoint} {v : Value} {ds : List Deed}
    (supplies : env.Supplies port v ds) : ∃ w, env.Determines port.node port.port w := by
  obtain ⟨evaluate, eq⟩ := builtin
  cases supplies with
  | @intro producer b existing supplied line found known passive vain present yields =>
    rcases @Builtin.constant_or_absent env.settings producer evaluate b (eq ▸ known) passive port.port with
      ⟨w, constant⟩ | none
    · exact ⟨w, ⟨evaluate, eq⟩, producer, found, constant⟩
    · rw [none] at yields
      obtain ⟨_, rfl⟩ := Action.yields_done.mp yields
      cases present

end Environment

namespace Session

/-- Among whatever else happens in a session, a trigger of a run fires once, and the other triggers of
the run that fire keep apart from these nodes. -/
structure Among (o : Outside) (moves : List Move) (k : Nat) (env : Environment) (trigger : String) (nodes : List String)
    (f : Firing) : Prop where
  environment : ((empty o).follow moves).environment? k = some env
  once : ((empty o).chronicle moves).firingsOf k trigger = [f]
  others : ∀ g ∈ ((empty o).chronicle moves).firings k, g.listener.origin.node ≠ trigger →
    env.Apart nodes g.listener.origin.node

/-- What a run publishes on a port is what one of its pulses publishes for a node that it has run. -/
def Reserved (h : Chronicle) (k i : Nat) (env : Environment) (port : Endpoint) : Prop :=
  ∀ x v, (k, x) ∈ h → x.write? = some (port, v) → (∃ d, x = .did i d) ∧ (env.exit? port.node).isSome

variable {s : Session} {h before after : Chronicle} {k : Nat} {env : Environment} {port : Endpoint}

section

variable (told : s.Told h) (trailed : s.Trailed h) (environment : s.environment? k = some env)
  (builtin : env.IsBuiltin)

include told environment builtin

theorem Told.firing {g : Firing} (fired : (k, .fired g) ∈ h) : ∃ node ∈ env.graph.nodes,
    node.type = "event.uiHover" ∧ g.listener.origin = ⟨node.id, "exec_out"⟩ ∧
      g.listener.eventPort = ⟨node.id, "data_out_event"⟩ := by
  obtain ⟨rfl, env', environment', w, wanted, own⟩ := told.attended.fired k g fired
  cases environment.symm.trans environment'
  exact own ▸ Environment.wanted_builtin builtin wanted

omit builtin in
/-- Whatever a task of a run does, a firing in the run has begun the task. -/
theorem Told.begun {i : Nat} {d : Deed} (trailed : s.Trailed h) (done : (k, .did i d) ∈ h) :
    ∃ g, (k, .fired g) ∈ h ∧ g.task = i := by
  obtain ⟨before, after, split⟩ := List.append_of_mem done
  obtain ⟨⟨k', x⟩, earlier, same⟩ := List.mem_filterMap.mp (told.numbered.earlier before after k i d split)
  cases x with
  | did j d' => cases same
  | fired g =>
    obtain rfl : g.task = i := Option.some.inj same
    have fired : (k', .fired g) ∈ h := split ▸ List.mem_append_left _ earlier
    obtain ⟨t, task, rfl⟩ := told.numbered.tasks k _ d done
    obtain ⟨t', _, task', rfl, _⟩ := trailed k' g fired
    cases task.symm.trans task'
    exact ⟨g, fired, rfl⟩

include trailed

/-- A port is reserved for the pulse that fired, if it is neither a constant nor its event, and those of
the others do not come to its node. -/
theorem Told.reserved {f : Firing} {trigger : String} (once : h.firingsOf k trigger = [f])
    (undetermined : ∀ v, ¬ env.Determines port.node port.port v) (eventless : port ≠ ⟨trigger, "data_out_event"⟩)
    (foreign : ∀ g ∈ h.firings k, g.listener.origin.node ≠ trigger → port.node ≠ g.listener.origin.node ∧
      ∃ others, env.Unfolding (env.targets ⟨g.listener.origin.node, "exec_out"⟩) others ∧ port.node ∉ others) :
    Reserved h k f.task env port := by
  intro x v happened write
  obtain ⟨before, after, split⟩ := List.append_of_mem happened
  cases told.wrote environment builtin split write with
  | @fired g w wanted own on value =>
    obtain ⟨node, _, _, origin, events⟩ := told.firing environment builtin happened
    have place : port.node = g.listener.origin.node := by rw [← on, events, origin]
    by_cases mine : g.listener.origin.node = trigger
    · refine absurd ?_ eventless
      rw [← on, events, ← mine, origin]
    · exact absurd place (foreign g ((h.mem_firings k).mpr happened) mine).1
  | supplied _ supplies =>
    obtain ⟨w, determines⟩ := Environment.Supplies.determined builtin supplies
    exact absurd determines (undetermined w)
  | @given j answer earlier since own gives =>
    have runs : (env.exit? port.node).isSome := by
      cases gives with
      | intro arrived _ _ => simp [Environment.exit?, arrived]
    obtain ⟨g, fired, rfl⟩ := told.begun environment trailed happened
    by_cases mine : g.listener.origin.node = trigger
    · have listed : g ∈ h.firingsOf k trigger := List.mem_filter.mpr ⟨(h.mem_firings k).mpr fired, decide_eq_true mine⟩
      rw [once] at listed
      cases List.mem_singleton.mp listed
      exact ⟨⟨_, rfl⟩, runs⟩
    · obtain ⟨_, others, cascade, outside⟩ := foreign g ((h.mem_firings k).mpr fired) mine
      obtain ⟨node, _, _, origin, _⟩ := told.firing environment builtin fired
      obtain ⟨t, env', _, _, environment', way⟩ := trailed k g fired
      cases environment.symm.trans environment'
      rw [origin] at cascade
      have came : .arrived port.node ∈ h.history.of g.task := by
        rw [split, Chronicle.of_split, own]
        simp
      exact absurd ((way builtin others (by rwa [origin])).comes came runs) outside

end

theorem Reserved.written {i : Nat} (reserved : Reserved h k i env port) (numbered : s.Numbered h)
    {t : Task} (task : s.tasks[i]? = some t) (run : t.run = k) (split : h = before ++ after) :
    before.written k port = Cache.valuesOn port (env.produced (before.history.of i)) := by
  simp only [Chronicle.written, Chronicle.writes, Chronicle.of, Cache.valuesOn, Environment.produced, History.of,
    Chronicle.history, List.filterMap_filterMap, ← List.filterMap_eq_filter]
  refine List.filterMap_congr fun x happened => ?_
  have told : x ∈ h := split ▸ List.mem_append_left _ happened
  obtain ⟨j, x⟩ := x
  by_cases own : j = k
  · subst own
    cases x with
    | fired g =>
      have elsewhere : g.listener.eventPort ≠ port := by
        rintro rfl
        obtain ⟨⟨d, same⟩, _⟩ := reserved _ (.event g.snapshot) told rfl
        cases same
      simp [Happening.write?, Happening.deed?, elsewhere]
    | did l d =>
      cases write : d.write? with
      | none => by_cases mine : l = i <;> simp [Happening.write?, Happening.deed?, write, mine]
      | some w =>
        obtain ⟨q, v⟩ := w
        by_cases on : q = port
        · subst on
          obtain ⟨⟨d', same⟩, runs⟩ := reserved (.did l d) v told write
          cases same
          simp [Happening.write?, Happening.deed?, write, Option.guard, runs]
        · by_cases mine : l = i <;> by_cases runs : (env.exit? q.node).isSome <;>
            simp [Happening.write?, Happening.deed?, write, mine, Option.guard, runs, on]
  · cases x with
    | fired g => simp [Happening.deed?, own]
    | did l d =>
      have other : l ≠ i := by
        rintro rfl
        obtain ⟨t', task', rfl⟩ := numbered.tasks j l d told
        cases task.symm.trans task'
        exact own run
      simp [Happening.deed?, own, other]

section

variable {o : Outside} {moves : List Move} {trigger : String} {nodes : List String} {f : Firing}

theorem Among.fired (among : Among o moves k env trigger nodes f) :
    (k, .fired f) ∈ (empty o).chronicle moves ∧ f.listener.origin.node = trigger := by
  have listed : f ∈ ((empty o).chronicle moves).firingsOf k trigger := among.once ▸ List.mem_singleton_self f
  obtain ⟨fired, own⟩ := List.mem_filter.mp listed
  exact ⟨(Chronicle.mem_firings _ k).mp fired, of_decide_eq_true own⟩

section

variable (headless : o.Headless) (builtin : env.IsBuiltin) (distinct : (env.graph.nodes.map (·.id)).Nodup)
  (among : Among o moves k env trigger nodes f)

include headless builtin among

/-- Ports that feed the nodes are reserved, but for those of constants and of the event. -/
theorem Among.reserved_feed (feeds : env.Feeds nodes port) (undetermined : ∀ v, ¬ env.Determines port.node port.port v)
    (eventless : port ≠ ⟨trigger, "data_out_event"⟩) : Reserved ((empty o).chronicle moves) k f.task env port := by
  refine (told_follow headless.unheard moves).reserved (trailed_follow o moves) among.environment builtin among.once
    undetermined eventless fun g fired other => ?_
  have apart := among.others g fired other
  obtain ⟨others, cascade, _, unfed⟩ := apart.cascade
  exact ⟨apart.trigger port feeds, others, cascade, unfed port feeds⟩

theorem Among.trails (secluded : env.Secluded trigger nodes) : ∃ t, ((empty o).follow moves).tasks[f.task]? = some t ∧
    t.work.Trails env ⟨trigger, "exec_out"⟩ (((empty o).history moves).of f.task) := by
  obtain ⟨fired, own⟩ := among.fired
  obtain ⟨node, _, _, origin, _⟩ := (told_follow headless.unheard moves).firing among.environment builtin fired
  obtain ⟨t, env', task, _, environment, way⟩ := trailed_follow o moves k f fired
  cases among.environment.symm.trans environment
  have place : f.listener.origin = ⟨trigger, "exec_out"⟩ := by rw [← own, origin]
  have trails := (way builtin nodes (place ▸ secluded.cascade)).trails
  rw [place, history_chronicle] at trails
  exact ⟨t, task, trails⟩

/-- Once it has no turn to come, the pulse has ended, unless it was given up. -/
theorem Among.over (ungated : o.staging.gated = false) (secluded : env.Secluded trigger nodes)
    (idle : ((empty o).follow moves).turns f.task = 0) :
    (∃ v, ((empty o).follow moves).result? f.task = some (.ok v)) ∨
      ∃ t, ((empty o).follow moves).tasks[f.task]? = some t ∧ t.work = .dropped := by
  obtain ⟨t, task, trails⟩ := among.trails headless builtin secluded
  have going := (routine_follow ⟨headless.sound, ungated, rfl⟩ moves).going f.task t task
  have turns := (landing_follow o moves).turns f.task
  rw [idle, task] at turns
  cases work : t.work with
  | pulse p =>
    rw [work] at going
    simp [Task.ready, Work.spent, work, going] at turns
  | lookup thread =>
    rw [work] at trails
    exact trails.elim
  | ended result =>
    rw [work] at trails
    cases result with
    | ok v => exact .inl ⟨v, by simp [result?, task, work, Work.result?]⟩
    | error e => exact trails.elim
  | dropped => exact .inr ⟨t, task, work⟩

include distinct

theorem Among.trigger_idle : env.exit? trigger = none := by
  obtain ⟨fired, rfl⟩ := among.fired
  obtain ⟨node, listed, type, origin, _⟩ := (told_follow headless.unheard moves).firing among.environment builtin fired
  rw [origin]
  exact Environment.exit?_of_hover builtin distinct listed type

theorem Among.reserved_own (secluded : env.Secluded trigger nodes) {n : String} (own : n ∈ nodes) (q : String) :
    Reserved ((empty o).chronicle moves) k f.task env ⟨n, q⟩ := by
  have told := told_follow headless.unheard moves
  have runs := secluded.cascade.runs n own
  refine told.reserved (trailed_follow o moves) among.environment builtin among.once (fun v determines => ?_) ?_
    fun g fired other => ⟨?_, ?_⟩
  · rw [determines.exit?] at runs
    cases runs
  · intro same
    obtain rfl : n = trigger := congrArg Endpoint.node same
    rw [among.trigger_idle headless builtin distinct] at runs
    cases runs
  · rintro rfl
    obtain ⟨node, listed, type, origin, _⟩ := told.firing among.environment builtin ((Chronicle.mem_firings _ k).mp fired)
    rw [origin, Environment.exit?_of_hover builtin distinct listed type] at runs
    cases runs
  · obtain ⟨others, cascade, outside, _⟩ := (among.others g fired other).cascade
    exact ⟨others, cascade, fun listed => outside n listed own⟩

theorem Among.event {before after : Chronicle} {d : Deed}
    (split : (empty o).chronicle moves = before ++ (k, .did f.task d) :: after) :
    (before.memory k).cache.value ⟨trigger, "data_out_event"⟩ = .event f.snapshot := by
  have told := told_follow headless.unheard moves
  obtain ⟨fired, own⟩ := among.fired
  obtain ⟨node, listed, type, origin, _⟩ := told.firing among.environment builtin fired
  have place : node.id = trigger := by rw [← own, origin]
  have triggers : env.repertoire.trigger? node =
      some (Builtin.uiHover, ⟨"data_out_event", "#hoverTarget", "mouseover"⟩) := by
    obtain ⟨evaluate, eq⟩ := builtin
    rw [Repertoire.trigger?, eq, type]
    rfl
  have written := told.written_events among.environment builtin distinct listed triggers split
  have first : (((empty o).chronicle moves).firingsOf k trigger)[0]? = some f := by rw [among.once]; rfl
  have earlier := told.numbered.fired_before split first
  have whole := among.once
  rw [split, Chronicle.firingsOf_append] at whole
  have only : before.firingsOf k trigger = [f] := by
    cases firings : before.firingsOf k trigger with
    | nil => simp [firings] at earlier
    | cons g rest =>
      rw [firings, List.cons_append] at whole
      obtain ⟨rfl, none⟩ := List.cons.inj whole
      rw [(List.append_eq_nil_iff.mp none).1]
  rw [place, only] at written
  rw [Chronicle.value_memory, written]
  rfl

/-- Whatever the pulse is told of a port that feeds its nodes is what it sees there by itself. -/
theorem Among.sees {before after : Chronicle} {d : Deed}
    (split : (empty o).chronicle moves = before ++ (k, .did f.task d) :: after) (feeds : env.Feeds nodes port)
    (flight : Value → Except Fault Unit) :
    Solo.Sees ⟨env, trigger, f.snapshot, nodes, flight⟩ (before.history.of f.task) port
        ((before.memory k).cache.value port) ∨
      (before.memory k).cache.value port = .absent ∧ ∃ v, env.Determines port.node port.port v := by
  have told := told_follow headless.unheard moves
  have sound := headless.sound_follow moves
  by_cases constant : ∃ v, env.Determines port.node port.port v
  · obtain ⟨v, determines⟩ := constant
    rcases told.constant_cached among.environment determines sound split with ⟨absent, _⟩ | ⟨known, _⟩
    · exact .inr ⟨absent, v, determines⟩
    · exact .inl (known ▸ .constant determines)
  · have undetermined : ∀ v, ¬ env.Determines port.node port.port v := fun v determines => constant ⟨v, determines⟩
    by_cases event : port = ⟨trigger, "data_out_event"⟩
    · subst event
      rw [among.event headless builtin distinct split]
      exact .inl (.event rfl)
    · have reserved := among.reserved_feed headless builtin feeds undetermined event
      obtain ⟨t, _, task, run, _⟩ := trailed_follow o moves k f among.fired.1
      have written := reserved.written told.numbered task run split
      have value : (before.memory k).cache.value port =
          (Cache.empty.after (env.produced (before.history.of f.task))).value port := by
        rw [Chronicle.value_memory, written, Cache.value_after]
        rfl
      rw [value]
      exact .inl (.own undetermined event)

/-- The pulse is answered as if it were by itself. -/
theorem Among.honest (ungated : o.staging.gated = false) :
    Solo.Honestly ⟨env, trigger, f.snapshot, nodes, o.host.timeScale.flight⟩ []
      (((empty o).chronicle moves).history.of f.task) := by
  have told := told_follow headless.unheard moves
  refine Solo.honestly_of_splits fun pre d rest own => ?_
  rw [List.nil_append]
  obtain ⟨before, after, k', split, rfl⟩ := Chronicle.split_of own
  have done : (k', .did f.task d) ∈ (empty o).chronicle moves := by simp [split]
  obtain rfl : k' = k := by
    obtain ⟨t, task, rfl⟩ := told.numbered.tasks k' f.task d done
    obtain ⟨t', _, task', own, _⟩ := trailed_follow o moves k f among.fired.1
    cases task.symm.trans task'
    exact own
  have usual := (routine_follow ⟨headless.sound, ungated, rfl⟩ moves).answered _ _ _ done
  cases d with
  | arrived id => trivial
  | asked r x =>
    cases x with
    | none => cases r <;> exact usual.elim
    | some x =>
      cases r with
      | cached port =>
        intro w same feeds
        obtain rfl := Option.some.inj same
        have met := (told.recorded.met before after k' f.task _ split).cached
        rw [met]
        exact among.sees headless builtin distinct split feeds _
      | create kind params =>
        obtain ⟨e, rfl⟩ := usual
        obtain ⟨once, made⟩ := (bears_follow o moves).fresh
        have spawned : ((empty o).chronicle moves).history.spawned =
            before.history.spawned ++ (f.task, e) :: after.history.spawned := by
          simp [split, Chronicle.history, Happening.deed?, History.spawned, Deed.created?]
        rw [spawned, List.map_append, List.map_cons] at once made
        refine ⟨e, rfl, fun listed => ?_, fun id same => ?_⟩
        · have earlier : e ∈ before.history.spawned.map Prod.snd :=
            List.mem_map_of_mem (f := Prod.snd) (History.mem_spawned.mpr listed)
          exact (List.nodup_append.mp once).2.2 e earlier e List.mem_cons_self rfl
        · exact made id (List.mem_append_right _ (same ▸ List.mem_cons_self))
      | mount id => exact congrArg some usual
      | animate handle keyframes duration => exact congrArg some usual
      | destroy handle => exact congrArg some usual
      | _ => trivial

/-- What the pulse has done is the beginning of a whole way on which it is answered as if it were by
itself, and all of it if the pulse has ended. -/
theorem Among.completed (ungated : o.staging.gated = false) (secluded : env.Secluded trigger nodes) :
    ∃ more, env.Whole ⟨trigger, "exec_out"⟩ (((empty o).history moves).of f.task ++ more) ∧
      Solo.Honestly ⟨env, trigger, f.snapshot, nodes, o.host.timeScale.flight⟩ []
        (((empty o).history moves).of f.task ++ more) ∧
      (∀ v, ((empty o).follow moves).result? f.task = some (.ok v) → more = []) := by
  have honest := among.honest headless builtin distinct ungated
  obtain ⟨t, task, trails⟩ := among.trails headless builtin secluded
  rw [history_chronicle] at honest
  by_cases finished : ∃ v, ((empty o).follow moves).result? f.task = some (.ok v)
  · obtain ⟨v, ended⟩ := finished
    have work : t.work = .ended (.ok v) := by
      cases work : t.work <;> simp_all [result?, Work.result?]
    rw [work] at trails
    have whole : env.Whole ⟨trigger, "exec_out"⟩ (((empty o).history moves).of f.task) := trails
    exact ⟨[], by simpa using whole, by simpa using honest, fun _ _ => rfl⟩
  · obtain ⟨earlier, a, pending, since, b, split, underway, reached⟩ := trails.begins
    rw [split] at honest ⊢
    obtain ⟨more, whole, honestly⟩ := Solo.exists_whole builtin underway reached honest
    exact ⟨more, whole, honestly, fun v ended => absurd ⟨v, ended⟩ finished⟩

theorem Among.kept (secluded : env.Secluded trigger nodes) {n : String} (own : n ∈ nodes) (q : String) {r : GraphRun}
    (run : ((empty o).follow moves).runs[k]? = some r) : r.memory.cache.value ⟨n, q⟩ =
      (Cache.empty.after (env.produced (((empty o).history moves).of f.task))).value ⟨n, q⟩ := by
  have told := told_follow headless.unheard moves
  obtain ⟨t, _, task, place, _⟩ := trailed_follow o moves k f among.fired.1
  have written := (among.reserved_own headless builtin distinct secluded own q).written told.numbered task place
    (List.append_nil _).symm
  rw [told.recorded.memory k r run, Chronicle.value_memory, written, history_chronicle, Cache.value_after]
  rfl

end

end

theorem firings_steps (s : Session) (moves : List Move) (n k : Nat) :
    (s.chronicle (moves ++ .replicate n (.cue .step))).firings k = (s.chronicle moves).firings k := by
  induction moves generalizing s with
  | nil =>
    induction n generalizing s with
    | zero => rfl
    | succ n ih =>
      have none : s.firingsOf (.cue .step) = [] := by
        unfold firingsOf
        split <;> rfl
      have turn : (s.turnOf (.cue .step)).firings k = [] := by
        unfold turnOf
        dsimp only
        split
        · split
          · exact Chronicle.firings_deeds ..
          · rfl
        · rfl
      have more := ih (s.move (.cue .step))
      rw [List.nil_append] at more ⊢
      rw [List.replicate_succ]
      simp only [chronicle, happenings, none, List.map_nil, List.nil_append, Chronicle.firings_append, turn, more]
  | cons m moves ih => rw [List.cons_append, chronicle, chronicle, Chronicle.firings_append, Chronicle.firings_append, ih]

/-- What a task did in a session that others can see: the log entries it made, and what it asked the
host to make, to animate and to take out, in order. -/
def seen (o : Outside) (moves : List Move) (i : Nat) : List Request := Deed.acts (((empty o).history moves).of i)

/-- The task has come to its end in a session. -/
def Finished (o : Outside) (moves : List Move) (i : Nat) : Prop :=
  ∃ v, ((empty o).follow moves).result? i = some (.ok v)

instance (o : Outside) (moves : List Move) (i : Nat) : Decidable (Finished o moves i) :=
  match result : ((empty o).follow moves).result? i with
  | some (.ok v) => .isTrue ⟨v, result⟩
  | some (.error _) => .isFalse fun ⟨_, done⟩ => nomatch result.symm.trans done
  | none => .isFalse fun ⟨_, done⟩ => nomatch result.symm.trans done

/-- Independent pulses do not disturb each other. On a host without a screen that holds no animation back,
let a trigger of a run with built-in behaviors and distinct node ids fire once in each of two sessions, with
the same event, among whatever else happens in either. Let its pulses come to finitely many nodes that
evaluate no scripts and spawn where the event was, and let those of the other triggers that fire keep apart
from these nodes. Then the pulse logs, makes, animates and takes out the same in both sessions, in the same
order, up to a renaming of the elements, one to one. Once it has ended in one of them it does no more than
that in the other; and once it has ended in both, the ports of its nodes hold the same. It has ended as soon
as it has no turn to come, unless it was given up. -/
theorem pulses_independent {o : Outside} (headless : o.Headless) (ungated : o.staging.gated = false)
    (builtin : env.IsBuiltin) (distinct : (env.graph.nodes.map (·.id)).Nodup) {trigger : String} {nodes : List String}
    (secluded : env.Secluded trigger nodes) {moves moves' : List Move} {k k' : Nat} {f f' : Firing}
    (here : Among o moves k env trigger nodes f) (there : Among o moves' k' env trigger nodes f')
    (same : f'.snapshot = f.snapshot) :
    ∃ ρ, Renaming ρ ∧
      (∀ (n : Nat) r r', (seen o moves f.task)[n]? = some r → (seen o moves' f'.task)[n]? = some r' → r.Renamed ρ r') ∧
      (Finished o moves f.task → (seen o moves' f'.task).length ≤ (seen o moves f.task).length) ∧
      (Finished o moves' f'.task → (seen o moves f.task).length ≤ (seen o moves' f'.task).length) ∧
      (Finished o moves f.task → Finished o moves' f'.task → ∀ n ∈ nodes, ∀ q r r',
        ((empty o).follow moves).runs[k]? = some r → ((empty o).follow moves').runs[k']? = some r' →
          (r.memory.cache.value ⟨n, q⟩).Linked ρ (r'.memory.cache.value ⟨n, q⟩)) ∧
      (((empty o).follow moves).turns f.task = 0 → Finished o moves f.task ∨
        ∃ t, ((empty o).follow moves).tasks[f.task]? = some t ∧ t.work = .dropped) := by
  obtain ⟨more, whole, honest, all⟩ := here.completed headless builtin distinct ungated secluded
  obtain ⟨more', whole', honest', all'⟩ := there.completed headless builtin distinct ungated secluded
  rw [same] at honest'
  have level := Solo.level_whole (p := ⟨env, trigger, f.snapshot, nodes, o.host.timeScale.flight⟩) builtin secluded honest
    honest' whole whole'
  obtain ⟨once, made⟩ := Solo.births_of_honestly honest List.nodup_nil nofun
  obtain ⟨once', made'⟩ := Solo.births_of_honestly honest' List.nodup_nil nofun
  have acts := level.acts
  rw [Deed.acts_append, Deed.acts_append] at acts
  have lengths := acts.length_eq
  rw [List.length_append, List.length_append] at lengths
  refine ⟨_, renaming_paired once once' made made', fun n r r' act act' => ?_, ?_, ?_, ?_, ?_⟩
  · have here : (seen o moves f.task ++ Deed.acts more)[n]? = some r :=
      (List.getElem?_append_left (List.getElem?_eq_some_iff.mp act).1).trans act
    have there : (seen o moves' f'.task ++ Deed.acts more')[n]? = some r' :=
      (List.getElem?_append_left (List.getElem?_eq_some_iff.mp act').1).trans act'
    obtain ⟨bound, rfl⟩ := List.getElem?_eq_some_iff.mp here
    obtain ⟨bound', rfl⟩ := List.getElem?_eq_some_iff.mp there
    exact acts.get bound bound'
  · rintro ⟨v, ended⟩
    obtain rfl := all v ended
    have none : (Deed.acts []).length = 0 := rfl
    unfold seen
    omega
  · rintro ⟨v, ended⟩
    obtain rfl := all' v ended
    have none : (Deed.acts []).length = 0 := rfl
    unfold seen
    omega
  · rintro ⟨v, ended⟩ ⟨v', ended'⟩ n own q r r' run run'
    obtain rfl := all v ended
    obtain rfl := all' v' ended'
    rw [here.kept headless builtin distinct secluded own q run, there.kept headless builtin distinct secluded own q run']
    have produced := level.produced
    rw [List.append_nil, List.append_nil] at produced
    have nothing : ∀ ρ, (Cache.empty.value ⟨n, q⟩).Linked ρ (Cache.empty.value ⟨n, q⟩) := fun _ => .atom rfl
    simpa using Solo.value_linked produced ⟨n, q⟩ (nothing _)
  · exact here.over headless builtin ungated secluded

end Session

namespace Neighbors

/-- Two triggers, whose pulses spawn the same emoji; one of them lets it fly. -/
def graph : Graph where
  schemaVersion := Graph.currentSchema
  graphId := none
  name := none
  nodes := [⟨"hover", "event.uiHover", none, none, [], []⟩, ⟨"leave", "event.uiHover", none, none, [], []⟩,
    ⟨"emoji", "data.constString", none, none, [], []⟩, ⟨"spawn", "ui.spawnEmoji", none, none, [], []⟩,
    ⟨"fly", "ui.animateFly", none, none, [], []⟩, ⟨"other", "ui.spawnEmoji", none, none, [], []⟩]
  edges := [⟨"e1", .exec, ⟨"hover", "exec_out"⟩, ⟨"spawn", "exec_in"⟩⟩,
    ⟨"e2", .exec, ⟨"spawn", "exec_out"⟩, ⟨"fly", "exec_in"⟩⟩,
    ⟨"e3", .exec, ⟨"leave", "exec_out"⟩, ⟨"other", "exec_in"⟩⟩,
    ⟨"e4", .data, ⟨"hover", "data_out_event"⟩, ⟨"spawn", "data_in_event"⟩⟩,
    ⟨"e5", .data, ⟨"leave", "data_out_event"⟩, ⟨"other", "data_in_event"⟩⟩,
    ⟨"e6", .data, ⟨"emoji", "data_out"⟩, ⟨"spawn", "data_in_emoji"⟩⟩,
    ⟨"e7", .data, ⟨"emoji", "data_out"⟩, ⟨"other", "data_in_emoji"⟩⟩,
    ⟨"e8", .data, ⟨"spawn", "data_out_el"⟩, ⟨"fly", "data_in_el"⟩⟩]

def environment : Environment := ⟨graph, Builtin.repertoire fun _ _ _ => .ended (.ok .null), .standard⟩

theorem secluded : environment.Secluded "hover" ["spawn", "fly"] where
  cascade := by
    have fly : environment.Unfolding ["fly"] ("fly" :: ([] ++ [])) := .emit rfl .nil .nil
    have spawn : environment.Unfolding ["spawn"] ("spawn" :: (["fly"] ++ [])) := .emit rfl fly .nil
    exact spawn
  scriptless n own node found := by
    rcases List.mem_cons.mp own with rfl | own
    · cases found
      decide
    · cases List.mem_singleton.mp own
      cases found
      decide
  located n own node found type := by
    rcases List.mem_cons.mp own with rfl | own
    · exact ⟨_, rfl, rfl⟩
    · cases List.mem_singleton.mp own
      cases found
      exact absurd type (by decide)

theorem apart : environment.Apart ["spawn", "fly"] "leave" := by
  have unfed : ∀ edge ∈ graph.edges, edge.target.node ∈ ["spawn", "fly"] →
      edge.source.node ≠ "other" ∧ edge.source.node ≠ "leave" := by decide
  have other : environment.Unfolding ["other"] ("other" :: ([] ++ [])) := .emit rfl .nil .nil
  refine ⟨⟨["other"], other, by decide, fun port feeds => ?_⟩, fun port feeds => ?_⟩
  · obtain ⟨edge, listed, target, rfl⟩ := feeds.edge
    simpa using (unfed edge listed target).1
  · obtain ⟨edge, listed, target, rfl⟩ := feeds.edge
    exact (unfed edge listed target).2

/-- Both triggers are called, and the pulse of the second one goes first. -/
def together : List Move :=
  [.start environment, .cue (.call 0 0 .null), .cue (.call 0 1 .null), .cue (.prefer 1)] ++ .replicate 11 (.cue .step)

def alone : List Move := [.start environment, .cue (.call 0 0 .null)] ++ .replicate 7 (.cue .step)

end Neighbors

namespace Session

open Neighbors

theorem pulses_independent_neighbors : ∃ ρ, Renaming ρ ∧
    List.Forall₂ (Request.Renamed ρ) (seen .fresh together 0) (seen .fresh alone 0) ∧
    (seen .fresh alone 0).length = 4 ∧
    ∀ r r', ((empty .fresh).follow together).runs[0]? = some r → ((empty .fresh).follow alone).runs[0]? = some r' →
      (r.memory.cache.value ⟨"fly", "data_out_el"⟩).Linked ρ (r'.memory.cache.value ⟨"fly", "data_out_el"⟩) := by
  obtain ⟨f, g, both, one, task, mine, others⟩ : ∃ f g,
      ((empty .fresh).chronicle (together.take 4)).firings 0 = [f, g] ∧
      ((empty .fresh).chronicle (alone.take 2)).firings 0 = [f] ∧
      f.task = 0 ∧ f.listener.origin.node = "hover" ∧ g.listener.origin.node = "leave" :=
    ⟨_, _, rfl, rfl, rfl, rfl, rfl⟩
  have crowd : ((empty .fresh).chronicle together).firings 0 = [f, g] := (firings_steps _ _ 11 0).trans both
  have single : ((empty .fresh).chronicle alone).firings 0 = [f] := (firings_steps _ _ 7 0).trans one
  have amid : Among .fresh together 0 environment "hover" ["spawn", "fly"] f := by
    refine ⟨environment?_first .fresh environment together.tail, ?_, fun h fired other => ?_⟩
    · simp [Chronicle.firingsOf, crowd, mine, others]
    · rw [crowd] at fired
      rcases List.mem_cons.mp fired with rfl | fired
      · exact absurd mine other
      · cases List.mem_singleton.mp fired
        exact others ▸ apart
  have apart : Among .fresh alone 0 environment "hover" ["spawn", "fly"] f := by
    refine ⟨environment?_first .fresh environment alone.tail, ?_, fun h fired other => ?_⟩
    · simp [Chronicle.firingsOf, single, mine]
    · rw [single] at fired
      cases List.mem_singleton.mp fired
      exact absurd mine other
  have ended : Finished .fresh together f.task := by
    rw [task]
    decide +kernel
  have ended' : Finished .fresh alone f.task := by
    rw [task]
    decide +kernel
  obtain ⟨ρ, renames, acts, most, least, cached, _⟩ :=
    pulses_independent Outside.headless_fresh rfl ⟨_, rfl⟩ (by decide) secluded amid apart rfl
  rw [task] at acts most least ended ended'
  refine ⟨ρ, renames, ?_, by decide +kernel, fun r r' run run' => ?_⟩
  · refine List.forall₂_iff_get.mpr ⟨Nat.le_antisymm (least ended') (most ended), fun n here there => ?_⟩
    exact acts n _ _ (List.getElem?_eq_getElem here) (List.getElem?_eq_getElem there)
  · exact cached (task.symm ▸ ended) (task.symm ▸ ended') "fly" (by decide) "data_out_el" r r' run run'

end Session

end ActionGraph
