import ActionGraph.Proofs.Pulse.Resolution
import ActionGraph.Proofs.Session.Writes
import Mathlib.Data.List.Basic

/-!
Events are kept twice, and both copies tell the same. A run remembers the last event that any of its
triggers accepted, and on the port of each trigger the last one that this trigger accepted; so a pulse
never finds an event there that is older than the one that began it.
-/

namespace ActionGraph.Session

variable {s : Session} {h before after : Chronicle} {k : Nat} {env : Environment}

section

variable (told : s.Told h) (environment : s.environment? k = some env) (builtin : env.IsBuiltin)
  (distinct : (env.graph.nodes.map (·.id)).Nodup) {node : Node} (listed : node ∈ env.graph.nodes)
  {b : Behavior} {t : Trigger} (triggers : env.repertoire.trigger? node = some (b, t))

include builtin triggers

theorem hover_of_trigger : node.type = "event.uiHover" ∧ env.repertoire.find? node.type = some Builtin.uiHover ∧
    t.eventPort = "data_out_event" := by
  obtain ⟨evaluate, eq⟩ := builtin
  obtain ⟨known, trigger⟩ := Repertoire.trigger?_eq_some triggers
  obtain ⟨type, rfl⟩ := Builtin.trigger_hover (eq ▸ known) trigger
  cases trigger
  exact ⟨type, known, rfl⟩

include told environment distinct listed

/-- Only the firings of a trigger publish on its port: its node is neither run nor computed on demand. -/
theorem Told.writes_event {x : Happening} (happened : (k, x) ∈ h) (v : Value) :
    x.write? = some (⟨node.id, t.eventPort⟩, v) ↔
      ∃ f, x.firing? = some f ∧ f.listener.origin.node = node.id ∧ v = .event f.snapshot := by
  obtain ⟨type, known, port⟩ := hover_of_trigger builtin triggers
  have found := Graph.node?_of_mem distinct listed
  cases x with
  | fired f =>
    obtain ⟨rfl, env', environment', w, wanted, own⟩ := told.attended.fired k f happened
    cases environment.symm.trans environment'
    obtain ⟨other, _, _, origin, events⟩ := Environment.wanted_builtin builtin wanted
    rw [own] at origin events
    simp [Happening.write?, Happening.firing?, events, origin, port, eq_comm]
  | did i d =>
    constructor
    · intro write
      obtain ⟨before, after, split⟩ := List.append_of_mem happened
      cases told.wrote environment builtin split write with
      | supplied _ supplies => cases supplies.passive known found
      | given _ gives => cases gives.runs known found
    · rintro ⟨f, silent, _⟩
      cases silent

theorem Told.written_events {before after : Chronicle} (split : h = before ++ after) :
    before.written k ⟨node.id, t.eventPort⟩ = (before.firingsOf k node.id).map fun f => .event f.snapshot := by
  simp only [Chronicle.written, Chronicle.writes, Cache.valuesOn, Chronicle.firingsOf, Chronicle.firings,
    List.filterMap_filterMap, ← List.filterMap_eq_filter, ← List.filterMap_eq_map]
  refine List.filterMap_congr fun x happened => Option.ext fun v => ?_
  have writes := told.writes_event environment builtin distinct listed triggers (x := x)
    (by rw [split]; exact List.mem_append_left _ ((before.mem_of k).mp happened)) v
  have published : ((x.write?.bind fun w => if w.1 = ⟨node.id, t.eventPort⟩ then some w.2 else none) = some v) ↔
      x.write? = some (⟨node.id, t.eventPort⟩, v) := by
    simp only [Option.bind_eq_some_iff, Option.ite_none_right_eq_some, Option.some.injEq, Prod.exists]
    constructor
    · rintro ⟨port, w, write, rfl, rfl⟩
      exact write
    · exact fun write => ⟨_, _, write, rfl, rfl⟩
  rw [published, writes]
  simp only [Option.bind_eq_some_iff, Option.guard_eq_some_iff, Function.comp, Option.some.injEq, decide_eq_true_eq]
  constructor
  · rintro ⟨f, fired, own, rfl⟩
    exact ⟨f, ⟨f, fired, rfl, own⟩, rfl⟩
  · rintro ⟨_, ⟨f, fired, rfl, own⟩, rfl⟩
    exact ⟨f, fired, own, rfl⟩

end

/-- A pulse does nothing before the event that began it has been accepted. -/
theorem Numbered.fired_before (numbered : s.Numbered h) {f : Firing} {j : Nat} {d : Deed} {id : String}
    (split : h = before ++ (k, .did f.task d) :: after) (fired : (h.firingsOf k id)[j]? = some f) :
    (before.firingsOf k id)[j]? = some f := by
  have earlier := numbered.earlier before after k f.task d split
  rw [split, Chronicle.firingsOf_append] at fired
  rcases Nat.lt_or_ge j (before.firingsOf k id).length with old | new
  · rwa [List.getElem?_append_left old] at fired
  · rw [List.getElem?_append_right new] at fired
    have late := (List.mem_filter.mp (List.mem_of_getElem? fired)).1
    have begun : f.task ∈ Chronicle.begun ((k, .did f.task d) :: after) :=
      List.mem_filterMap.mpr ⟨_, (Chronicle.mem_firings _ k).mp late, rfl⟩
    have distinct : h.begun.Nodup := numbered.begun ▸ List.nodup_range
    rw [split, Chronicle.begun_append] at distinct
    exact absurd rfl ((List.nodup_append.mp distinct).2.2 _ earlier _ begun)

/-- Snapshots are consistent. In whatever happens to a session that begins with nobody listening, let
a run have built-in behaviors and nodes with distinct ids. Its last event is that of the latest firing
that any of its listeners accepted, and there is none before the first; on the port of a trigger is
the event of the latest firing of that trigger, and nothing before the first. So whenever the pulse
that the firing with number `j` of a trigger began does something, on that port is the event of the
firing with a number `m` not below `j`, and of that very firing if there is no later one yet: this
the pulse is answered if it asks for the port, and this whoever is wired to the trigger finds. -/
theorem events_consistent {o : Outside} (unheard : o.Unheard) (moves : List Move)
    (environment : ((empty o).follow moves).environment? k = some env) (builtin : env.IsBuiltin)
    (distinct : (env.graph.nodes.map (·.id)).Nodup) :
    (∀ r, ((empty o).follow moves).runs[k]? = some r →
      r.memory.lastEvent = (((empty o).chronicle moves).firings k).getLast?.map (·.snapshot)) ∧
    ∀ node ∈ env.graph.nodes, ∀ b t, env.repertoire.trigger? node = some (b, t) →
      (∀ r, ((empty o).follow moves).runs[k]? = some r →
        r.memory.cache.holds ⟨node.id, t.eventPort⟩ = !(((empty o).chronicle moves).firingsOf k node.id).isEmpty ∧
        r.memory.cache.value ⟨node.id, t.eventPort⟩ =
          ((((empty o).chronicle moves).firingsOf k node.id).getLast?.map fun f => .event f.snapshot).getD .absent) ∧
      ∀ (before after : Chronicle) f j d, (empty o).chronicle moves = before ++ (k, .did f.task d) :: after →
        (((empty o).chronicle moves).firingsOf k node.id)[j]? = some f →
        ∃ m g, j ≤ m ∧ (before.firingsOf k node.id)[m]? = some g ∧
          ((before.firingsOf k node.id).length = j + 1 → g = f) ∧
          (∀ v, d = .asked (.cached ⟨node.id, t.eventPort⟩) (some v) → v = .event g.snapshot) ∧
          ∀ input edge, env.graph.incoming? input = some edge → edge.source = ⟨node.id, t.eventPort⟩ →
            ∀ s : Scene, s.memory = before.memory k →
              (env.resolve input).perform false s = (s, .ended (.ok (.event g.snapshot))) := by
  have told := told_follow unheard moves
  refine ⟨fun r run => ?_, fun node listed b t triggers => ⟨fun r run => ?_, ?_⟩⟩
  · rw [told.recorded.memory k r run]
    rfl
  · have whole : (empty o).chronicle moves = (empty o).chronicle moves ++ [] := (List.append_nil _).symm
    have written := told.written_events environment builtin distinct listed triggers whole
    rw [told.recorded.memory k r run, Chronicle.holds_memory, Chronicle.value_memory, written]
    simp
  · intro before after f j d split fired
    have earlier := told.numbered.fired_before split fired
    have bound : j < (before.firingsOf k node.id).length := (List.getElem?_eq_some_iff.mp earlier).1
    obtain ⟨g, latest⟩ : ∃ g, (before.firingsOf k node.id)[(before.firingsOf k node.id).length - 1]? = some g :=
      ⟨_, List.getElem?_eq_getElem (by omega)⟩
    have there : (before.memory k).cache.value ⟨node.id, t.eventPort⟩ = .event g.snapshot := by
      rw [Chronicle.value_memory, told.written_events environment builtin distinct listed triggers split,
        List.getLast?_map, List.getLast?_eq_getElem?, latest]
      rfl
    refine ⟨_, g, Nat.le_sub_one_of_lt bound, latest, fun last => ?_, fun v asked => ?_,
      fun input edge fed source s memory => ?_⟩
    · rw [last] at latest
      exact Option.some.inj (latest.symm.trans earlier)
    · subst asked
      have met := (told.recorded.met before after k f.task _ split).cached
      rw [met, there]
    · obtain ⟨type, known, port⟩ := hover_of_trigger builtin triggers
      have found := Graph.node?_of_mem distinct listed
      rw [Environment.resolve_stored fed source found known nofun, memory, there]

/-- The trigger of a graph is called, and the pulse has its first turn. -/
def called : List Move := [.start Handoff.environment, .cue (.call 0 0 .null), .cue .step]

theorem events_consistent_called :
    ∃ r f g, ((empty .fresh).follow called).runs[0]? = some r ∧
      (((empty .fresh).chronicle called).firings 0).getLast? = some f ∧ r.memory.lastEvent = some f.snapshot ∧
      (((empty .fresh).chronicle called).firingsOf 0 "hover").getLast? = some g ∧
      r.memory.cache.value ⟨"hover", "data_out_event"⟩ = .event g.snapshot := by
  have environment : ((empty .fresh).follow called).environment? 0 = some Handoff.environment :=
    environment?_first _ _ _
  obtain ⟨last, stored⟩ := events_consistent Outside.unheard_fresh called environment ⟨_, rfl⟩ (by decide)
  obtain ⟨r, run⟩ := Option.isSome_iff_exists.mp (by decide +kernel : (((empty .fresh).follow called).runs[0]?).isSome)
  obtain ⟨f, fired⟩ := Option.isSome_iff_exists.mp
    (by decide +kernel : (((empty .fresh).chronicle called).firings 0).getLast?.isSome)
  obtain ⟨g, hovered⟩ := Option.isSome_iff_exists.mp
    (by decide +kernel : (((empty .fresh).chronicle called).firingsOf 0 "hover").getLast?.isSome)
  obtain ⟨_, value⟩ := (stored _ List.mem_cons_self _ _ rfl).1 r run
  refine ⟨r, f, g, run, fired, ?_, hovered, ?_⟩
  · rw [last r run, fired]
    rfl
  · exact value.trans (by rw [hovered]; rfl)

end ActionGraph.Session
