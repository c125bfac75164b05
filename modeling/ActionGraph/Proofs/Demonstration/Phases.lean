import ActionGraph.Proofs.Demonstration.Steps
import ActionGraph.Proofs.Session.Turn

/-!
How far a pulse of the demonstration can have come, and what one turn of it does. What the cache
has of elements counts only for the pulse that has the turn, which has just published it.
-/

namespace ActionGraph.Demonstration

section

variable (graphId : Option String) (evaluate : Script.Evaluator) (settings : Settings)

/-- What a task is about, by what it did to elements. Only one that has the turn (`turn`) is
between two nodes. -/
inductive Phase (cache : Cache) (turn : Prop) : Work → List Deed → Prop
  | fresh : Phase cache turn (.pulse (.leaving (environment graphId evaluate settings) origin)) []
  | spawning {ds : List Deed} : turn → Ledger ds [] [] [] →
      Phase cache turn (.pulse (.visiting (environment graphId evaluate settings) "n_spawn")) ds
  | rising {ds : List Deed} {e : ElementRef} : turn → cache.value spawnPort = .element e → Ledger ds [e] [] [] →
      Phase cache turn (.pulse (.visiting (environment graphId evaluate settings) "n_fly")) ds
  | flying {ds : List Deed} {e : ElementRef} {t : Thread (List String)} : Landing graphId evaluate settings e t →
      flying? ds = some e → Ledger ds [e] [e] [] → Phase cache turn (.pulse ⟨t, []⟩) ds
  | falling {ds : List Deed} {e : ElementRef} : turn → cache.value flyPort = .element e → Ledger ds [e] [e] [] →
      Phase cache turn (.pulse (.visiting (environment graphId evaluate settings) "n_remove")) ds
  | gone {ds : List Deed} {e : ElementRef} : flying? ds = none → Ledger ds [e] [e] [e] →
      Phase cache turn (.ended (.ok .null)) ds

/-- What a turn does to elements. -/
inductive Effect (s s' : Scene) (before ds : List Deed) : Prop
  | steady {animated : List ElementRef} : Steady s s' → Ledger ds [] animated [] → Effect s s' before ds
  | spawned {e : ElementRef} : Spawned s s' e → Ledger ds [e] [] [] → Effect s s' before ds
  | removed {e : ElementRef} : Removed s s' e → before.filterMap Deed.created? = [e] → Ledger ds [] [] [e] →
      Effect s s' before ds

/-- After its turn a pulse is in a phase again, and elements were treated accordingly. -/
structure Turned (s : Scene) (p : Pulse) (ds : List Deed) (s' : Scene) (far : Progress (List String))
    (ds' : List Deed) : Prop where
  warm : Warm s'
  phase : Phase graphId evaluate settings s'.memory.cache ((p.arrival far).isEmpty = false)
    (p.after (environment graphId evaluate settings) far) (ds ++ (ds' ++ p.arrival far))
  effect : Effect s s' ds (ds' ++ p.arrival far)

end

variable {graphId : Option String} {evaluate : Script.Evaluator} {settings : Settings}

/-- Published elements do not matter to a task without the turn. -/
theorem Phase.idle {cache cache' : Cache} {turn turn' : Prop} {w : Work} {ds : List Deed}
    (h : Phase graphId evaluate settings cache turn w ds) (other : ¬ turn) :
    Phase graphId evaluate settings cache' turn' w ds := by
  cases h with
  | fresh => exact .fresh
  | spawning own ledger => exact absurd own other
  | rising own published ledger => exact absurd own other
  | flying lands aloft ledger => exact .flying lands aloft ledger
  | falling own published ledger => exact absurd own other
  | gone settled ledger => exact .gone settled ledger

theorem Phase.mono {cache : Cache} {turn turn' : Prop} {w : Work} {ds : List Deed}
    (h : Phase graphId evaluate settings cache turn w ds) (still : turn → turn') :
    Phase graphId evaluate settings cache turn' w ds := by
  cases h with
  | fresh => exact .fresh
  | spawning own ledger => exact .spawning (still own) ledger
  | rising own published ledger => exact .rising (still own) published ledger
  | flying lands aloft ledger => exact .flying lands aloft ledger
  | falling own published ledger => exact .falling (still own) published ledger
  | gone settled ledger => exact .gone settled ledger

theorem Phase.settle {cache : Cache} {turn : Prop} {w : Work} {ds : List Deed}
    (h : Phase graphId evaluate settings cache turn w ds) (result : Except Fault Unit) :
    Phase graphId evaluate settings cache turn (w.settle result) ds := by
  cases h with
  | fresh => exact .fresh
  | spawning own ledger => exact .spawning own ledger
  | rising own published ledger => exact .rising own published ledger
  | @flying ds e t lands aloft ledger =>
    refine .flying ?_ aloft ledger
    cases t with
    | ready a => exact lands
    | due a => exact lands
    | waiting gate next => exact ⟨result, congrFun lands result⟩
  | falling own published ledger => exact .falling own published ledger
  | gone settled ledger => exact .gone settled ledger

theorem Phase.keeps {cache : Cache} {turn : Prop} {p : Pulse} {ds : List Deed}
    (h : Phase graphId evaluate settings cache turn (.pulse p) ds) : ds.filterMap Deed.removed? = [] := by
  cases h with
  | fresh => rfl
  | spawning own ledger => exact ledger.removed
  | rising own published ledger => exact ledger.removed
  | flying lands aloft ledger => exact ledger.removed
  | falling own published ledger => exact ledger.removed

theorem ledger_arrived (id : String) : Ledger [.arrived id] [] [] [] := ⟨rfl, rfl, rfl⟩

theorem turned_runs {s s' : Scene} {a : Action (List String)} {ds ds' : List Deed} {ids : List String}
    (runs : a.Runs s ds' s' (.ok ids))
    (turned : Turned graphId evaluate settings s ⟨.ready a, []⟩ ds s' (.ended (.ok ids)) ds') :
    Turned graphId evaluate settings s ⟨.ready a, []⟩ ds (a.perform false s).1 (a.perform false s).2
      (a.deeds false s) := by
  rw [runs.performed, runs.deeds]
  exact turned

theorem turned_suspends {s s' : Scene} {a : Action (List String)} {ds ds' : List Deed} {t : Thread (List String)}
    (suspends : a.Suspends s ds' s' t)
    (turned : Turned graphId evaluate settings s ⟨.ready a, []⟩ ds s' (.suspended t) ds') :
    Turned graphId evaluate settings s ⟨.ready a, []⟩ ds (a.perform false s).1 (a.perform false s).2
      (a.deeds false s) := by
  rw [suspends.performed, suspends.deeds]
  exact turned

theorem Phase.turn {s : Scene} {p : Pulse} {ds : List Deed} (warm : Warm s) {turn : Prop}
    (h : Phase graphId evaluate settings s.memory.cache turn (.pulse p) ds) :
    Turned graphId evaluate settings s p ds (p.visit.perform s).1 (p.visit.perform s).2 (p.visit.deeds s) := by
  cases h with
  | fresh =>
    obtain ⟨ds', s', ids, runs, calm, rfl⟩ := leave_calmly graphId evaluate settings warm
    have whole := (ledger_idle calm.idle).append (ledger_arrived "n_spawn")
    exact turned_runs runs ⟨calm.warm warm, .spawning rfl whole, .steady calm.toSteady whole⟩
  | spawning own ledger =>
    obtain ⟨ds', s', e, runs, made, spawned⟩ := spawn_runs graphId evaluate settings warm
    have whole := made.append (ledger_arrived "n_fly")
    exact turned_runs runs
      ⟨spawned.warm, .rising rfl spawned.published (ledger.append whole), .spawned spawned whole⟩
  | @rising ds e own published ledger =>
    obtain ⟨ds', s', steady, flown, lands | ⟨t, suspends, lands, aloft⟩⟩ :=
      fly_visit graphId evaluate settings warm published
    · have whole := flown.append (ledger_arrived "n_remove")
      exact turned_runs lands.1
        ⟨steady.warm warm, .falling rfl lands.2 (ledger.append whole), .steady steady whole⟩
    · have whole : Ledger (ds' ++ []) [] [e] [] := flown.append ledger_nil
      refine turned_suspends suspends
        ⟨steady.warm warm, .flying lands ?_ (ledger.append whole), .steady steady whole⟩
      exact (congrArg (fun done => flying? (ds ++ done)) (List.append_nil ds')).trans (aloft ds)
  | @flying ds e t lands aloft ledger =>
    cases t with
    | ready a =>
      obtain ⟨settled, rfl⟩ := lands
      obtain ⟨ds', s', ids, runs, calm, rfl, published⟩ := landing_calmly graphId evaluate settings warm e settled
      have whole := (ledger_idle calm.idle).append (ledger_arrived "n_remove")
      exact turned_runs runs
        ⟨calm.warm warm, .falling rfl published (ledger.append whole), .steady calm.toSteady whole⟩
    | due a => exact lands.elim
    | waiting gate next =>
      -- A turn that comes before the flight has settled changes nothing.
      refine ⟨warm, .flying lands ?_ (ledger.append ledger_nil), .steady (.refl s) ledger_nil⟩
      exact (congrArg flying? (List.append_nil ds)).trans aloft
  | @falling ds e own published ledger =>
    obtain ⟨ds', s', runs, gone, settled, removed⟩ := remove_runs graphId evaluate settings warm published
    have whole : Ledger (ds' ++ []) [] [] [e] := gone.append ledger_nil
    refine turned_runs runs ⟨removed.warm, .gone ?_ (ledger.append whole), .removed removed ledger.created whole⟩
    exact (congrArg (fun done => flying? (ds ++ done)) (List.append_nil ds')).trans (settled ds)

end ActionGraph.Demonstration
