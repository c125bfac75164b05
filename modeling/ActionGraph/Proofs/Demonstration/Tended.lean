import ActionGraph.Proofs.Demonstration.Flow

/-!
The elements of the demonstration. However many pulses there are and however they are interleaved,
every element is let fly and taken out by the pulse that made it, and only by that one.
-/

namespace ActionGraph.Demonstration

variable {graphId : Option String} {evaluate : Script.Evaluator} {settings : Settings} {r : GraphRun} {s : Session}
  {h : History}

theorem Flow.maker (f : Flow graphId evaluate settings r s h) {i : Nat} {e : ElementRef}
    (made : (i, e) ∈ h.spawned) : ∃ t, s.tasks[i]? = some t ∧ e ∈ (h.of i).filterMap Deed.created? := by
  have mine := History.mem_spawned.mp made
  cases task : s.tasks[i]? with
  | none =>
    rw [f.unborn i task] at mine
    cases mine
  | some t => exact ⟨t, rfl, mine⟩

theorem result?_of_work {i : Nat} {t : Task} (task : s.tasks[i]? = some t) : s.result? i = t.work.result? := by
  rw [Session.result?, task]
  rfl

/-- Between turns, the pulses that keep their elements are those that are suspended in flight. -/
theorem Flow.kept_eq (f : Flow graphId evaluate settings r s h) (idle : s.running = none) : h.kept = s.aloft h := by
  refine congrArg _ (List.filter_congr fun p made => ?_)
  obtain ⟨i, e⟩ := p
  obtain ⟨t, task, mine⟩ := f.maker made
  obtain ⟨_, _, _, phase⟩ := f.tasks i t task
  dsimp only
  rw [result?_of_work task, History.keeps]
  generalize t.work = w at phase
  generalize h.of i = ds at phase mine
  rw [idle] at phase
  cases phase with
  | fresh => cases mine
  | spawning own ledger => cases own
  | rising own published ledger => cases own
  | @flying ds e' t lands aloft ledger =>
    rw [ledger.created] at mine
    obtain rfl := List.mem_singleton.mp mine
    rw [ledger.removed, aloft]
    simp [Work.result?]
  | falling own published ledger => cases own
  | gone settled ledger =>
    rw [ledger.removed]
    rfl

theorem Flow.kept_nil (f : Flow graphId evaluate settings r s h) (accounted : s.Accounted)
    (idle : s.isIdle 0 = true) : h.kept = [] := by
  refine List.map_eq_nil_iff.mpr (List.filter_eq_nil_iff.mpr fun p made => ?_)
  obtain ⟨i, e⟩ := p
  obtain ⟨t, task, mine⟩ := f.maker made
  obtain ⟨run, counted, _, phase⟩ := f.tasks i t task
  have none : r.inFlight = [] := by
    rw [Session.isIdle, f.runs] at idle
    exact List.isEmpty_iff.mp idle
  have spent : t.work.spent = true := by
    cases spent : t.work.spent with
    | true => rfl
    | false =>
      have standing : (s.tasks.map Task.standing)[i]? = some (0, true, false) := by
        rw [List.getElem?_map, task, Option.map_some, Task.standing, run, counted, spent]
      obtain ⟨ids, found, listed⟩ := accounted.inFlight i 0 standing
      rw [f.runs] at found
      obtain rfl : r.inFlight = ids := Option.some.inj found
      rw [none] at listed
      cases listed
  rw [History.keeps]
  generalize t.work = w at phase spent
  generalize h.of i = ds at phase mine
  cases phase with
  | gone settled ledger =>
    rw [ledger.removed]
    exact Bool.false_ne_true
  | _ => cases spent

theorem Flow.finished (f : Flow graphId evaluate settings r s h) {i : Nat} {result : Except Fault Value}
    (ended : s.result? i = some result) : result = .ok .null ∧ ∃ e, Ledger (h.of i) [e] [e] [e] := by
  cases task : s.tasks[i]? with
  | none =>
    rw [Session.result?, task] at ended
    cases ended
  | some t =>
    obtain ⟨_, _, _, phase⟩ := f.tasks i t task
    rw [result?_of_work task] at ended
    generalize t.work = w at phase ended
    generalize h.of i = ds at phase
    cases phase with
    | gone settled ledger =>
      cases ended
      exact ⟨rfl, _, ledger⟩
    | _ => cases ended

/-- No task has made more than one element, let another than that fly, or taken another out. -/
theorem Flow.own (f : Flow graphId evaluate settings r s h) (i : Nat) : ∃ created animated removed,
    Ledger (h.of i) created animated removed ∧ created.length ≤ 1 ∧ animated <+: created ∧ removed <+: animated := by
  cases task : s.tasks[i]? with
  | none =>
    rw [f.unborn i task]
    exact ⟨[], [], [], ledger_nil, Nat.zero_le 1, List.prefix_rfl, List.prefix_rfl⟩
  | some t =>
    obtain ⟨_, _, _, phase⟩ := f.tasks i t task
    generalize t.work = w at phase
    generalize h.of i = ds at phase
    cases phase with
    | fresh => exact ⟨[], [], [], ledger_nil, Nat.zero_le 1, List.prefix_rfl, List.prefix_rfl⟩
    | spawning own ledger => exact ⟨_, _, _, ledger, Nat.zero_le 1, List.prefix_rfl, List.prefix_rfl⟩
    | rising own published ledger => exact ⟨_, _, _, ledger, Nat.le_refl 1, List.nil_prefix, List.prefix_rfl⟩
    | flying lands aloft ledger => exact ⟨_, _, _, ledger, Nat.le_refl 1, List.prefix_rfl, List.nil_prefix⟩
    | falling own published ledger => exact ⟨_, _, _, ledger, Nat.le_refl 1, List.prefix_rfl, List.nil_prefix⟩
    | gone settled ledger => exact ⟨_, _, _, ledger, Nat.le_refl 1, List.prefix_rfl, List.prefix_rfl⟩

/-- Every pulse looks after its own element. Between turns the mount has exactly the elements of the
pulses that are suspended in their flight, in the order in which they were made. A pulse that has
ended did so without a fault, and made one element, let it fly once and took it out once. At no time
did a pulse let fly or take out anything but the one element that it made, which no other pulse
made. Without pulses in flight the mount is empty. -/
structure Tended (s : Session) (h : History) : Prop where
  aloft : s.running = none → s.outside.host.live "cj-ui-overlay" = s.aloft h
  finished : ∀ i result, s.result? i = some result → result = .ok .null ∧ ∃ e, Ledger (h.of i) [e] [e] [e]
  own : ∀ i, ∃ created animated removed, Ledger (h.of i) created animated removed ∧ created.length ≤ 1 ∧
    animated <+: created ∧ removed <+: animated
  apart : (h.spawned.map (·.2)).Nodup
  idle : s.isIdle 0 = true → s.outside.host.live "cj-ui-overlay" = []

/-- In every state of the demonstration that events, settled animations and stops can lead to, in
whatever order tasks go on, every pulse looks after its own element. -/
theorem elements_tended (graphId : Option String) (evaluate : Script.Evaluator) (settings : Settings)
    (timeScale : Value) (targets : List String) (sticky gated : Bool) (clock : Clock) (sink : Sink) (cues : List Cue) :
    let o := stage timeScale targets sticky gated clock sink
    let env := environment graphId evaluate settings
    Tended (Session.after o env cues) (((Session.empty o).start env).1.history (cues.map .cue)) := by
  intro o env
  obtain ⟨r, started⟩ := flow_start graphId evaluate settings timeScale targets sticky gated clock sink
  obtain ⟨r', f⟩ := started.follow cues
  have accounted : (Session.after o env cues).Accounted :=
    Session.accounted_follow o (.start env :: cues.map .cue)
  exact
    { aloft := fun idle => f.furnished.live.trans (f.kept_eq idle)
      finished := fun _ _ ended => f.finished ended
      own := f.own
      apart := f.furnished.nodup
      idle := fun idle => f.furnished.live.trans (f.kept_nil accounted idle) }

/-- Two events, and then the second flight fails while the first goes on. -/
def hovering : List Cue :=
  [.happen ⟨"#hoverTarget", "mouseover"⟩ (.float 1) (.float 2),
    .happen ⟨"#hoverTarget", "mouseover"⟩ (.float 3) (.float 4)] ++
    List.replicate 8 .step ++ [.settle 1 (.error (.failure "cancelled"))] ++ List.replicate 4 .step

theorem elements_tended_hovering :
    let o := stage (.int 1) ["#hoverTarget"] false true (.steady (.int 0)) .collecting
    let env := environment none (fun _ _ _ => .ended (.ok .null)) .standard
    let s := Session.after o env hovering
    s.running = none ∧
      s.aloft (((Session.empty o).start env).1.history (hovering.map .cue)) = [.created 1 "emoji"] := by
  intro o env s
  have idle : s.running = none := by decide +kernel
  have tended := elements_tended none (fun _ _ _ => .ended (.ok .null)) .standard (.int 1) ["#hoverTarget"] false true
    (.steady (.int 0)) .collecting hovering
  refine ⟨idle, (tended.aloft idle).symm.trans ?_⟩
  decide +kernel

end ActionGraph.Demonstration
