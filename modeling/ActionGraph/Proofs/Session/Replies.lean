import ActionGraph.Proofs.Action.Twins
import ActionGraph.Proofs.Session.Record
import ActionGraph.Proofs.Session.Results

/-!
How a host without a screen answers, as long as it does not fail and settles its animations itself. It
gives every mount, takes out and animates whatever it can, and makes elements with new numbers.
-/

namespace ActionGraph

/-- Answered as a host without a screen answers, which scales time like this. -/
def Deed.Usual (timeScale : Value) : Deed → Prop
  | .asked _ none => False
  | .asked (.mount id) (some x) => x = .ok (.element (.mount id))
  | .asked (.create ..) (some x) => ∃ e, x = .ok (.element e)
  | .asked (.animate _ _ duration) (some x) => x = timeScale.flight duration
  | .asked (.destroy handle) (some x) => x = handle.removal
  | _ => True

/-- A host without a screen that does not fail, which settles its animations and scales time like this. -/
structure Outside.Usual (timeScale : Value) (o : Outside) : Prop where
  sound : o.staging.faults = []
  ungated : o.staging.gated = false
  pace : o.host.timeScale = timeScale

namespace Outside

variable {o p : Outside} {T : Value}

theorem Usual.of_stock (usual : o.Usual T) (same : p.stock = o.stock) : p.Usual T where
  sound := (congrArg (fun s => s.staging.faults) same).trans usual.sound
  ungated := (congrArg (fun s => s.staging.gated) same).trans usual.ungated
  pace := (congrArg Stock.timeScale same).trans usual.pace

theorem lasting_usual (T : Value) : Lasting (Usual T) where
  recorded _ h := ⟨h.sound, h.ungated, h.pace⟩
  handed h := ⟨h.sound, h.ungated, h.pace⟩
  timed h := ⟨h.sound, h.ungated, h.pace⟩
  counted _ h := ⟨h.sound, h.ungated, h.pace⟩
  gated h := ⟨h.sound, h.ungated, h.pace⟩
  mounted {o} id h := by
    refine ⟨h.sound, h.ungated, ?_⟩
    unfold Host.mount
    dsimp only
    split <;> exact h.pace
  created _ _ h := ⟨h.sound, h.ungated, h.pace⟩
  animated _ _ _ h := ⟨h.sound, h.ungated, h.pace⟩
  destroyed removed h := by
    obtain ⟨_, rfl⟩ := Host.destroy_tree removed
    exact ⟨h.sound, h.ungated, h.pace⟩

theorem remove_removal (handle : Value) : (o.remove handle).2 = handle.removal := by
  rw [← o.host.removal_destroy handle]
  unfold remove
  cases o.host.destroy handle <;> rfl

theorem destroy_removal (sound : o.staging.faults = []) (handle : Value) : (o.destroy handle).2 = handle.removal := by
  rw [destroy_eq, (o.record (.destroy handle)).planned_sound sound, remove_removal]

theorem fly_flight (handle keyframes duration : Value) :
    (o.fly handle keyframes duration).2 = o.host.timeScale.flight duration := by
  have paced : (o.host.record handle keyframes duration).timeScale = o.host.timeScale := rfl
  rw [← paced, ← Host.flight_seconds]
  unfold fly
  dsimp only
  cases (o.host.record handle keyframes duration).seconds duration <;> rfl

theorem animate_flight (sound : o.staging.faults = []) (handle keyframes duration : Value) :
    (o.animate handle keyframes duration).2 = o.host.timeScale.flight duration := by
  rw [animate_eq, (o.record (.animate handle keyframes duration)).planned_sound sound, fly_flight]
  rfl

end Outside

namespace Scene

variable {s s' : Scene} {due : Bool} {T : Value}

theorem call_given {α : Type} (make : Outside → Outside × α) {x : α}
    (met : s.call due make = (s', .now x) ∨ s.call due make = (s', .later x)) : x = (make s.outside).2 := by
  rcases s.call_cases due make with again | now
  · simp [again] at met
  · simp only [now, Prod.mk.injEq, Reply.now.injEq, reduceCtorEq, and_false, or_false] at met
    exact met.2.symm

theorem call_ungated {α : Type} (make : Outside → Outside × α) {gate : Nat} {answer : Except Fault Unit → α} :
    s.call due make ≠ (s', .atGate gate answer) := by
  intro met
  rcases s.call_cases due make with again | now
  · cases again.symm.trans met
  · cases now.symm.trans met

theorem usual_animate (usual : s.outside.Usual T) (handle keyframes duration : Value) :
    (s.animate handle keyframes duration).2 = .now (T.flight duration) ∨
      (s.animate handle keyframes duration).2 = .later (T.flight duration) := by
  have flown := s.outside.animate_flight usual.sound handle keyframes duration
  have kept := s.outside.premises_animate handle keyframes duration
  rw [usual.pace] at flown
  unfold animate
  generalize s.outside.animate handle keyframes duration = x at flown kept
  obtain ⟨o, answer⟩ := x
  have ungated : o.staging.gated = false := (congrArg (fun p => p.1.gated) kept).trans usual.ungated
  rw [← show answer = _ from flown]
  cases answer with
  | error f => exact .inl rfl
  | ok _ =>
    dsimp only
    rw [if_neg (Bool.eq_false_iff.mp ungated)]
    exact .inr rfl

/-- Whoever is answered is answered in the usual way, and nobody waits for something from outside. -/
theorem usual_meet (usual : s.outside.Usual T) (due : Bool) (r : Request) :
    (∀ s' x, s.meet due r = (s', .now x) ∨ s.meet due r = (s', .later x) → (Deed.asked r (some x)).Usual T) ∧
      ∀ s' gate answer, s.meet due r ≠ (s', .atGate gate answer) := by
  refine ⟨fun s' x met => ?_, fun s' gate answer met => ?_⟩
  · cases r with
    | mount id =>
      have given := call_given (·.mount id) met
      rw [s.outside.mount_sound usual.sound] at given
      exact given
    | create kind params =>
      have given := call_given (·.create kind params) met
      rw [s.outside.create_sound usual.sound] at given
      exact ⟨_, given⟩
    | destroy handle =>
      have given := call_given (·.destroy handle) met
      rw [s.outside.destroy_removal usual.sound] at given
      exact given
    | animate handle keyframes duration =>
      have animated : s.animate handle keyframes duration = (s', .now x) ∨
        s.animate handle keyframes duration = (s', .later x) := met
      rcases usual_animate usual handle keyframes duration with now | later
      · rcases animated with same | same <;> rw [same] at now <;> cases now
        exact rfl
      · rcases animated with same | same <;> rw [same] at later <;> cases later
        exact rfl
    | _ => trivial
  · cases r with
    | mount id => exact call_ungated (·.mount id) met
    | create kind params => exact call_ungated (·.create kind params) met
    | destroy handle => exact call_ungated (·.destroy handle) met
    | animate handle keyframes duration =>
      have animated : s.animate handle keyframes duration = (s', .atGate gate answer) := met
      rcases usual_animate usual handle keyframes duration with now | later
      · rw [animated] at now
        cases now
      · rw [animated] at later
        cases later
    | _ => simp [meet] at met

end Scene

theorem Action.usual_deeds {α : Type} {T : Value} (a : Action α) (due : Bool) {s : Scene} (usual : s.outside.Usual T) :
    ∀ d ∈ a.deeds due s, d.Usual T := by
  induction a generalizing due s with
  | done x => exact fun d listed => absurd listed List.not_mem_nil
  | failed f => exact fun d listed => absurd listed List.not_mem_nil
  | ask r next ih =>
    obtain ⟨answered, ungated⟩ := Scene.usual_meet usual due r
    have lasts := (Outside.lasting_usual T).meet due r usual
    intro d listed
    rw [deeds] at listed
    rcases met : s.meet due r with ⟨s', x | x | _ | ⟨gate, answer⟩⟩
    · rw [met] at listed lasts
      rcases List.mem_cons.mp listed with rfl | later
      · exact answered s' x (.inl met)
      · exact ih x false lasts d later
    · rw [met] at listed
      cases List.mem_singleton.mp listed
      exact answered s' x (.inr met)
    · simp [met] at listed
    · exact absurd met (ungated s' gate answer)

theorem Thread.usual_deeds {α : Type} {T : Value} (t : Thread α) {s : Scene} (usual : s.outside.Usual T) :
    ∀ d ∈ t.deeds s, d.Usual T := by
  cases t with
  | ready a => exact a.usual_deeds false usual
  | due a => exact a.usual_deeds true usual
  | waiting gate next => exact fun d listed => absurd listed List.not_mem_nil

theorem Action.unwaiting_perform {α : Type} {T : Value} (a : Action α) (due : Bool) {s : Scene} (usual : s.outside.Usual T)
    {t : Thread α} (left : (a.perform due s).2 = .suspended t) : t.waits = false := by
  induction a generalizing due s with
  | done x => cases left
  | failed f => cases left
  | ask r next ih =>
    obtain ⟨_, ungated⟩ := Scene.usual_meet usual due r
    have lasts := (Outside.lasting_usual T).meet due r usual
    rw [perform] at left
    rcases met : s.meet due r with ⟨s', x | x | _ | ⟨gate, answer⟩⟩
    · rw [met] at left lasts
      exact ih x false lasts left
    · rw [met] at left
      cases left
      rfl
    · rw [met] at left
      cases left
      rfl
    · exact absurd met (ungated s' gate answer)

theorem Thread.unwaiting_perform {α : Type} {T : Value} {t : Thread α} (going : t.waits = false) {s : Scene}
    (usual : s.outside.Usual T) {t' : Thread α} (left : (t.perform s).2 = .suspended t') : t'.waits = false := by
  cases t with
  | ready a => exact a.unwaiting_perform false usual left
  | due a => exact a.unwaiting_perform true usual left
  | waiting gate next => cases going

theorem Work.unwaiting_settle {w : Work} (going : w.waits = false) (result : Except Fault Unit) :
    (w.settle result).waits = false := by
  cases w with
  | pulse p =>
    cases visit : p.visit with
    | waiting gate next => simp [Work.waits, Thread.waits, visit] at going
    | ready a => simp [Work.settle, Thread.settle, Work.waits, Thread.waits, visit]
    | due a => simp [Work.settle, Thread.settle, Work.waits, Thread.waits, visit]
  | lookup t =>
    cases t with
    | waiting gate next => cases going
    | ready a => rfl
    | due a => rfl
  | ended result => rfl
  | dropped => rfl

theorem Pulse.unwaiting_after {env : Environment} {p : Pulse} {far : Progress (List String)}
    (going : ∀ t, far = .suspended t → t.waits = false) : (p.after env far).waits = false := by
  unfold Pulse.after
  split
  · exact going _ rfl
  · rfl
  · unfold Pulse.next?
    split
    · rename_i stack
      split at stack
      · cases stack
      · cases stack
        rfl
    · rfl

theorem Work.unwaiting_lookup {far : Progress Value} (going : ∀ t, far = .suspended t → t.waits = false) :
    (Work.afterLookup far).waits = false := by
  unfold Work.afterLookup
  split
  · exact going _ rfl
  · rfl

namespace Session

variable {s : Session} {i : Nat} {t : Task} {T : Value}

theorem usual_turn (task : s.tasks[i]? = some t) (usual : s.outside.Usual T) : ∀ d ∈ s.deeds i, d.Usual T := by
  intro d listed
  cases s.goes i task with
  | rests done _ _ _ => simp [done] at listed
  | @pulses r p _ _ done _ _ _ =>
    rw [done] at listed
    rcases List.mem_append.mp listed with listed | arrives
    · exact p.visit.usual_deeds (s := s.scene r) usual d listed
    · obtain ⟨id, rfl⟩ := p.of_arrival arrives
      trivial
  | @looks r thread _ _ done _ _ _ =>
    rw [done] at listed
    exact thread.usual_deeds (s := s.scene r) usual d listed

theorem unwaiting_turn (task : s.tasks[i]? = some t) (usual : s.outside.Usual T) (going : t.work.waits = false) :
    (t.after s).waits = false := by
  cases s.goes i task with
  | rests _ _ _ left =>
    rcases left with same | dropped
    · exact same ▸ going
    · exact dropped ▸ rfl
  | @pulses r p _ work _ _ _ left =>
    rw [work] at going
    rw [left]
    exact Pulse.unwaiting_after fun t suspended => Thread.unwaiting_perform going (s := s.scene r) usual suspended
  | @looks r thread _ work _ _ _ left =>
    rw [work] at going
    rw [left]
    exact Work.unwaiting_lookup fun t suspended => Thread.unwaiting_perform going (s := s.scene r) usual suspended

/-- The host is usual, has answered in the usual way, and nobody waits for something from outside. -/
structure Routine (T : Value) (s : Session) (h : Chronicle) : Prop where
  usual : s.outside.Usual T
  answered : ∀ k i d, (k, .did i d) ∈ h → d.Usual T
  going : ∀ (i : Nat) (t : Task), s.tasks[i]? = some t → t.work.waits = false

theorem steady_routine (T : Value) : Steady (fun _ _ => True) (Routine T) where
  quiet {s s' h} _ held quiet := by
    refine ⟨held.usual.of_stock quiet.stock, held.answered, fun i t' task' => ?_⟩
    obtain ⟨t, task, _, work⟩ := quiet.task task'
    rcases work with same | ⟨result, settled⟩
    · exact same ▸ held.going i t task
    · exact settled ▸ Work.unwaiting_settle (held.going i t task) result
  started {s h} env _ held := ⟨held.usual.of_stock (stock_start _ env), held.answered, by rw [tasks_start]; exact held.going⟩
  fired {s h l r} e _ held _ _ := by
    refine ⟨held.usual.of_stock rfl, fun k i d told => ?_, fun i t task => ?_⟩
    · rcases List.mem_append.mp told with told | last
      · exact held.answered k i d told
      · simp [Firing.happening] at last
    · rcases task_begun task with old | ⟨_, rfl⟩
      · exact held.going i t old
      · rfl
  turned {s h i t} _ held task := by
    refine ⟨(Outside.lasting_usual T).advance held.usual i, fun k j d told => ?_, fun j t' task' => ?_⟩
    · rcases List.mem_append.mp told with told | turned
      · exact held.answered k j d told
      · obtain ⟨d', done, same⟩ := List.mem_map.mp turned
        cases same
        exact usual_turn task held.usual d done
    · rcases task_turned task' with ⟨_, there⟩ | ⟨rfl, t₀, there, rfl⟩
      · exact held.going j t' there
      · exact unwaiting_turn there held.usual (held.going _ t₀ there)

theorem routine_follow {o : Outside} (usual : o.Usual T) (moves : List Move) :
    Routine T ((empty o).follow moves) ((empty o).chronicle moves) := by
  have start : Routine T (empty o) [] := ⟨usual, fun _ _ _ told => absurd told List.not_mem_nil, fun _ _ task => by
    simp [empty] at task⟩
  exact (steady_routine T).follow start moves

end Session

namespace Outside

/-- These elements have been made in between, one after the other, with numbers that go on. -/
structure Bears (o p : Outside) (es : List ElementRef) : Prop where
  created : p.host.created = o.host.created ++ es
  numbers : es.map ElementRef.number = List.range' (o.host.created.length + 1) es.length

variable {o p q : Outside} {es fs : List ElementRef}

theorem bears_none (same : p.host.created = o.host.created) : o.Bears p [] := ⟨by simp [same], rfl⟩

theorem Bears.trans (first : o.Bears p es) (second : p.Bears q fs) : o.Bears q (es ++ fs) where
  created := by rw [second.created, first.created, List.append_assoc]
  numbers := by
    have onward : o.host.created.length + 1 + es.length = o.host.created.length + es.length + 1 := by omega
    have numbers := second.numbers
    rw [first.created, List.length_append, ← onward] at numbers
    rw [List.map_append, first.numbers, numbers, List.range'_append_1, List.length_append]

theorem bears_one {e : ElementRef} (created : p.host.created = o.host.created ++ [e])
    (number : e.number = o.host.created.length + 1) : o.Bears p [e] :=
  ⟨created, congrArg (fun n => [n]) number⟩

theorem Bears.fresh (bears : o.Bears p es) : es.Nodup ∧ ∀ id, .mount id ∉ es := by
  refine ⟨.of_map _ (bears.numbers ▸ List.nodup_range'), fun id listed => ?_⟩
  have number := List.mem_map_of_mem (f := ElementRef.number) listed
  rw [bears.numbers] at number
  have positive := (List.mem_range'_1.mp number).1
  simp [ElementRef.number] at positive

theorem bears_create (kind : String) (params : List (String × Value)) :
    o.Bears (o.create kind params).1 (Deed.births [.asked (.create kind params) (some (o.create kind params).2)]) := by
  rw [create_eq, planned]
  split
  · exact bears_none rfl
  · exact bears_one rfl rfl

end Outside

namespace Scene

variable {s s' : Scene} {due : Bool} {r : Request}

theorem created_meet (s : Scene) (due : Bool) (r : Request) (other : ∀ kind params, r ≠ .create kind params) :
    (s.meet due r).1.outside.host.created = s.outside.host.created := by
  have call : ∀ {α : Type} (make : Outside → Outside × α),
      (make s.outside).1.host.created = s.outside.host.created →
        (s.call due make).1.outside.host.created = s.outside.host.created := by
    intro α make makes
    rcases s.call_cases due make with again | now
    · rw [again]
    · rw [now]
      exact makes
  cases r with
  | create kind params => exact absurd rfl (other kind params)
  | log message data => exact congrArg Stock.created (s.outside.stock_log message data)
  | mount id =>
    refine call (·.mount id) ?_
    rw [Outside.mount_eq]
    refine Outside.planned_keeps (P := fun p => p.host.created = s.outside.host.created) _ .mount rfl fun p kept => ?_
    unfold Host.mount
    dsimp only
    split <;> exact kept
  | destroy handle =>
    refine call (·.destroy handle) ?_
    rw [Outside.destroy_eq]
    refine Outside.planned_keeps (P := fun p => p.host.created = s.outside.host.created) _ .destroy rfl fun p kept => ?_
    unfold Outside.remove
    split
    · exact kept
    · rename_i removed
      obtain ⟨_, rfl⟩ := Host.destroy_tree removed
      exact kept
  | animate handle keyframes duration =>
    obtain ⟨o, stock, ⟨f, now⟩ | later | ⟨gate, wait⟩⟩ := s.meet_animate handle keyframes duration
    · exact (congrArg (·.1.outside.host.created) now).trans (congrArg Stock.created stock)
    · exact (congrArg (·.1.outside.host.created) later).trans (congrArg Stock.created stock)
    · exact (congrArg (·.1.outside.host.created) wait).trans (congrArg Stock.created stock)
  | _ => rfl

theorem births_other {r : Request} (other : ∀ kind params, r ≠ .create kind params) (x : Option r.Answer) :
    Deed.births [.asked r x] = [] := by
  cases r with
  | create kind params => exact absurd rfl (other kind params)
  | _ => rfl

theorem bears_meet {x : r.Answer} (met : s.meet due r = (s', .now x) ∨ s.meet due r = (s', .later x)) :
    s.outside.Bears s'.outside (Deed.births [.asked r (some x)]) := by
  by_cases making : ∃ kind params, r = .create kind params
  · obtain ⟨kind, params, rfl⟩ := making
    obtain rfl := call_given (·.create kind params) met
    rcases s.call_cases due (·.create kind params) with again | now
    · rcases met with now | later
      · cases again.symm.trans now
      · cases again.symm.trans later
    · rcases met with same | later
      · cases now.symm.trans same
        exact Outside.bears_create kind params
      · cases now.symm.trans later
  · have other : ∀ kind params, r ≠ .create kind params := fun kind params same => making ⟨kind, params, same⟩
    have kept := s.created_meet due r other
    rw [births_other other]
    rcases met with now | later
    · rw [now] at kept
      exact Outside.bears_none kept
    · rw [later] at kept
      exact Outside.bears_none kept

theorem bears_wait {gate : Nat} {answer : Except Fault Unit → r.Answer} (met : s.meet due r = (s', .atGate gate answer)) :
    s.outside.Bears s'.outside (Deed.births [.asked r none]) := by
  have other : ∀ kind params, r ≠ .create kind params := by
    rintro kind params rfl
    exact Scene.slow_of_gate met trivial
  have kept := s.created_meet due r other
  rw [met] at kept
  rw [births_other other]
  exact Outside.bears_none kept

end Scene

theorem Action.bears_perform {α : Type} (a : Action α) (due : Bool) (s : Scene) :
    s.outside.Bears (a.perform due s).1.outside (Deed.births (a.deeds due s)) := by
  induction a generalizing due s with
  | done x => exact Outside.bears_none rfl
  | failed f => exact Outside.bears_none rfl
  | ask r next ih =>
    rw [perform, deeds]
    rcases met : s.meet due r with ⟨s', x | x | _ | ⟨gate, answer⟩⟩
    · have both := (Scene.bears_meet (.inl met)).trans (ih x false s')
      rwa [← Deed.births_append] at both
    · exact Scene.bears_meet (.inr met)
    · rw [Scene.eq_of_again met]
      exact Outside.bears_none rfl
    · exact Scene.bears_wait met

theorem Thread.bears_perform {α : Type} (t : Thread α) (s : Scene) :
    s.outside.Bears (t.perform s).1.outside (Deed.births (t.deeds s)) := by
  cases t with
  | ready a => exact a.bears_perform false s
  | due a => exact a.bears_perform true s
  | waiting gate next => exact Outside.bears_none rfl

namespace Session

theorem bears_turn {s : Session} {i : Nat} {t : Task} (task : s.tasks[i]? = some t) :
    s.outside.Bears (s.advance i).outside (Deed.births (s.deeds i)) := by
  cases s.goes i task with
  | rests done _ outside _ =>
    rw [done]
    exact Outside.bears_none (by rw [outside])
  | @pulses r p _ _ done _ outside _ =>
    have arrival : ∀ far, Deed.births (p.arrival far) = [] := by
      intro far
      refine List.filterMap_eq_nil_iff.mpr fun d arrives => ?_
      obtain ⟨id, rfl⟩ := p.of_arrival arrives
      rfl
    rw [done, outside, Deed.births_append, arrival, List.append_nil]
    exact p.visit.bears_perform (s.scene r)
  | @looks r thread _ _ done _ outside _ =>
    rw [done, outside]
    exact thread.bears_perform (s.scene r)

/-- The elements that the host has made since are those that its tasks were given. -/
theorem steady_bears (o : Outside) :
    Steady (fun _ _ => True) fun s h => o.Bears s.outside (h.history.spawned.map Prod.snd) where
  quiet _ bears quiet := ⟨(congrArg Stock.created quiet.stock).trans bears.created, bears.numbers⟩
  started {s h} env _ bears := ⟨(congrArg Stock.created (s.stock_start env)).trans bears.created, bears.numbers⟩
  fired {s h l r} e _ bears _ _ := by
    rw [Chronicle.history_firing]
    exact ⟨bears.created, bears.numbers⟩
  turned {s h i t} _ bears task := by
    have both := bears.trans (bears_turn task)
    have turned : ((s.deeds i).map fun d => (i, d)) = History.tagged i (s.deeds i) := rfl
    rw [Chronicle.history_append, Chronicle.history_deeds, turned, History.spawned_append, History.spawned_tagged,
      List.map_append, List.map_map]
    rwa [show (Prod.snd ∘ fun e : ElementRef => (i, e)) = id from rfl, List.map_id]

theorem bears_follow (o : Outside) (moves : List Move) :
    o.Bears ((empty o).follow moves).outside (((empty o).chronicle moves).history.spawned.map Prod.snd) := by
  have start : o.Bears (empty o).outside ((Chronicle.history []).spawned.map Prod.snd) := Outside.bears_none rfl
  exact (steady_bears o).follow start moves

end Session

end ActionGraph
