import ActionGraph.Proofs.Session.Recount

/-!
What a host was asked to mount it keeps. No request, and nothing that happens to a session, takes a
mount away.
-/

namespace ActionGraph

namespace Outside

variable {o : Outside} {id : String}

/-- The host has this mount. -/
def Mounts (o : Outside) (id : String) : Prop := id ∈ o.host.mounts

theorem Mounts.of_stock {p : Outside} (h : o.Mounts id) (same : p.stock = o.stock) : p.Mounts id :=
  show id ∈ p.stock.mounts from same ▸ h

theorem Mounts.mount (h : o.Mounts id) (other : String) : (o.mount other).1.Mounts id := by
  rw [mount_eq]
  refine planned_keeps (P := fun p => p.Mounts id) _ .mount h fun p had => ?_
  unfold Mounts Host.mount
  dsimp only
  split
  · exact had
  · exact List.mem_append_left _ had

theorem mounts_mount {v : Value} (given : (o.mount id).2 = .ok v) : (o.mount id).1.Mounts id := by
  rw [mount_eq, planned] at given ⊢
  split
  · rename_i f failed
    simp [failed] at given
  · unfold Mounts Host.mount
    dsimp only
    split
    · assumption
    · exact List.mem_append_right _ List.mem_cons_self

theorem Mounts.create (h : o.Mounts id) (kind : String) (params : List (String × Value)) :
    (o.create kind params).1.Mounts id := by
  rw [create_eq]
  exact planned_keeps (P := fun p => p.Mounts id) _ .create h fun _ had => had

theorem Mounts.destroy (h : o.Mounts id) (handle : Value) : (o.destroy handle).1.Mounts id := by
  rw [destroy_eq]
  refine planned_keeps (P := fun p => p.Mounts id) _ .destroy h fun p had => ?_
  unfold remove
  split
  · exact had
  · rename_i destroyed
    obtain ⟨_, rfl⟩ := Host.destroy_tree destroyed
    exact had

end Outside

namespace Scene

variable {s : Scene} {id : String}

theorem mounts_call {α : Type} (h : s.outside.Mounts id) (due : Bool) {make : Outside → Outside × α}
    (makes : (make s.outside).1.Mounts id) : (s.call due make).1.outside.Mounts id := by
  rcases s.call_cases due make with again | now
  · simpa [again] using h
  · simpa [now] using makes

theorem mounts_meet (h : s.outside.Mounts id) (due : Bool) (r : Request) : (s.meet due r).1.outside.Mounts id := by
  cases r with
  | log message data => exact h.of_stock (s.outside.stock_log message data)
  | mount other => exact mounts_call h due (h.mount other)
  | create kind params => exact mounts_call h due (h.create kind params)
  | destroy handle => exact mounts_call h due (h.destroy handle)
  | animate handle keyframes duration =>
    have same : s.meet due (.animate handle keyframes duration) = s.meet false (.animate handle keyframes duration) := rfl
    rw [same]
    obtain ⟨o, stock, ⟨f, now⟩ | later | ⟨gate, wait⟩⟩ := s.meet_animate handle keyframes duration
    · exact now ▸ h.of_stock stock
    · exact later ▸ h.of_stock stock
    · exact wait ▸ h.of_stock stock
  | _ => exact h

theorem mounts_given {s' : Scene} {due : Bool} {v : Value} (met : s.meet due (.mount id) = (s', .now (.ok v))) :
    s'.outside.Mounts id := by
  have called : s.call due (·.mount id) = (s', .now (.ok v)) := met
  rcases s.call_cases due (·.mount id) with again | now
  · simp [again] at called
  · simp only [now, Prod.mk.injEq, Reply.now.injEq] at called
    obtain ⟨rfl, given⟩ := called
    exact Outside.mounts_mount given

end Scene

namespace Action

variable {α : Type} {id : String}

theorem mounts_perform (a : Action α) {s : Scene} (h : s.outside.Mounts id) (due : Bool) :
    (a.perform due s).1.outside.Mounts id := by
  induction a generalizing due s with
  | done x => exact h
  | failed e => exact h
  | ask r next ih =>
    have kept := Scene.mounts_meet h due r
    rw [perform]
    rcases met : s.meet due r with ⟨s', x | x | _ | ⟨gate, answer⟩⟩
    · rw [met] at kept
      exact ih x kept false
    · simpa [met] using kept
    · simpa [met] using kept
    · simpa [met] using kept

theorem mounts_deeds (a : Action α) (due : Bool) (s : Scene) {v : Value}
    (given : .asked (.mount id) (some (.ok v)) ∈ a.deeds due s) : (a.perform due s).1.outside.Mounts id := by
  induction a generalizing due s with
  | done x => cases given
  | failed e => cases given
  | ask r next ih =>
    rcases deeds_ask r next due s with none | ⟨x, only, later⟩ | ⟨x, s', met, more⟩
    · simp [none] at given
    · rw [only] at given
      obtain ⟨rfl, same⟩ := Deed.asked.inj (List.mem_singleton.mp given)
      obtain ⟨s', met⟩ := later _ (eq_of_heq same).symm
      rcases s.call_cases due (·.mount id) with again | now
      · cases met.symm.trans again
      · cases met.symm.trans now
    · rw [more] at given
      rw [perform, met]
      rcases List.mem_cons.mp given with first | later
      · obtain ⟨rfl, same⟩ := Deed.asked.inj first
        obtain rfl := Option.some.inj (eq_of_heq same)
        exact (next _).mounts_perform (Scene.mounts_given met) false
      · exact ih x false s' later

end Action

namespace Thread

variable {α : Type} {id : String} {s : Scene}

theorem mounts_perform (t : Thread α) (h : s.outside.Mounts id) : (t.perform s).1.outside.Mounts id := by
  cases t with
  | ready a => exact a.mounts_perform h false
  | due a => exact a.mounts_perform h true
  | waiting gate next => exact h

theorem mounts_deeds (t : Thread α) {v : Value} (given : .asked (.mount id) (some (.ok v)) ∈ t.deeds s) :
    (t.perform s).1.outside.Mounts id := by
  cases t with
  | ready a => exact a.mounts_deeds false s given
  | due a => exact a.mounts_deeds true s given
  | waiting gate next => cases given

end Thread

namespace Session

variable {s : Session} {h : Chronicle} {id : String} {i : Nat}

theorem mounts_advance {t : Task} (had : s.outside.Mounts id) (task : s.tasks[i]? = some t) :
    (s.advance i).outside.Mounts id := by
  cases s.goes i task with
  | rests _ _ outside _ => exact outside ▸ had
  | @pulses r p _ _ _ _ outside _ => exact outside ▸ p.visit.mounts_perform had
  | @looks r thread _ _ _ _ outside _ => exact outside ▸ thread.mounts_perform had

theorem mounts_turn {t : Task} (task : s.tasks[i]? = some t) {v : Value}
    (given : .asked (.mount id) (some (.ok v)) ∈ s.deeds i) : (s.advance i).outside.Mounts id := by
  cases s.goes i task with
  | rests done _ _ _ => simp [done] at given
  | @pulses r p _ _ done _ outside _ =>
    rw [done] at given
    rw [outside]
    rcases List.mem_append.mp given with given | arrives
    · exact p.visit.mounts_deeds given
    · obtain ⟨other, same⟩ := p.of_arrival arrives
      cases same
  | @looks r thread _ _ done _ outside _ =>
    rw [done] at given
    exact outside ▸ thread.mounts_deeds given

/-- Every mount that was given is kept. -/
def Mounted (s : Session) (h : Chronicle) : Prop :=
  ∀ k i id v, (k, .did i (.asked (.mount id) (some (.ok v)))) ∈ h → s.outside.Mounts id

theorem steady_mounted : Steady (fun _ _ => True) Mounted where
  quiet _ mounted quiet k i id v given := (mounted k i id v given).of_stock quiet.stock
  started {s h} env _ mounted k i id v given := (mounted k i id v given).of_stock (s.stock_start env)
  fired {s h l r} e _ mounted _ _ := by
    intro k i id v given
    rcases List.mem_append.mp given with given | last
    · exact mounted k i id v given
    · simp [Firing.happening] at last
  turned {s h i t} _ mounted task := by
    intro k j id v given
    rcases List.mem_append.mp given with given | turned
    · exact mounts_advance (mounted k j id v given) task
    · obtain ⟨d, done, same⟩ := List.mem_map.mp turned
      cases same
      exact mounts_turn task done

theorem mounted_follow (o : Outside) (moves : List Move) :
    ((empty o).follow moves).Mounted ((empty o).chronicle moves) := by
  have mounted : (empty o).Mounted [] := fun _ _ _ _ given => absurd given List.not_mem_nil
  exact steady_mounted.follow mounted moves

end Session

end ActionGraph
