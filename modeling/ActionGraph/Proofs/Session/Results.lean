import ActionGraph.Proofs.Session.Lasting
import ActionGraph.Proofs.Session.Mounts

/-!
What answers leave behind. Whatever is true of the outside right after a request was answered in some
way, and lasts, is true of every session in whose chronicle the request was answered so.
-/

namespace ActionGraph

/-- Whoever meets the request with this answer leaves the outside like that. -/
def Request.Leaves (r : Request) (x : r.Answer) (P : Outside → Prop) : Prop :=
  ∀ (s s' : Scene) (due : Bool), s.meet due r = (s', .now x) ∨ s.meet due r = (s', .later x) → P s'.outside

namespace Outside.Lasting

variable {P : Outside → Prop} (lasting : Lasting P) {r : Request} {x : r.Answer} (leaves : r.Leaves x P)

include lasting leaves

theorem after_deeds {α : Type} (a : Action α) (due : Bool) (s : Scene)
    (done : .asked r (some x) ∈ a.deeds due s) : P (a.perform due s).1.outside := by
  induction a generalizing due s with
  | done y => cases done
  | failed e => cases done
  | ask r' next ih =>
    rw [Action.deeds] at done
    rw [Action.perform]
    rcases met : s.meet due r' with ⟨s', y | y | _ | ⟨gate, answer⟩⟩
    · rw [met] at done
      rcases List.mem_cons.mp done with first | later
      · obtain ⟨rfl, same⟩ := Deed.asked.inj first
        obtain rfl := Option.some.inj (eq_of_heq same)
        exact lasting.perform (next x) false (leaves s s' due (.inl met))
      · exact ih y false s' later
    · rw [met] at done
      obtain ⟨rfl, same⟩ := Deed.asked.inj (List.mem_singleton.mp done)
      obtain rfl := Option.some.inj (eq_of_heq same)
      exact leaves s s' due (.inr met)
    · simp [met] at done
    · rw [met] at done
      obtain ⟨rfl, same⟩ := Deed.asked.inj (List.mem_singleton.mp done)
      cases eq_of_heq same

theorem after_thread {α : Type} (t : Thread α) (s : Scene) (done : .asked r (some x) ∈ t.deeds s) :
    P (t.perform s).1.outside := by
  cases t with
  | ready a => exact lasting.after_deeds leaves a false s done
  | due a => exact lasting.after_deeds leaves a true s done
  | waiting gate next => cases done

theorem after_turn {s : Session} {i : Nat} {t : Task} (task : s.tasks[i]? = some t)
    (done : .asked r (some x) ∈ s.deeds i) : P (s.advance i).outside := by
  cases s.goes i task with
  | rests none _ _ _ => simp [none] at done
  | @pulses q p _ _ all _ outside _ =>
    rw [all] at done
    rw [outside]
    rcases List.mem_append.mp done with done | arrives
    · exact lasting.after_thread leaves p.visit (s.scene q) done
    · obtain ⟨other, same⟩ := p.of_arrival arrives
      cases same
  | @looks q thread _ _ all _ outside _ =>
    rw [all] at done
    rw [outside]
    exact lasting.after_thread leaves thread (s.scene q) done

/-- It is true of every session in whose chronicle the request was answered so, if it goes by what is
on the host alone. -/
theorem steady_left (stock : ∀ o p : Outside, p.stock = o.stock → P o → P p) :
    Session.Steady (fun _ _ => True) fun s h => (∃ k i, (k, .did i (.asked r (some x))) ∈ h) → P s.outside where
  quiet _ held quiet told := stock _ _ quiet.stock (held told)
  started env _ held told := stock _ _ (Session.stock_start _ env) (held told)
  fired {s h l q} e _ held _ _ := by
    rintro ⟨k, i, told⟩
    rcases List.mem_append.mp told with told | last
    · exact stock s.outside _ rfl (held ⟨k, i, told⟩)
    · simp [Firing.happening] at last
  turned {s h i t} _ held task := by
    rintro ⟨k, j, told⟩
    rcases List.mem_append.mp told with told | turned
    · exact lasting.advance (held ⟨k, j, told⟩) i
    · obtain ⟨d, done, same⟩ := List.mem_map.mp turned
      cases same
      exact lasting.after_turn leaves task done

end Outside.Lasting

/-- The element is one of those that the host has made. -/
def Outside.Made (o : Outside) (e : ElementRef) : Prop := e ∈ o.host.created

namespace Outside

theorem lasting_made (e : ElementRef) : Lasting fun o => o.Made e where
  recorded _ h := h
  handed h := h
  timed h := h
  counted _ h := h
  gated h := h
  mounted {o} id h := by
    unfold Outside.Made Host.mount
    dsimp only
    split <;> exact h
  created _ _ h := List.mem_append_left _ h
  animated _ _ _ h := h
  destroyed removed h := by
    obtain ⟨_, rfl⟩ := Host.destroy_tree removed
    exact h

theorem made_create {o : Outside} {kind : String} {params : List (String × Value)} {e : ElementRef}
    (given : (o.create kind params).2 = .ok (.element e)) : (o.create kind params).1.Made e := by
  unfold create at given ⊢
  split at given
  · cases given
  · cases given
    exact List.mem_append_right _ List.mem_cons_self

theorem leaves_made (kind : String) (params : List (String × Value)) (e : ElementRef) :
    Request.Leaves (.create kind params) (.ok (.element e)) fun o => o.Made e := by
  intro s s' due met
  have called : s.call due (·.create kind params) = (s', .now (.ok (.element e))) ∨
      s.call due (·.create kind params) = (s', .later (.ok (.element e))) := met
  rcases s.call_cases due (·.create kind params) with again | now
  · simp [again] at called
  · simp only [now, Prod.mk.injEq, Reply.now.injEq, reduceCtorEq, and_false, or_false] at called
    obtain ⟨rfl, given⟩ := called
    exact made_create given

end Outside

namespace Session

theorem made_follow (o : Outside) (moves : List Move) {k i : Nat} {kind : String} {params : List (String × Value)}
    {e : ElementRef} (told : (k, .did i (.asked (.create kind params) (some (.ok (.element e))))) ∈
      (empty o).chronicle moves) : ((empty o).follow moves).outside.Made e := by
  have steady := (Outside.lasting_made e).steady_left (Outside.leaves_made kind params e)
    fun p q same made => show e ∈ q.stock.created from same ▸ made
  have start : (∃ k i, (k, Happening.did i (.asked (.create kind params) (some (.ok (.element e))))) ∈
      ([] : Chronicle)) → (empty o).outside.Made e := fun ⟨_, _, told⟩ => absurd told List.not_mem_nil
  exact steady.follow start moves ⟨k, i, told⟩

end Session

end ActionGraph
