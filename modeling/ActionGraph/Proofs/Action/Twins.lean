import ActionGraph.Proofs.Action.Course
import ActionGraph.Proofs.Session.Elements
import ActionGraph.Proofs.Value.Renaming

/-!
Actions that differ in nothing but the names of elements. Two such actions make the same requests, as
long as they are answered as a host without a screen answers: it gives every mount, makes every
element, and takes out and animates whatever it can.
-/

namespace ActionGraph

/-- What comes of taking something out of a host. -/
def Value.removal (v : Value) : Except Fault Unit := ((Host.empty .null : Host Unit).destroy v).map fun _ => ()

/-- What comes of an animation of this duration, on a host that scales time like this. -/
def Value.flight (timeScale duration : Value) : Except Fault Unit :=
  ((Host.empty timeScale : Host Unit).seconds duration).map fun _ => ()

theorem Host.removal_destroy {η : Type} (h : Host η) (v : Value) : (h.destroy v).map (fun _ => ()) = v.removal := by
  unfold Value.removal destroy
  split
  · rfl
  · split <;> rfl

theorem Host.flight_seconds {η : Type} (h : Host η) (duration : Value) :
    (h.seconds duration).map (fun _ => ()) = h.timeScale.flight duration := rfl

theorem Value.Linked.removal {ρ : ElementRef → ElementRef → Prop} {v w : Value} (linked : Linked ρ v w) :
    w.removal = v.removal := by
  cases linked <;> rfl

/-- The same act, up to the renaming of elements. -/
inductive Request.Renamed (ρ : ElementRef → ElementRef → Prop) : Request → Request → Prop
  | log {message : String} {data data' : Value} : data.Renamed ρ data' → Renamed ρ (.log message data) (.log message data')
  | create {kind : String} {params params' : List (String × Value)} : Value.Entries ρ params params' →
      Renamed ρ (.create kind params) (.create kind params')
  | animate {handle handle' keyframes duration : Value} : handle.Linked ρ handle' →
      Renamed ρ (.animate handle keyframes duration) (.animate handle' keyframes duration)
  | destroy {handle handle' : Value} : handle.Linked ρ handle' → Renamed ρ (.destroy handle) (.destroy handle')

namespace Deed

/-- What others can see of a deed: a log entry, or what the host is asked to make, animate or take out. -/
def act? : Deed → Option Request
  | .asked (.log message data) _ => some (.log message data)
  | .asked (.create kind params) _ => some (.create kind params)
  | .asked (.animate handle keyframes duration) _ => some (.animate handle keyframes duration)
  | .asked (.destroy handle) _ => some (.destroy handle)
  | _ => none

/-- What can be seen of deeds, in order. -/
def acts (ds : List Deed) : List Request := ds.filterMap act?

/-- The elements that were made, in order. -/
def births (ds : List Deed) : List ElementRef := ds.filterMap created?

variable (ds more : List Deed)

@[simp] theorem acts_append : acts (ds ++ more) = acts ds ++ acts more := List.filterMap_append

@[simp] theorem births_append : births (ds ++ more) = births ds ++ births more := List.filterMap_append

end Deed

/-- Outcomes that are alike: the same fault, or results that are related. -/
inductive Outcomes {α β : Type} (R : α → β → Prop) : Except Fault α → Except Fault β → Prop
  | ok {x : α} {y : β} : R x y → Outcomes R (.ok x) (.ok y)
  | error (f : Fault) : Outcomes R (.error f) (.error f)

namespace Action

/-- By these deeds the action comes to this outcome. -/
def Comes {α : Type} (a : Action α) (ds : List Deed) : Except Fault α → Prop
  | .ok x => a.Yields ds x
  | .error f => a.Reaches ds (.failed f)

section

variable {α β : Type} {a : Action α} {f : α → Action β} {ds : List Deed}

/-- What follows on an outcome comes to this. A fault ends both. -/
def Follows (f : α → Action β) (ds : List Deed) (o : Except Fault β) : Except Fault α → Prop
  | .ok x => (f x).Comes ds o
  | .error e => ds = [] ∧ o = .error e

theorem Comes.of_andThen {o : Except Fault β} (comes : (a.andThen f).Comes ds o) :
    ∃ outcome before after, ds = before ++ after ∧ a.Comes before outcome ∧ Follows f after o outcome := by
  cases o with
  | ok y =>
    obtain ⟨x, before, after, split, first, rest⟩ := Yields.of_andThen comes
    exact ⟨.ok x, before, after, split, first, rest⟩
  | error e =>
    rcases Reaches.of_andThen comes with ⟨b, reached, same⟩ | ⟨x, before, after, split, first, rest⟩
    · cases b with
      | done x =>
        rw [done_andThen] at same
        have last : (f x).Reaches [] (.failed e) := same ▸ .start _
        exact ⟨.ok x, ds, [], (List.append_nil ds).symm, reached, last⟩
      | failed e' =>
        cases same
        exact ⟨.error e, ds, [], (List.append_nil ds).symm, reached, rfl, rfl⟩
      | ask r next => cases same
    · exact ⟨.ok x, before, after, split, first, rest⟩

theorem Comes.of_trial {k : Except Fault α → Action β} {o : Except Fault β} (comes : (a.attempt.andThen k).Comes ds o) :
    ∃ outcome before after, ds = before ++ after ∧ a.Comes before outcome ∧ (k outcome).Comes after o := by
  obtain ⟨tried, before, after, split, trial, rest⟩ := comes.of_andThen
  cases tried with
  | ok outcome =>
    refine ⟨outcome, before, after, split, ?_, rest⟩
    rcases Yields.of_attempt trial with ⟨x, rfl, done⟩ | ⟨e, rfl, failed⟩
    · exact done
    · exact failed
  | error e =>
    obtain ⟨b, _, same⟩ := Reaches.of_attempt trial
    cases b <;> cases same

theorem Comes.of_ask {r : Request} {next : r.Answer → Action α} {o : Except Fault α} (comes : (ask r next).Comes ds o) :
    ∃ x rest, ds = .asked r x :: rest ∧ ∃ y, (∀ z, x = some z → z = y) ∧ (x = none → ¬ r.Prompt) ∧
      (next y).Comes rest o := by
  have reached : ∀ b, (ask r next).Reaches ds b → (∀ r' next', b ≠ .ask r' next') →
      ∃ x rest, ds = .asked r x :: rest ∧ ∃ y, (∀ z, x = some z → z = y) ∧ (x = none → ¬ r.Prompt) ∧
        (next y).Reaches rest b := by
    intro b reached last
    cases reached with
    | start _ => exact absurd rfl (last r next)
    | answered x rest => exact ⟨some x, _, rfl, x, fun z same => (Option.some.inj same).symm, nofun, rest⟩
    | settled slow x rest => exact ⟨none, _, rfl, x, nofun, fun _ => slow, rest⟩
  cases o with
  | ok y => exact reached _ comes nofun
  | error e => exact reached _ comes nofun

end

variable {α β γ δ : Type} {ρ : ElementRef → ElementRef → Prop} {flight : Value → Except Fault Unit}

/-- Answered as a host without a screen answers, these actions make the same requests and come to
results that are related. -/
inductive Twins (ρ : ElementRef → ElementRef → Prop) (flight : Value → Except Fault Unit) {α β : Type}
    (R : α → β → Prop) : Action α → Action β → Prop
  | done {x : α} {y : β} : R x y → Twins ρ flight R (.done x) (.done y)
  | failed (e : Fault) : Twins ρ flight R (.failed e) (.failed e)
  | diagnose {line line' : String} {next : Unit → Action α} {next' : Unit → Action β} :
      Twins ρ flight R (next ()) (next' ()) → Twins ρ flight R (.ask (.diagnose line) next) (.ask (.diagnose line') next')
  | publish {port : Endpoint} {v w : Value} {next : Unit → Action α} {next' : Unit → Action β} : v.Linked ρ w →
      Twins ρ flight R (next ()) (next' ()) → Twins ρ flight R (.ask (.publish port v) next) (.ask (.publish port w) next')
  | log {message : String} {data data' : Value} {next : Unit → Action α} {next' : Unit → Action β} :
      data.Renamed ρ data' → Twins ρ flight R (next ()) (next' ()) →
      Twins ρ flight R (.ask (.log message data) next) (.ask (.log message data') next')
  | mount {id : String} {next : Except Fault Value → Action α} {next' : Except Fault Value → Action β} :
      Twins ρ flight R (next (.ok (.element (.mount id)))) (next' (.ok (.element (.mount id)))) →
      Twins ρ flight R (.ask (.mount id) next) (.ask (.mount id) next')
  | create {kind : String} {params params' : List (String × Value)} {next : Except Fault Value → Action α}
      {next' : Except Fault Value → Action β} : Value.Entries ρ params params' →
      (∀ e f, ρ e f → Twins ρ flight R (next (.ok (.element e))) (next' (.ok (.element f)))) →
      Twins ρ flight R (.ask (.create kind params) next) (.ask (.create kind params') next')
  | animate {handle handle' keyframes duration : Value} {next : Except Fault Unit → Action α}
      {next' : Except Fault Unit → Action β} : handle.Linked ρ handle' →
      Twins ρ flight R (next (flight duration)) (next' (flight duration)) →
      Twins ρ flight R (.ask (.animate handle keyframes duration) next) (.ask (.animate handle' keyframes duration) next')
  | destroy {handle handle' : Value} {next : Except Fault Unit → Action α} {next' : Except Fault Unit → Action β} :
      handle.Linked ρ handle' → Twins ρ flight R (next handle.removal) (next' handle'.removal) →
      Twins ρ flight R (.ask (.destroy handle) next) (.ask (.destroy handle') next')

namespace Twins

variable {R : α → β → Prop} {S : γ → δ → Prop} {a : Action α} {a' : Action β}

theorem ofExcept {o : Except Fault α} {o' : Except Fault β} (alike : Outcomes R o o') :
    Twins ρ flight R (Action.ofExcept o) (Action.ofExcept o') := by
  cases alike with
  | ok related => exact .done related
  | error e => exact .failed e

theorem andThen {f : α → Action γ} {f' : β → Action δ} (first : Twins ρ flight R a a')
    (rest : ∀ x y, R x y → Twins ρ flight S (f x) (f' y)) : Twins ρ flight S (a.andThen f) (a'.andThen f') := by
  induction first with
  | done related => exact rest _ _ related
  | failed e => exact .failed e
  | diagnose _ ih => exact .diagnose ih
  | publish linked _ ih => exact .publish linked ih
  | log same _ ih => exact .log same ih
  | mount _ ih => exact .mount ih
  | create same _ ih => exact .create same fun e f pair => ih e f pair
  | animate linked _ ih => exact .animate linked ih
  | destroy linked _ ih => exact .destroy linked ih

end Twins

end Action

end ActionGraph
