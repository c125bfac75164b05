import ActionGraph.Proofs.Action.Memory
import ActionGraph.Proofs.Behavior.Twins
import ActionGraph.Proofs.Pulse.Values

/-!
A pulse by itself. What it sees of its run is constants, the event that began it, and what its own
nodes have published; so if others leave these alone, its deeds can be compared with those of the same
pulse in any other company.
-/

namespace ActionGraph

namespace Environment

/-- An input that one of these nodes reads is fed from this port. -/
inductive Feeds (env : Environment) (nodes : List String) : Endpoint → Prop
  | intro {n : String} {node : Node} {b : Behavior} {spec : Input} {edge : Edge} : n ∈ nodes →
      env.arrive n = .runnable node b → spec ∈ b.inputs → env.graph.incoming? ⟨n, spec.port⟩ = some edge →
      Feeds env nodes edge.source

/-- What was published on outputs of nodes that pulses run. -/
def produced (env : Environment) (ds : List Deed) : List (Endpoint × Value) :=
  (ds.filterMap Deed.write?).filter fun w => (env.exit? w.1.node).isSome

@[simp] theorem produced_append (env : Environment) (ds more : List Deed) :
    env.produced (ds ++ more) = env.produced ds ++ env.produced more := by
  simp [produced]

end Environment

/-- A pulse by itself: where it runs, its trigger and its event, the nodes that it comes to, and how
animations fare. -/
structure Solo where
  env : Environment
  trigger : String
  event : Snapshot
  nodes : List String
  flight : Value → Except Fault Unit

namespace Solo

variable (p : Solo)

def eventPort : Endpoint := ⟨p.trigger, "data_out_event"⟩

/-- What a pulse that has done this sees on a port: a constant, its event, or what is its own. -/
inductive Sees (pre : List Deed) : Endpoint → Value → Prop
  | constant {port : Endpoint} {v : Value} : p.env.Determines port.node port.port v → Sees pre port v
  | event {port : Endpoint} : port = p.eventPort → Sees pre port (.event p.event)
  | own {port : Endpoint} : (∀ v, ¬ p.env.Determines port.node port.port v) → port ≠ p.eventPort →
      Sees pre port ((Cache.empty.after (p.env.produced pre)).value port)

/-- After this, the deed is answered as if the pulse were by itself. A constant need not be there yet. -/
def Honest (pre : List Deed) : Deed → Prop
  | .asked (.cached port) x => ∀ w, x = some w → p.env.Feeds p.nodes port →
      p.Sees pre port w ∨ w = .absent ∧ ∃ v, p.env.Determines port.node port.port v
  | .asked (.mount id) x => x = some (.ok (.element (.mount id)))
  | .asked (.create ..) x => ∃ e, x = some (.ok (.element e)) ∧ e ∉ Deed.births pre ∧ ∀ id, e ≠ .mount id
  | .asked (.animate _ _ duration) x => x = some (p.flight duration)
  | .asked (.destroy handle) x => x = some handle.removal
  | _ => True

/-- After this, all of these deeds are answered so. -/
def Honestly : (pre ds : List Deed) → Prop
  | _, [] => True
  | pre, d :: ds => p.Honest pre d ∧ Honestly (pre ++ [d]) ds

variable {p}

theorem honestly_append {pre ds more : List Deed} :
    p.Honestly pre (ds ++ more) ↔ p.Honestly pre ds ∧ p.Honestly (pre ++ ds) more := by
  induction ds generalizing pre with
  | nil => simp [Honestly]
  | cons d ds ih => simp [Honestly, ih, and_assoc]

theorem honestly_of_splits {pre ds : List Deed}
    (each : ∀ before d after, ds = before ++ d :: after → p.Honest (pre ++ before) d) : p.Honestly pre ds := by
  induction ds generalizing pre with
  | nil => exact trivial
  | cons d ds ih =>
    refine ⟨by simpa using each [] d ds rfl, ih fun before e after split => ?_⟩
    simpa using each (d :: before) e after (by simp [split])

/-- What these deeds and those have come to, in two companies, is the same but for the names of
elements. -/
structure Level (p : Solo) (ρ : ElementRef → ElementRef → Prop) (pre pre' : List Deed) : Prop where
  births : (Deed.births pre).length = (Deed.births pre').length
  acts : List.Forall₂ (Request.Renamed ρ) (Deed.acts pre) (Deed.acts pre')
  produced : List.Forall₂ (fun a b => a.1 = b.1 ∧ a.2.Linked ρ b.2) (p.env.produced pre) (p.env.produced pre')

variable {ρ : ElementRef → ElementRef → Prop} {pre pre' ds ds' : List Deed}

theorem level_nil : p.Level ρ [] [] := ⟨rfl, .nil, .nil⟩

theorem Level.append (level : p.Level ρ pre pre') (more : p.Level ρ ds ds') : p.Level ρ (pre ++ ds) (pre' ++ ds') where
  births := by simp [level.births, more.births]
  acts := by simpa using List.rel_append level.acts more.acts
  produced := by simpa using List.rel_append level.produced more.produced

/-- Deeds that nobody sees, and that produce nothing. -/
structure Still (p : Solo) (ds : List Deed) : Prop where
  births : Deed.births ds = []
  acts : Deed.acts ds = []
  produced : p.env.produced ds = []

theorem Still.append {more : List Deed} (first : p.Still ds) (then_ : p.Still more) : p.Still (ds ++ more) :=
  ⟨by simp [first.births, then_.births], by simp [first.acts, then_.acts], by simp [first.produced, then_.produced]⟩

theorem Still.level (first : p.Still ds) (second : p.Still ds') : p.Level ρ ds ds' where
  births := by rw [first.births, second.births]
  acts := by rw [first.acts, second.acts]; exact .nil
  produced := by rw [first.produced, second.produced]; exact .nil

end Solo

namespace Action.Comes

variable {α : Type} {ds : List Deed} {o : Except Fault α}

theorem of_done {x : α} (comes : (Action.done x).Comes ds o) : ds = [] ∧ o = .ok x := by
  cases o with
  | ok y =>
    obtain ⟨rfl, rfl⟩ := yields_done.mp comes
    exact ⟨rfl, rfl⟩
  | error e => cases comes

theorem of_failed {e : Fault} (comes : (Action.failed e : Action α).Comes ds o) : ds = [] ∧ o = .error e := by
  cases o with
  | ok y => cases comes
  | error e' =>
    cases comes
    exact ⟨rfl, rfl⟩

theorem of_prompt {r : Request} {next : r.Answer → Action α} (comes : (ask r next).Comes ds o) (prompt : r.Prompt) :
    ∃ y rest, ds = .asked r (some y) :: rest ∧ (next y).Comes rest o := by
  obtain ⟨x, rest, rfl, y, same, slow, further⟩ := comes.of_ask
  cases x with
  | none => exact absurd prompt (slow rfl)
  | some z =>
    obtain rfl := same z rfl
    exact ⟨z, rest, rfl, further⟩

end Action.Comes

namespace Solo

open ActionGraph.Action

variable {p : Solo} {es fs : List ElementRef} {pre pre' ds ds' : List Deed} {ρ : ElementRef → ElementRef → Prop}
  {v w : Value}

theorem at_of_prefix {born later : List ElementRef} {e : ElementRef} (within : born ++ e :: later <+: es) :
    es[born.length]? = some e := by
  obtain ⟨more, rfl⟩ := within
  simp

/-- After the first, the other deeds are answered as if the pulse were by itself, and of all the elements
that are made in the end, those that have been made are the first. -/
structure Lives (p : Solo) (es : List ElementRef) (pre ds : List Deed) : Prop where
  honest : p.Honestly pre ds
  within : Deed.births (pre ++ ds) <+: es

theorem Lives.split (lives : p.Lives es pre (ds ++ ds')) : p.Lives es pre ds ∧ p.Lives es (pre ++ ds) ds' := by
  obtain ⟨first, second⟩ := honestly_append.mp lives.honest
  have within := lives.within
  rw [← List.append_assoc] at within
  refine ⟨⟨first, List.IsPrefix.trans ?_ within⟩, second, within⟩
  rw [Deed.births_append (pre ++ ds)]
  exact List.prefix_append _ _

theorem Lives.tail {d : Deed} (lives : p.Lives es pre (d :: ds)) : p.Lives es (pre ++ [d]) ds := by
  rw [← List.singleton_append] at lives
  exact lives.split.2

theorem level_cons {d d' : Deed} {P : Prop} (one : p.Level (Paired es fs) [d] [d'])
    (level : p.Level (Paired es fs) pre pre') (lives : p.Lives es pre (d :: ds)) (lives' : p.Lives fs pre' (d' :: ds'))
    (further : ∀ pre pre', p.Level (Paired es fs) pre pre' → p.Lives es pre ds → p.Lives fs pre' ds' →
      P ∧ p.Level (Paired es fs) (pre ++ ds) (pre' ++ ds')) :
    P ∧ p.Level (Paired es fs) (pre ++ d :: ds) (pre' ++ d' :: ds') := by
  have both := further (pre ++ [d]) (pre' ++ [d']) (level.append one) lives.tail lives'.tail
  simpa only [List.append_assoc, List.singleton_append] using both

/-- After these deeds, the request gets this answer: no other is honest, and none is not to be had. -/
def Answered (p : Solo) (pre : List Deed) (r : Request) (y : r.Answer) : Prop :=
  ∀ x, (x = none → ¬ r.Prompt) → p.Honest pre (.asked r x) → x = some y

theorem answered_prompt (r : Request) (prompt : r.Prompt) {y : r.Answer} (only : ∀ z, z = y) : p.Answered pre r y := by
  intro x slow _
  cases x with
  | none => exact absurd prompt (slow rfl)
  | some z => rw [only z]

theorem level_ask {α β : Type} {R : α → β → Prop} {r r' : Request} {next : r.Answer → Action α}
    {next' : r'.Answer → Action β} {o : Except Fault α} {o' : Except Fault β} (comes : (ask r next).Comes ds o)
    (comes' : (ask r' next').Comes ds' o') (level : p.Level (Paired es fs) pre pre') (lives : p.Lives es pre ds)
    (lives' : p.Lives fs pre' ds') {y : r.Answer} {y' : r'.Answer} (answered : p.Answered pre r y)
    (answered' : p.Answered pre' r' y') (one : p.Level (Paired es fs) [.asked r (some y)] [.asked r' (some y')])
    (further : ∀ {pre pre' ds ds'}, p.Level (Paired es fs) pre pre' → p.Lives es pre ds → p.Lives fs pre' ds' →
      (next y).Comes ds o → (next' y').Comes ds' o' →
      Outcomes R o o' ∧ p.Level (Paired es fs) (pre ++ ds) (pre' ++ ds')) :
    Outcomes R o o' ∧ p.Level (Paired es fs) (pre ++ ds) (pre' ++ ds') := by
  obtain ⟨x, rest, rfl, z, same, slow, comes⟩ := comes.of_ask
  obtain ⟨x', rest', rfl, z', same', slow', comes'⟩ := comes'.of_ask
  obtain rfl := answered x slow lives.honest.1
  obtain rfl := answered' x' slow' lives'.honest.1
  obtain rfl := same y rfl
  obtain rfl := same' y' rfl
  exact level_cons one level lives lives' fun _ _ level lives lives' => further level lives lives' comes comes'

theorem level_publish (port : Endpoint) (linked : v.Linked ρ w) (x x' : Option Unit) :
    p.Level ρ [.asked (.publish port v) x] [.asked (.publish port w) x'] := by
  refine ⟨rfl, .nil, ?_⟩
  cases runs : (p.env.exit? port.node).isSome with
  | true => simpa [Environment.produced, Deed.write?, runs] using linked
  | false => simp [Environment.produced, Deed.write?, runs]

/-- Twins that have been answered honestly on both sides have done the same, but for the names of the
elements that were made. -/
theorem follow_twins {α β : Type} {R : α → β → Prop} {a : Action α} {a' : Action β}
    (twins : Twins (Paired es fs) p.flight R a a') (level : p.Level (Paired es fs) pre pre') (lives : p.Lives es pre ds)
    (lives' : p.Lives fs pre' ds') {o : Except Fault α} {o' : Except Fault β} (comes : a.Comes ds o)
    (comes' : a'.Comes ds' o') : Outcomes R o o' ∧ p.Level (Paired es fs) (pre ++ ds) (pre' ++ ds') := by
  induction twins generalizing pre pre' ds ds' with
  | done related =>
    obtain ⟨rfl, rfl⟩ := comes.of_done
    obtain ⟨rfl, rfl⟩ := comes'.of_done
    exact ⟨.ok related, by simpa using level⟩
  | failed e =>
    obtain ⟨rfl, rfl⟩ := comes.of_failed
    obtain ⟨rfl, rfl⟩ := comes'.of_failed
    exact ⟨.error e, by simpa using level⟩
  | diagnose _ ih =>
    exact level_ask comes comes' level lives lives' (answered_prompt (.diagnose _) trivial fun _ => rfl)
      (answered_prompt (.diagnose _) trivial fun _ => rfl) ⟨rfl, .nil, .nil⟩ ih
  | @publish port _ _ _ _ linked _ ih =>
    exact level_ask comes comes' level lives lives' (answered_prompt (.publish port _) trivial fun _ => rfl)
      (answered_prompt (.publish port _) trivial fun _ => rfl) (level_publish port linked _ _) ih
  | log same _ ih =>
    exact level_ask comes comes' level lives lives' (answered_prompt (.log _ _) trivial fun _ => rfl)
      (answered_prompt (.log _ _) trivial fun _ => rfl) ⟨rfl, .cons (.log same) .nil, .nil⟩ ih
  | mount _ ih =>
    exact level_ask comes comes' level lives lives' (fun _ _ given => given) (fun _ _ given => given) ⟨rfl, .nil, .nil⟩ ih
  | create same _ ih =>
    -- What is made here and there need not have one name: the two are paired by the order in which they were made.
    obtain ⟨x, rest, rfl, y, answer, _, further⟩ := comes.of_ask
    obtain ⟨x', rest', rfl, y', answer', _, further'⟩ := comes'.of_ask
    obtain ⟨e, rfl, _, _⟩ := lives.honest.1
    obtain ⟨f, rfl, _, _⟩ := lives'.honest.1
    obtain rfl := answer _ rfl
    obtain rfl := answer' _ rfl
    have born : Deed.births pre ++ e :: Deed.births rest <+: es := by
      simpa [Deed.births, Deed.created?] using lives.within
    have born' : Deed.births pre' ++ f :: Deed.births rest' <+: fs := by
      simpa [Deed.births, Deed.created?] using lives'.within
    have pair : Paired es fs e f := .inr ⟨_, at_of_prefix born, level.births ▸ at_of_prefix born'⟩
    exact level_cons ⟨rfl, .cons (.create same) .nil, .nil⟩ level lives lives' fun _ _ level lives lives' =>
      ih e f pair level lives lives' further further'
  | animate linked _ ih =>
    exact level_ask comes comes' level lives lives' (fun _ _ given => given) (fun _ _ given => given)
      ⟨rfl, .cons (.animate linked) .nil, .nil⟩ ih
  | destroy linked _ ih =>
    exact level_ask comes comes' level lives lives' (fun _ _ given => given) (fun _ _ given => given)
      ⟨rfl, .cons (.destroy linked) .nil, .nil⟩ ih

end Solo

end ActionGraph
