import ActionGraph.Proofs.Graph.Checked
import ActionGraph.Proofs.Host.Tree
import ActionGraph.Proofs.Pulse.Spawning
import ActionGraph.Proofs.Session.Constants

/-!
Checked graphs have no dead ends. Wherever the pulses of such a graph are led to, there is a node that
they run; whatever an input is fed from, there is a node that may have it; and so everything that is
made is made under a mount.
-/

namespace ActionGraph

theorem Outside.create_attached {o : Outside} {kind : String} {params : List (String × Value)} {root e : ElementRef}
    (parent : Keyed.get? "parent" params = some (.element root)) (made : (o.create kind params).2 = .ok (.element e)) :
    (o.create kind params).1.host.tree.parent e = some root ∧ e ∈ (o.create kind params).1.host.tree.children root := by
  unfold create at made ⊢
  split at made
  · cases made
  · cases made
    rename_i o' _
    have free := Tree.parent_set_detached o'.host.tree (o'.host.nextElement kind) (o'.host.nextElement kind)
      (Host.ownParams params)
    rw [if_pos rfl] at free
    simp only [Host.create, parent, Tree.parent_append, Tree.children_append, Tree.release_free free, if_true]
    exact ⟨trivial, List.mem_append_right _ List.mem_cons_self⟩

namespace Session

variable {s : Session} {h before after : Chronicle} {k : Nat} {env : Environment}

/-- Everything that a run of a checked graph makes has a mount as its parent, and the host has given
this mount. -/
theorem Told.created_under (told : s.Told h) (environment : s.environment? k = some env) (builtin : env.IsBuiltin)
    (sound : s.outside.staging.faults = []) (checked : env.graph.Checked) {i : Nat} {kind : String}
    {params : List (String × Value)} {x : Option (Except Fault Value)}
    (split : h = before ++ (k, .did i (.asked (.create kind params) x)) :: after) :
    ∃ id, Keyed.get? "parent" params = some (.element (.mount id)) ∧
      ∃ j, .asked (.mount id) (some (.ok (.element (.mount id)))) ∈ h.history.of j := by
  have listed : (k, .did i (.asked (.create kind params) x)) ∈ h := by simp [split]
  have own : h.history.of i = before.history.of i ++ .asked (.create kind params) x :: after.history.of i := by
    rw [split, Chronicle.of_split]
  obtain ⟨a, since, here, requested⟩ := (told.environment environment listed).asked _ _ _ _ own
  generalize before.history.of i = ds at here own
  cases here with
  | leaving origin _ => exact (requested.asks (Environment.notes_leave origin)).elim
  | visiting earlier id _ =>
    obtain ⟨node, root, found, spawns, parent, roots⟩ := Environment.created_visit builtin requested
    cases roots with
    | @wired first resolved later split resolves present =>
      have part : ∀ d ∈ resolved, d ∈ h.history.of i := fun d done => by simp [own, split, done]
      rw [Graph.id_of_node? found] at resolves
      cases fed : env.graph.incoming? ⟨id, "tool_in"⟩ with
      | none =>
        rw [Environment.resolve_eq_done fed] at resolves
        rw [(Action.yields_done.mp resolves).2] at present
        cases present
      | some edge =>
        obtain ⟨mount, determines⟩ := Environment.fed_mount builtin checked found spawns fed
        obtain ⟨rfl, given⟩ := told.constant_read environment determines sound fed rfl listed part resolves
        exact ⟨mount, parent, given mount rfl⟩
    | @own first rooted later split mounts =>
      have honest : ∀ d ∈ rooted, d.Given := fun d done => told.given sound i d (by simp [own, split, done])
      obtain ⟨rfl, asked⟩ := Action.yields_mount mounts honest
      exact ⟨_, parent, i, by simp [own, split, asked]⟩

/-- No dead ends. On a host without a screen, whatever happens in a session that begins with it, let a
run have built-in behaviors and a checked graph. Its pulses come only where execution edges lead, and
wherever any execution edge leads, there is a node that they run. Every input that is fed is fed by an
edge of its own kind, from a node whose type has a behavior; so only a value that is missing, and that
the node does not compute on demand, leaves it without. Whatever is made is made with a mount of the
host as its parent, and whichever host makes it puts it in there. -/
theorem checked_leads_on {o : Outside} (headless : o.Headless) (moves : List Move)
    (environment : ((empty o).follow moves).environment? k = some env) (builtin : env.IsBuiltin)
    (checked : env.graph.Checked) :
    (∀ i id, (k, .did i (.arrived id)) ∈ (empty o).chronicle moves → env.Leads id) ∧
    (∀ id, env.Leads id → ∃ node b, env.graph.node? id = some node ∧ env.repertoire.find? node.type = some b ∧
      b.executable = .ok true ∧ env.arrive id = .runnable node b) ∧
    (∀ input edge, env.graph.incoming? input = some edge → ∃ node b p, env.graph.node? edge.source.node = some node ∧
      env.repertoire.find? node.type = some b ∧ env.graph.port? input = some p ∧ p.direction = .inward ∧
      edge.kind = p.kind ∧ env.resolve input = (Action.cached edge.source).andThen fun existing =>
        if existing.isAbsent then
          if b.producer = .passive then env.supply node b edge.source.port else .done .absent
        else .done existing) ∧
    ∀ i kind params x, (k, .did i (.asked (.create kind params) (some x))) ∈ (empty o).chronicle moves →
      ∃ mount e, Keyed.get? "parent" params = some (.element (.mount mount)) ∧
        ((empty o).follow moves).outside.Mounts mount ∧ x = .ok (.element e) ∧
        ∀ p : Outside, (p.create kind params).2 = x →
          (p.create kind params).1.host.tree.parent e = some (.mount mount) ∧
            e ∈ (p.create kind params).1.host.tree.children (.mount mount) := by
  have told := told_follow headless.unheard moves
  have sound := headless.sound_follow moves
  refine ⟨fun i id arrived => ?_, fun id leads => ?_, fun input edge fed => ?_, fun i kind params x made => ?_⟩
  · obtain ⟨before, after, split⟩ := List.append_of_mem arrived
    refine (told.environment environment arrived).arrived id ?_
    rw [split, Chronicle.of_split]
    exact List.mem_append_right _ List.mem_cons_self
  · obtain ⟨origin, target⟩ := leads
    exact Environment.runs_led builtin checked target
  · exact Environment.fed_by builtin checked fed
  · obtain ⟨before, after, split⟩ := List.append_of_mem made
    obtain ⟨mount, parent, j, asked⟩ := told.created_under environment builtin sound checked split
    obtain ⟨e, rfl⟩ := (told.recorded.met before after k i _ split).create sound
    have mounted := (mounted_follow o moves).given asked
    exact ⟨mount, e, parent, mounted, rfl, fun p answer => Outside.create_attached parent answer⟩

theorem checked_leads_on_spawning :
    (∃ node b, (Demonstration.environment none (fun _ _ _ => .ended (.ok .null)) .standard).arrive "n_spawn" =
      .runnable node b) ∧
    ∃ params mount e, (0, .did 0 (.asked (.create "emoji" params) (some (.ok (.element e))))) ∈
      (empty .fresh).chronicle spawning ∧ Keyed.get? "parent" params = some (.element (.mount mount)) := by
  have environment := environment?_first .fresh (Demonstration.environment none (fun _ _ _ => .ended (.ok .null)) .standard)
    spawning.tail
  obtain ⟨led, runs, _, under⟩ :=
    checked_leads_on Outside.headless_fresh spawning environment ⟨_, rfl⟩ (Demonstration.checked none)
  have arrived : (0, .did 0 (.arrived "n_spawn")) ∈ (empty .fresh).chronicle spawning :=
    List.mem_of_getElem? (i := 3) rfl
  have made : ∃ params x, (0, .did 0 (.asked (.create "emoji" params) (some x))) ∈ (empty .fresh).chronicle spawning :=
    ⟨_, _, List.mem_of_getElem? (i := 16) rfl⟩
  obtain ⟨node, b, _, _, _, arrive⟩ := runs "n_spawn" (led 0 "n_spawn" arrived)
  obtain ⟨params, x, made⟩ := made
  obtain ⟨mount, e, parent, _, rfl, _⟩ := under 0 "emoji" params x made
  exact ⟨⟨node, b, arrive⟩, params, mount, e, made, parent⟩

end Session

end ActionGraph
