import ActionGraph.Proofs.Demonstration.Phases
import ActionGraph.Proofs.Host.Tree

/-!
What is in the mount of the demonstration: the elements of those pulses that have taken out nothing
yet, in the order in which they were made.
-/

namespace ActionGraph.Demonstration

/-- The elements that were made are numbered, and those that were kept are in the mount. -/
structure Furnished (host : Host Listener) (h : History) : Prop where
  made : host.created = h.spawned.map (·.2)
  numbered : host.created = (List.range host.created.length).map fun k => .created (k + 1) "emoji"
  held : host.tree.Holds overlay h.kept
  mounted : h.spawned = [] ∨ "cj-ui-overlay" ∈ host.mounts

variable {host : Host Listener} {h : History}

theorem Furnished.nodup (f : Furnished host h) : (h.spawned.map (·.2)).Nodup := by
  rw [← f.made, f.numbered]
  refine List.Nodup.map (fun a b same => ?_) List.nodup_range
  injection same with number
  exact Nat.succ.inj number

theorem Furnished.new (f : Furnished host h) : host.nextElement "emoji" ∉ h.spawned.map (·.2) := by
  rw [← f.made, f.numbered]
  intro listed
  obtain ⟨k, within, same⟩ := List.mem_map.mp listed
  injection same with number
  have bound := List.mem_range.mp within
  omega

theorem Furnished.live (f : Furnished host h) : host.live "cj-ui-overlay" = h.kept := by
  unfold Host.live
  split
  · exact f.held.children
  · rename_i missing
    rcases f.mounted with none | there
    · rw [History.kept, none]
      rfl
    · exact absurd there missing

theorem Furnished.effect {s s' : Scene} {i : Nat} {ds : List Deed} (f : Furnished s.outside.host h)
    (keeps : h.keeps i = true) (effect : Effect s s' (h.of i) ds) :
    Furnished s'.outside.host (h ++ History.tagged i ds) := by
  cases effect with
  | steady steady ledger =>
    have spawned : (h ++ History.tagged i ds).spawned = h.spawned := by
      rw [History.spawned_append, History.spawned_tagged, ledger.created, List.map_nil, List.append_nil]
    have kept : (h ++ History.tagged i ds).kept = h.kept := by
      rw [History.kept_tagged keeps ledger, List.append_nil]
    exact
      { made := by rw [steady.created, spawned, f.made]
        numbered := by rw [steady.created]; exact f.numbered
        held := by rw [steady.tree, kept]; exact f.held
        mounted := by rw [spawned]; exact f.mounted.imp_right (steady.mounts _) }
  | @spawned e spawned ledger =>
    have listed : (h ++ History.tagged i ds).spawned = h.spawned ++ [(i, e)] := by
      rw [History.spawned_append, History.spawned_tagged, ledger.created]
      rfl
    obtain ⟨params, tree⟩ := spawned.tree
    have new : e ∉ h.kept := by
      intro inside
      have made : e ∈ h.spawned.map (·.2) := (List.filter_sublist.map _).subset inside
      rw [spawned.element] at made
      exact f.new made
    have element : e ≠ overlay := by
      rw [spawned.element]
      exact nofun
    exact
      { made := by rw [spawned.created, listed, List.map_append, f.made]; rfl
        numbered := by
          rw [spawned.created, List.length_append, List.length_singleton, List.range_succ, List.map_append,
            ← f.numbered, spawned.element]
          rfl
        held := by rw [tree, History.kept_tagged keeps ledger]; exact f.held.add new element params
        mounted := .inr spawned.mounted }
  | removed removed own ledger =>
    obtain ⟨inside, kept⟩ := History.kept_removed f.nodup own keeps ledger
    have spawned : (h ++ History.tagged i ds).spawned = h.spawned := by
      rw [History.spawned_append, History.spawned_tagged, ledger.created, List.map_nil, List.append_nil]
    exact
      { made := by rw [removed.created, spawned, f.made]
        numbered := by rw [removed.created]; exact f.numbered
        held := by rw [removed.tree, kept]; exact f.held.remove inside
        mounted := by rw [spawned]; exact f.mounted.imp_right (removed.mounts _) }

end ActionGraph.Demonstration
