import ActionGraph.Proofs.Keyed
import ActionGraph.Proofs.Cache.Writing
import Mathlib.Data.Finset.Card

/-!
A cache as the history of its writes has it: every port that was written is there, at the place of its first
write and with the value of its last one, and what is there stays where it is.
-/

namespace ActionGraph

namespace Cache

/-- The ports that have a value, in their order. -/
def ports (c : Cache) : List Endpoint := c.entries.map Prod.fst

/-- The ports of these writes, one for each. -/
def written (ws : List (Endpoint × Value)) : List Endpoint := ws.map Prod.fst

theorem valuesOn_ne_nil {port : Endpoint} {ws : List (Endpoint × Value)} :
    valuesOn port ws ≠ [] ↔ port ∈ written ws := by
  simp [valuesOn, written, List.filterMap_eq_nil_iff]

theorem ports_publish (c : Cache) (port : Endpoint) (v : Value) :
    (c.publish port v).ports = if port ∈ c.ports then c.ports else c.ports ++ [port] :=
  Keyed.keys_put port v c.entries

/-- The ports of a cache are those of these writes, in the order of their first ones, and all of these were counted. -/
structure Records (c : Cache) (ws : List (Endpoint × Value)) : Prop where
  ports : ∀ port, port ∈ c.ports ↔ port ∈ written ws
  order : c.ports.Pairwise fun p q => (written ws).idxOf p < (written ws).idxOf q
  writes : c.writes = ws.length

theorem Records.publish {c : Cache} {ws : List (Endpoint × Value)} (records : c.Records ws) (port : Endpoint)
    (v : Value) :
    (c.publish port v).Records (ws ++ [(port, v)]) := by
  have more : written (ws ++ [(port, v)]) = written ws ++ [port] := List.map_append
  have first : ∀ q ∈ c.ports, (written ws ++ [port]).idxOf q = (written ws).idxOf q := fun q listed =>
    List.idxOf_append_of_mem ((records.ports q).mp listed)
  -- A further write moves no port that was there before.
  have kept : c.ports.Pairwise fun p q => (written ws ++ [port]).idxOf p < (written ws ++ [port]).idxOf q := by
    refine records.order.imp_of_mem fun {p q} there there' before => ?_
    rwa [first p there, first q there']
  constructor
  · intro q
    rw [ports_publish, more, List.mem_append, List.mem_singleton, ← records.ports]
    split
    · rename_i old
      constructor
      · exact .inl
      · rintro (there | rfl)
        · exact there
        · exact old
    · rw [List.mem_append, List.mem_singleton]
  · rw [ports_publish, more]
    split
    · exact kept
    · rename_i new
      rw [List.pairwise_append]
      refine ⟨kept, List.pairwise_singleton _ _, fun p there q last => ?_⟩
      obtain rfl := List.mem_singleton.mp last
      rw [records.ports] at new
      rw [first p there, List.idxOf_append_of_notMem new]
      have bound := List.idxOf_lt_length_of_mem ((records.ports p).mp there)
      omega
  · rw [List.length_append, List.length_singleton, ← records.writes]
    rfl

theorem records_after (ws : List (Endpoint × Value)) : (empty.after ws).Records ws := by
  induction ws using List.reverseRecOn with
  | nil => exact ⟨fun _ => Iff.rfl, .nil, rfl⟩
  | append_singleton ws w ih =>
    rw [after_append]
    exact ih.publish w.1 w.2

theorem Records.nodup {c : Cache} {ws : List (Endpoint × Value)} (records : c.Records ws) : c.ports.Nodup := by
  refine records.order.imp fun before same => ?_
  rw [same] at before
  exact Nat.lt_irrefl _ before

theorem ports_after (c : Cache) (ws : List (Endpoint × Value)) : c.ports <+: (c.after ws).ports := by
  induction ws generalizing c with
  | nil => exact List.prefix_rfl
  | cons w ws ih =>
    refine List.IsPrefix.trans ?_ (ih (c.publish w.1 w.2))
    rw [ports_publish]
    split
    · exact List.prefix_rfl
    · exact List.prefix_append _ _

/-- What a cache holds that was empty before these writes. -/
theorem history_recorded (ws : List (Endpoint × Value)) :
    let c := empty.after ws
    (∀ port, c.value port = (valuesOn port ws).getLast?.getD .absent) ∧
    (∀ port, c.holds port = true ↔ port ∈ written ws) ∧
    c.writes = ws.length ∧
    c.size = (written ws).toFinset.card ∧
    c.ports.Nodup ∧
    (∀ port v, (port, v) ∈ c.entries ↔ (valuesOn port ws).getLast? = some v) ∧
    c.ports.Pairwise (fun p q => (written ws).idxOf p < (written ws).idxOf q) ∧
    ∀ more, c.ports <+: (empty.after (ws ++ more)).ports := by
  intro c
  have records : c.Records ws := records_after ws
  refine ⟨fun port => ?_, fun port => ?_, records.writes, ?_, records.nodup, fun port v => ?_,
    records.order, fun more => ?_⟩
  · exact value_after empty port ws
  · rw [holds_after, holds_empty, Bool.false_or, Bool.not_eq_true', List.isEmpty_eq_false_iff]
    exact valuesOn_ne_nil
  · have same : c.ports.toFinset = (written ws).toFinset := by
      ext port
      simp [records.ports]
    rw [← same, List.toFinset_card_of_nodup records.nodup, ports, List.length_map, size]
  · rw [← Keyed.get?_eq_some records.nodup, entry_after]
    simp [empty, Keyed.get?]
  · rw [after_append]
    exact ports_after _ more

end Cache

end ActionGraph
