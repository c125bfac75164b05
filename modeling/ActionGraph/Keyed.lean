/-!
Lists of keys and values in which a key keeps the place of its first entry. `put` overwrites in
place or appends, so the order of the list is the order of first writing.
-/

namespace ActionGraph.Keyed

variable {κ ν : Type} [DecidableEq κ]

def get? (k : κ) : List (κ × ν) → Option ν
  | [] => none
  | (k', v) :: rest => if k' = k then some v else get? k rest

def has (k : κ) (entries : List (κ × ν)) : Bool := (get? k entries).isSome

def put (k : κ) (v : ν) : List (κ × ν) → List (κ × ν)
  | [] => [(k, v)]
  | (k', v') :: rest => if k' = k then (k, v) :: rest else (k', v') :: put k v rest

def putAll (entries more : List (κ × ν)) : List (κ × ν) :=
  more.foldl (fun acc e => put e.1 e.2 acc) entries

/-- Entries with each key once: the last value, at the first place. -/
def ofList (entries : List (κ × ν)) : List (κ × ν) := putAll [] entries

@[simp] theorem get?_put (k k' : κ) (v : ν) (entries : List (κ × ν)) :
    get? k' (put k v entries) = if k = k' then some v else get? k' entries := by
  induction entries with
  | nil => rfl
  | cons e rest ih =>
    by_cases h : e.1 = k
    · subst h
      by_cases h' : e.1 = k' <;> simp [put, get?, h']
    · by_cases h' : e.1 = k'
      · subst h'
        simp only [put, h, if_false, get?, if_true, Ne.symm h]
      · simp [put, get?, h, h', ih]

theorem keys_put (k : κ) (v : ν) (entries : List (κ × ν)) :
    (put k v entries).map Prod.fst =
      if k ∈ entries.map Prod.fst then entries.map Prod.fst else entries.map Prod.fst ++ [k] := by
  induction entries with
  | nil => rfl
  | cons e rest ih =>
    by_cases h : e.1 = k
    · simp [put, h]
    · have h' : ¬ k = e.1 := fun he => h he.symm
      simp only [put, h, if_false, List.map_cons, ih, List.mem_cons, h', false_or, List.cons_append]
      split <;> rfl

theorem mem_of_get? {k : κ} {v : ν} {entries : List (κ × ν)} (h : get? k entries = some v) : (k, v) ∈ entries := by
  induction entries with
  | nil => cases h
  | cons e rest ih =>
    rw [get?] at h
    split at h
    · rename_i same
      obtain rfl : e.2 = v := Option.some.inj h
      exact same ▸ List.mem_cons_self
    · exact List.mem_cons_of_mem _ (ih h)

theorem mem_put {k : κ} {v : ν} {e : κ × ν} {entries : List (κ × ν)} (listed : e ∈ put k v entries) :
    e = (k, v) ∨ e ∈ entries := by
  induction entries with
  | nil => exact .inl (List.mem_singleton.mp listed)
  | cons first rest ih =>
    rw [put] at listed
    split at listed
    · exact (List.mem_cons.mp listed).imp_right (List.mem_cons_of_mem _)
    · rcases List.mem_cons.mp listed with rfl | listed
      · exact .inr List.mem_cons_self
      · exact (ih listed).imp_right (List.mem_cons_of_mem _)

theorem put_of_new {k : κ} {entries : List (κ × ν)} (new : k ∉ entries.map Prod.fst) (v : ν) :
    put k v entries = entries ++ [(k, v)] := by
  induction entries with
  | nil => rfl
  | cons e rest ih =>
    rw [List.map_cons, List.mem_cons, not_or] at new
    rw [put, if_neg (Ne.symm new.1), ih new.2, List.cons_append]

theorem nodup_put {entries : List (κ × ν)} (nodup : (entries.map Prod.fst).Nodup) (k : κ) (v : ν) :
    ((put k v entries).map Prod.fst).Nodup := by
  rw [keys_put]
  split
  · exact nodup
  · rename_i new
    rw [List.nodup_append]
    refine ⟨nodup, by simp, fun k' old _ single => ?_⟩
    rw [List.mem_singleton.mp single]
    rintro rfl
    exact new old

theorem mem_putAll {e : κ × ν} {entries more : List (κ × ν)} (listed : e ∈ putAll entries more) :
    e ∈ entries ∨ e ∈ more := by
  induction more generalizing entries with
  | nil => exact .inl listed
  | cons first rest ih =>
    rcases ih listed with put | later
    · rcases mem_put put with rfl | old
      · exact .inr List.mem_cons_self
      · exact .inl old
    · exact .inr (List.mem_cons_of_mem _ later)

theorem nodup_putAll {entries : List (κ × ν)} (nodup : (entries.map Prod.fst).Nodup) (more : List (κ × ν)) :
    ((putAll entries more).map Prod.fst).Nodup := by
  induction more generalizing entries with
  | nil => exact nodup
  | cons e rest ih => exact ih (nodup_put nodup e.1 e.2)

/-- New entries with each key once are appended as they are. -/
theorem putAll_of_nodup {entries more : List (κ × ν)} (nodup : ((entries ++ more).map Prod.fst).Nodup) :
    putAll entries more = entries ++ more := by
  induction more generalizing entries with
  | nil => exact (List.append_nil entries).symm
  | cons e rest ih =>
    have new : e.1 ∉ entries.map Prod.fst := by
      rw [List.map_append, List.nodup_append] at nodup
      exact fun listed => nodup.2.2 e.1 listed e.1 (by simp) rfl
    have later := @ih (entries ++ [e]) (by rwa [List.append_assoc])
    rw [List.append_assoc, ← put_of_new new e.2] at later
    exact later

theorem mem_ofList {e : κ × ν} {entries : List (κ × ν)} (listed : e ∈ ofList entries) : e ∈ entries :=
  (mem_putAll listed).resolve_left List.not_mem_nil

theorem nodup_ofList (entries : List (κ × ν)) : ((ofList entries).map Prod.fst).Nodup := by
  apply nodup_putAll
  exact List.nodup_nil

theorem ofList_of_nodup {entries : List (κ × ν)} (nodup : (entries.map Prod.fst).Nodup) : ofList entries = entries :=
  putAll_of_nodup nodup

end ActionGraph.Keyed
