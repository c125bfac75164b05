import ActionGraph.Cache

/-!
What a series of writes makes of a cache: every port has the value that was last published on it.
-/

namespace ActionGraph.Cache

/-- The cache after these values were published on these ports, one after the other. -/
def after (c : Cache) (writes : List (Endpoint × Value)) : Cache := writes.foldl (fun c w => c.publish w.1 w.2) c

/-- The values among these writes that were published on a port. -/
def valuesOn (port : Endpoint) (writes : List (Endpoint × Value)) : List Value :=
  writes.filterMap fun w => if w.1 = port then some w.2 else none

@[simp] theorem after_nil (c : Cache) : c.after [] = c := rfl

@[simp] theorem after_cons (c : Cache) (w : Endpoint × Value) (ws : List (Endpoint × Value)) :
    c.after (w :: ws) = (c.publish w.1 w.2).after ws := rfl

theorem after_append (c : Cache) (ws more : List (Endpoint × Value)) :
    c.after (ws ++ more) = (c.after ws).after more :=
  List.foldl_append

@[simp] theorem value_empty (port : Endpoint) : empty.value port = .absent := rfl

@[simp] theorem holds_empty (port : Endpoint) : empty.holds port = false := rfl

theorem holds_publish (c : Cache) (p q : Endpoint) (v : Value) :
    (c.publish p v).holds q = (decide (p = q) || c.holds q) := by
  simp only [holds, publish, Keyed.has, Keyed.get?_put]
  by_cases same : p = q <;> simp [same]

theorem value_after (c : Cache) (port : Endpoint) (ws : List (Endpoint × Value)) :
    (c.after ws).value port = (valuesOn port ws).getLast?.getD (c.value port) := by
  induction ws generalizing c with
  | nil => rfl
  | cons w ws ih =>
    rw [after_cons, ih, value_publish]
    by_cases own : w.1 = port <;> simp [valuesOn, own, List.getLast?_cons]

theorem entry_after (c : Cache) (port : Endpoint) (ws : List (Endpoint × Value)) :
    Keyed.get? port (c.after ws).entries = (valuesOn port ws).getLast?.or (Keyed.get? port c.entries) := by
  induction ws generalizing c with
  | nil => rfl
  | cons w ws ih =>
    have first : Keyed.get? port (c.publish w.1 w.2).entries = if w.1 = port then some w.2 else Keyed.get? port c.entries :=
      Keyed.get?_put ..
    rw [after_cons, ih, first]
    by_cases own : w.1 = port
    · have last : valuesOn port (w :: ws) = w.2 :: valuesOn port ws := by simp [valuesOn, own]
      rw [last, if_pos own, List.getLast?_cons]
      cases (valuesOn port ws).getLast? <;> rfl
    · simp [valuesOn, own]

theorem holds_after (c : Cache) (port : Endpoint) (ws : List (Endpoint × Value)) :
    (c.after ws).holds port = (c.holds port || !(valuesOn port ws).isEmpty) := by
  induction ws generalizing c with
  | nil => simp [valuesOn]
  | cons w ws ih =>
    rw [after_cons, ih, holds_publish]
    by_cases own : w.1 = port <;> simp [valuesOn, own]

end ActionGraph.Cache
