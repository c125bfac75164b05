import ActionGraph.Behavior.Repertoire
import ActionGraph.Validation.Field

/-!
Settings from unchecked values: those of a run, and those of a trigger. What is not given keeps
its standard; what is given is checked, and everything that is wrong with it is reported.
-/

namespace ActionGraph

def Validated.orStandard {α : Type} (field : String) (standard : α) (check : Value → Validated α) :
    Option Value → Validated α
  | none => .ok standard
  | some v => (check v).within (.field field)

def Validated.component (items : List Value) (i : Nat) : Validated Float :=
  match items[i]? with
  | some v => (Validated.valueNumber v).within (.item i)
  | none => (Validated.broken .required).within (.item i)

/-- A pair of numbers. Of a list that is too long only that is reported. A snapshot counts as its
four fields one after the other, which are too many when the third comes. -/
def Validated.numberPair : Value → Validated (Float × Float)
  | .list items | .tuple items =>
    if 2 < items.length then .broken (.pairLength (some items.length))
    else Prod.mk <$> component items 0 <*> component items 1
  | .event _ => .broken (.pairLength none)
  | _ => .broken .pair

def Settings.ofValues (mountId viewport : Option Value) : Validated Settings :=
  (fun id (view : Float × Float) => ⟨id, view.1, view.2⟩)
    <$> Validated.orStandard "mount_id" Settings.standard.mountId Validated.text mountId
    <*> Validated.orStandard "viewport" (Settings.standard.width, Settings.standard.height) Validated.numberPair viewport

structure Listening where
  selector : String
  eventClass : String
  eventPort : String
  deriving DecidableEq, Repr

def Repertoire.listening (r : Repertoire) (type : String) (settings : Value) : Except Fault Listening := do
  let b ← r.find type
  let checked := (Validated.dictionary settings).within (.field "config")
  let entries ← checked.toExcept.mapError (Fault.invalid "Node")
  match b.trigger with
  | some t =>
    let selector := t.selectorFor (Value.entry? "selector" entries)
    return ⟨selector, t.eventClassFor (Value.entry? "eventType" entries), t.eventPort⟩
  | none => throw (.missingAttribute b.name "selector")

end ActionGraph
