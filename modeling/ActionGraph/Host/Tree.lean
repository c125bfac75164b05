import ActionGraph.Value.Basic

/-!
The elements of a host and how they contain each other. An element that nothing was done to is
detached and has no children.
-/

namespace ActionGraph

structure Element where
  params : List (String × Value)
  parent : Option ElementRef
  children : List ElementRef

def Element.detached (params : List (String × Value)) : Element := ⟨params, none, []⟩

structure Tree where
  entries : List (ElementRef × Element)

namespace Tree

def empty : Tree := ⟨[]⟩

def find (t : Tree) (e : ElementRef) : Element := (Keyed.get? e t.entries).getD (.detached [])

def set (t : Tree) (e : ElementRef) (x : Element) : Tree := ⟨Keyed.put e x t.entries⟩

def parent (t : Tree) (e : ElementRef) : Option ElementRef := (t.find e).parent

def children (t : Tree) (e : ElementRef) : List ElementRef := (t.find e).children

def setParent (t : Tree) (e : ElementRef) (p : Option ElementRef) : Tree := t.set e { t.find e with parent := p }

def setChildren (t : Tree) (e : ElementRef) (cs : List ElementRef) : Tree := t.set e { t.find e with children := cs }

def release (t : Tree) (e : ElementRef) : Tree :=
  match t.parent e with
  | some p => t.setChildren p ((t.children p).erase e)
  | none => t

def append (t : Tree) (parent child : ElementRef) : Tree :=
  let t := (t.release child).setParent child (some parent)
  t.setChildren parent (t.children parent ++ [child])

def detach (t : Tree) (e : ElementRef) : Tree :=
  match t.parent e with
  | some _ => (t.release e).setParent e none
  | none => t

@[simp] theorem find_set (t : Tree) (e e' : ElementRef) (x : Element) :
    (t.set e x).find e' = if e = e' then x else t.find e' := by
  simp only [set, find, Keyed.get?_put]
  split <;> rfl

@[simp] theorem parent_setParent (t : Tree) (e e' : ElementRef) (p : Option ElementRef) :
    (t.setParent e p).parent e' = if e = e' then p else t.parent e' := by
  simp only [setParent, parent, find_set]
  split <;> rfl

@[simp] theorem children_setParent (t : Tree) (e e' : ElementRef) (p : Option ElementRef) :
    (t.setParent e p).children e' = t.children e' := by
  simp only [setParent, children, find_set]
  split <;> simp_all

@[simp] theorem parent_setChildren (t : Tree) (e e' : ElementRef) (cs : List ElementRef) :
    (t.setChildren e cs).parent e' = t.parent e' := by
  simp only [setChildren, parent, find_set]
  split <;> simp_all

@[simp] theorem children_setChildren (t : Tree) (e e' : ElementRef) (cs : List ElementRef) :
    (t.setChildren e cs).children e' = if e = e' then cs else t.children e' := by
  simp only [setChildren, children, find_set]
  split <;> rfl

end Tree

end ActionGraph
