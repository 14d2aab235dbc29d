import TreeRules.Tree.Basic

/-!
The supply of identities for new node objects. Every identity it hands out is larger than all
earlier ones, so a new object is never taken for one that exists already.
-/

namespace TreeRules

/-- The identities not yet given to an object: all from `next` on. -/
structure Supply where
  next : ObjectId := 0
deriving DecidableEq, Repr

namespace Supply

def fresh : StateM Supply ObjectId :=
  modifyGet fun supply => (supply.next, ⟨supply.next + 1⟩)

@[simp]
theorem fresh_run (supply : Supply) : fresh.run supply = (supply.next, ⟨supply.next + 1⟩) := rfl

end Supply

namespace Tree

variable {α : Type}

def create (label : α) (children : List (Tree α)) : StateM Supply (Tree α) := do
  return node (← Supply.fresh) label children

/-- Makes a new object with another label around the same child objects. -/
def relabel (label : α) (tree : Tree α) : StateM Supply (Tree α) :=
  create label tree.children

end Tree

end TreeRules
