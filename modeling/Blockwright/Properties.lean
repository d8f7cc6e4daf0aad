import Blockwright.Ordered

/-!
# Properties

The properties of a component are texts under names. They are held in ascending order of the names,
each name once, so two components have the same properties exactly if they list the same ones.
-/

namespace Blockwright

/-- Texts under names, in ascending order of the names. -/
@[ext]
structure Properties where
  entries : List (String × String)
  ascending : (entries.map Prod.fst).Pairwise (· < ·)
  deriving DecidableEq, Repr

namespace Properties

/-- The properties that some entries give; of several entries of one name the last counts. -/
def ofList (entries : List (String × String)) : Properties :=
  ⟨Ordered.ofList entries, Ordered.pairwise_ofList entries⟩

/-- No properties. -/
def empty : Properties := ofList []

/-- The text of the property of a name. -/
def get? (p : Properties) (name : String) : Option String := Ordered.get? name p.entries

end Properties

end Blockwright
