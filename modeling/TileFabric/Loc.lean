import Std.Data.ExtTreeMap

/-!
# Places in the device grid

`x` and `y` select a tile, `z` the slot in it. Places are ordered by column, then row, then slot.
-/

set_option autoImplicit false

namespace TileFabric

structure Loc where
  x : UInt32
  y : UInt32
  z : UInt32
  deriving DecidableEq, Repr, Inhabited

namespace Loc

instance : ToString Loc := ⟨fun loc => s!"X{loc.x}Y{loc.y}Z{loc.z}"⟩

instance : Ord Loc :=
  ⟨compareLex (compareOn Loc.x) (compareLex (compareOn Loc.y) (compareOn Loc.z))⟩

instance : Std.TransOrd Loc := inferInstanceAs
  (Std.TransCmp (compareLex (compareOn Loc.x) (compareLex (compareOn Loc.y) (compareOn Loc.z))))

instance : Std.LawfulEqOrd Loc where
  eq_of_compare {a b} h := by
    obtain ⟨hx, hrest⟩ := compareLex_eq_eq.1 h
    obtain ⟨hy, hz⟩ := compareLex_eq_eq.1 hrest
    have sameX : a.x = b.x := Std.LawfulEqOrd.eq_of_compare hx
    have sameY : a.y = b.y := Std.LawfulEqOrd.eq_of_compare hy
    have sameZ : a.z = b.z := Std.LawfulEqOrd.eq_of_compare hz
    cases a
    cases b
    simp_all

/-- Whether one place comes before the other or is the same. -/
def precedes (a b : Loc) : Bool := (compare a b).isLE

end Loc

abbrev LocMap (α : Type) := Std.ExtTreeMap Loc α

end TileFabric
