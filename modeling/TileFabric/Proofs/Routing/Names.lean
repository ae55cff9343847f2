import TileFabric.Proofs.Numerals
import TileFabric.Routing.Grid

/-!
# Names can be read back

A name of a grid puts numbers between fixed letters. Where a number ends is seen from the next
letter, so every number in a name can be read back, and names of different things differ.
-/

set_option autoImplicit false

namespace TileFabric

namespace Channel

theorem toList_verticalName (x y i : UInt32) : (verticalName x y i).toList =
    'V' :: '_' :: 'X' :: (Nat.toDigits 10 x.toNat ++
      'Y' :: (Nat.toDigits 10 y.toNat ++ '_' :: Nat.toDigits 10 i.toNat)) := by
  simp [verticalName, toString]

theorem toList_horizontalName (x y i : UInt32) : (horizontalName x y i).toList =
    'H' :: '_' :: 'X' :: (Nat.toDigits 10 x.toNat ++
      'Y' :: (Nat.toDigits 10 y.toNat ++ '_' :: Nat.toDigits 10 i.toNat)) := by
  simp [horizontalName, toString]

/-- Column, row and track, as both kinds of channel wires show them. -/
private theorem coordinates_inj {x y i x' y' i' : UInt32}
    (same : Nat.toDigits 10 x.toNat ++
        'Y' :: (Nat.toDigits 10 y.toNat ++ '_' :: Nat.toDigits 10 i.toNat) =
      Nat.toDigits 10 x'.toNat ++
        'Y' :: (Nat.toDigits 10 y'.toNat ++ '_' :: Nat.toDigits 10 i'.toNat)) :
    x = x' ∧ y = y' ∧ i = i' := by
  obtain ⟨columns, same⟩ := number_cons_inj (by decide) same
  obtain ⟨rows, same⟩ := number_cons_inj (by decide) same
  exact ⟨columns, rows, UInt32.toNat_inj.mp (toDigits_inj same)⟩

theorem verticalName_inj {x y i x' y' i' : UInt32}
    (same : verticalName x y i = verticalName x' y' i') : x = x' ∧ y = y' ∧ i = i' := by
  have lists := congrArg String.toList same
  simp only [toList_verticalName, List.cons.injEq, true_and] at lists
  exact coordinates_inj lists

theorem horizontalName_inj {x y i x' y' i' : UInt32}
    (same : horizontalName x y i = horizontalName x' y' i') : x = x' ∧ y = y' ∧ i = i' := by
  have lists := congrArg String.toList same
  simp only [toList_horizontalName, List.cons.injEq, true_and] at lists
  exact coordinates_inj lists

theorem verticalName_ne_horizontalName (x y i x' y' i' : UInt32) :
    verticalName x y i ≠ horizontalName x' y' i' := by
  intro same
  have lists := congrArg String.toList same
  rw [toList_verticalName, toList_horizontalName] at lists
  simp at lists

end Channel

namespace Tile

theorem toList_pinWireName (loc : Loc) (pin : String) : (pinWireName loc pin).toList =
    'X' :: (Nat.toDigits 10 loc.x.toNat ++ 'Y' :: (Nat.toDigits 10 loc.y.toNat ++
      'Z' :: (Nat.toDigits 10 loc.z.toNat ++ '_' :: pin.toList))) := by
  simp [pinWireName, toString]

/-- The name of a bel is that of a wire behind a pin of this name. -/
theorem belName_eq (loc : Loc) (kind : BelKind) :
    belName loc kind = pinWireName loc (kind.typeName ++ "_BEL") := by
  apply String.toList_inj.mp
  simp [belName, pinWireName, toString]

theorem pinWireName_inj {loc loc' : Loc} {pin pin' : String}
    (same : pinWireName loc pin = pinWireName loc' pin') : loc = loc' ∧ pin = pin' := by
  have lists := congrArg String.toList same
  simp only [toList_pinWireName, List.cons.injEq, true_and] at lists
  obtain ⟨columns, lists⟩ := number_cons_inj (by decide) lists
  obtain ⟨rows, lists⟩ := number_cons_inj (by decide) lists
  obtain ⟨slots, lists⟩ := number_cons_inj (by decide) lists
  cases loc
  cases loc'
  simp_all [String.toList_inj]

theorem belName_inj {loc loc' : Loc} {kind kind' : BelKind}
    (same : belName loc kind = belName loc' kind') : loc = loc' := by
  rw [belName_eq, belName_eq] at same
  exact (pinWireName_inj same).1

theorem pinWireName_ne_verticalName (loc : Loc) (pin : String) (x y i : UInt32) :
    pinWireName loc pin ≠ Channel.verticalName x y i := by
  intro same
  have lists := congrArg String.toList same
  rw [toList_pinWireName, Channel.toList_verticalName] at lists
  simp at lists

theorem pinWireName_ne_horizontalName (loc : Loc) (pin : String) (x y i : UInt32) :
    pinWireName loc pin ≠ Channel.horizontalName x y i := by
  intro same
  have lists := congrArg String.toList same
  rw [toList_pinWireName, Channel.toList_horizontalName] at lists
  simp at lists

end Tile

namespace Side

/-- The letter of a side as a character. -/
def initial : Side → Char
  | north => 'n'
  | east => 'e'
  | south => 's'
  | west => 'w'

theorem toList_letter (s : Side) : s.letter.toList = [s.initial] := by cases s <;> rfl

theorem initial_inj {s t : Side} (same : s.initial = t.initial) : s = t := by
  cases s <;> cases t <;> first | rfl | cases same

theorem isDigit_initial (s : Side) : s.initial.isDigit = false := by cases s <;> rfl

end Side

namespace SwitchBox

theorem toList_pipName (box : SwitchBox) (c : Coupling) : (box.pipName c).toList =
    box.shape.tag.toList ++ '_' :: 'x' :: (Nat.toDigits 10 box.x.toNat ++
      'y' :: (Nat.toDigits 10 box.y.toNat ++
        c.source.initial :: c.target.initial :: Nat.toDigits 10 c.named)) := by
  simp [pipName, name, Coupling.letters, toString, Side.toList_letter]

/-- The name of a pip shows its box, its two sides and a track. -/
theorem pipName_inj {box box' : SwitchBox} {c c' : Coupling} (shapes : box.shape = box'.shape)
    (same : box.pipName c = box'.pipName c') :
    (box.x = box'.x ∧ box.y = box'.y) ∧ c.source = c'.source ∧ c.target = c'.target ∧
      c.named = c'.named := by
  have lists := congrArg String.toList same
  rw [toList_pipName, toList_pipName, shapes, List.append_cancel_left_eq] at lists
  simp only [List.cons.injEq, true_and] at lists
  obtain ⟨columns, lists⟩ := number_cons_inj (by decide) lists
  obtain ⟨rows, lists⟩ := number_append_inj (by simp [Side.isDigit_initial])
    (by simp [Side.isDigit_initial]) lists
  simp only [List.cons.injEq] at lists
  obtain ⟨sources, targets, numbers⟩ := lists
  exact ⟨⟨columns, UInt32.toNat_inj.mp rows⟩, Side.initial_inj sources, Side.initial_inj targets,
    toDigits_inj numbers⟩

end SwitchBox

end TileFabric
