import TileFabric.Proofs.Routing.BoxDeclares

/-!
# What names are given for

A wire is named for a bel pin or for a track of a channel, a bel for its place and kind, a pip for
its box, two sides and a track. A label holds what a name is given for, and no two labels have the
same name, whatever the numbers and the text of a pin are. The names that a box plans are those of
its labels, so that boxes in different places have no name in common.
-/

set_option autoImplicit false

namespace TileFabric

/-- What a wire is named for. -/
inductive WireLabel where
  | belPin (loc : Loc) (pin : String)
  | vertical (x y track : UInt32)
  | horizontal (x y track : UInt32)
  deriving DecidableEq, Repr

namespace WireLabel

def name : WireLabel → String
  | belPin loc pin => Tile.pinWireName loc pin
  | vertical x y track => Channel.verticalName x y track
  | horizontal x y track => Channel.horizontalName x y track

theorem name_injective : Function.Injective name := by
  intro label other same
  cases label with
  | belPin loc pin =>
    cases other with
    | belPin loc' pin' =>
      obtain ⟨rfl, rfl⟩ := Tile.pinWireName_inj same
      rfl
    | vertical => exact (Tile.pinWireName_ne_verticalName _ _ _ _ _ same).elim
    | horizontal => exact (Tile.pinWireName_ne_horizontalName _ _ _ _ _ same).elim
  | vertical x y track =>
    cases other with
    | belPin => exact (Tile.pinWireName_ne_verticalName _ _ _ _ _ same.symm).elim
    | vertical x' y' track' =>
      obtain ⟨rfl, rfl, rfl⟩ := Channel.verticalName_inj same
      rfl
    | horizontal => exact (Channel.verticalName_ne_horizontalName _ _ _ _ _ _ same).elim
  | horizontal x y track =>
    cases other with
    | belPin => exact (Tile.pinWireName_ne_horizontalName _ _ _ _ _ same.symm).elim
    | vertical => exact (Channel.verticalName_ne_horizontalName _ _ _ _ _ _ same.symm).elim
    | horizontal x' y' track' =>
      obtain ⟨rfl, rfl, rfl⟩ := Channel.horizontalName_inj same
      rfl

end WireLabel

namespace BelKind

theorem typeName_injective : Function.Injective typeName := by
  intro kind other same
  cases kind <;> cases other <;> first | rfl | exact absurd same (by decide)

end BelKind

/-- What a bel is named for. -/
structure BelLabel where
  loc : Loc
  kind : BelKind
  deriving DecidableEq, Repr

namespace BelLabel

def name (label : BelLabel) : String := Tile.belName label.loc label.kind

theorem name_injective : Function.Injective name := by
  intro ⟨loc, kind⟩ ⟨loc', kind'⟩ same
  have wires : Tile.pinWireName loc (kind.typeName ++ "_BEL") =
      Tile.pinWireName loc' (kind'.typeName ++ "_BEL") := by
    rw [← Tile.belName_eq, ← Tile.belName_eq]
    exact same
  obtain ⟨rfl, pins⟩ := Tile.pinWireName_inj wires
  obtain rfl := BelKind.typeName_injective ((String.append_left_inj _).mp pins)
  rfl

end BelLabel

/-- What a pip of a square box is named for: the place of the box, the side that the pip leads from
and the one that it leads to, and a track. -/
structure PipLabel where
  x : UInt32
  y : UInt32
  source : Side
  target : Side
  track : Nat
  deriving DecidableEq, Repr

namespace PipLabel

def name (label : PipLabel) : String :=
  s!"sq_usb_x{label.x}y{label.y}" ++ (label.source.letter ++ label.target.letter) ++
    toString label.track

end PipLabel

namespace SwitchBox

/-- The label of the pip that a coupling becomes. -/
def label (box : SwitchBox) (c : Coupling) : PipLabel := ⟨box.x, box.y, c.source, c.target, c.named⟩

theorem pipName_eq_name_label {box : SwitchBox} (square : box.shape = .square) (c : Coupling) :
    box.pipName c = (box.label c).name := by
  apply String.toList_inj.mp
  simp [pipName, name, square, BoxShape.tag, Coupling.letters, label, PipLabel.name, toString]

end SwitchBox

namespace PipLabel

theorem name_injective : Function.Injective name := by
  intro label other same
  let boxOf (l : PipLabel) : SwitchBox := { (default : SwitchBox) with x := l.x, y := l.y }
  let couplingOf (l : PipLabel) : Coupling :=
    { (default : Coupling) with source := l.source, target := l.target, named := l.track }
  have read (l : PipLabel) : (boxOf l).pipName (couplingOf l) = l.name :=
    SwitchBox.pipName_eq_name_label rfl _
  rw [← read, ← read] at same
  have shapes : (boxOf label).shape = (boxOf other).shape := rfl
  obtain ⟨⟨columns, rows⟩, sources, targets, tracks⟩ := SwitchBox.pipName_inj shapes same
  cases label
  cases other
  simp_all [boxOf, couplingOf]

end PipLabel

namespace SwitchBox

/-- The names of the pips that a box plans on a recorder; a box that is refused plans none. -/
def plannedNames (box : SwitchBox) (delay : Delay) (r : Recorder) : List String :=
  match (box.plan delay).run r with
  | (.ok pips, later) => pips.map fun p => later.symbols.text p.name
  | (.error _, _) => []

/-- Whatever the recorder holds, a box plans the names of its labels. -/
theorem plannedNames_eq (box : SwitchBox) (delay : Delay) (r : Recorder) :
    box.plannedNames delay r =
      match box.tracks with
      | .ok n => (Coupling.ofTracks n).map fun c => (box.label c).name
      | .error _ => [] := by
  unfold plannedNames
  cases fits : box.tracks with
  | ok n =>
    obtain ⟨square, sides⟩ := tracks_eq_ok_iff.mp fits
    obtain ⟨pips, table, ran, -, planned⟩ := interns_plan delay square sides r (.refl _)
    rw [ran]
    refine map_eq_of_forall₂ (planned.imp fun c p of => ?_)
    rw [← pipName_eq_name_label square]
    exact SymbolTable.text_of_text? of.name
  | error e =>
    have refused : (box.plan delay).run r = (.error e, r) := by
      rw [plan, fits]
      exact run_bind_of_error (run_liftExcept _ _)
    rw [refused]

/-- A name that a box plans shows where the box is. -/
theorem exists_label_of_mem_plannedNames {box : SwitchBox} {delay : Delay} {r : Recorder}
    {name : String} (member : name ∈ box.plannedNames delay r) :
    ∃ label : PipLabel, label.name = name ∧ label.x = box.x ∧ label.y = box.y := by
  rw [plannedNames_eq] at member
  split at member
  · obtain ⟨c, -, rfl⟩ := List.mem_map.mp member
    exact ⟨box.label c, rfl, rfl, rfl⟩
  · cases member

/-- Wires, bels and pips are named for different things by different names. The names that a box
plans are those of its labels, and boxes in different places share none, whatever their sides. -/
theorem names_show_labels :
    Function.Injective WireLabel.name ∧ Function.Injective BelLabel.name ∧
      Function.Injective PipLabel.name ∧
      (∀ (box : SwitchBox) (delay : Delay) (r : Recorder), box.plannedNames delay r =
        match box.tracks with
        | .ok n => (Coupling.ofTracks n).map fun c => (box.label c).name
        | .error _ => []) ∧
      ∀ (box box' : SwitchBox) (delay delay' : Delay) (r r' : Recorder),
        (box.x, box.y) ≠ (box'.x, box'.y) →
          (box.plannedNames delay r).Disjoint (box'.plannedNames delay' r') := by
  refine ⟨WireLabel.name_injective, BelLabel.name_injective, PipLabel.name_injective,
    plannedNames_eq, ?_⟩
  intro box box' delay delay' r r' apart name member member'
  obtain ⟨label, rfl, column, row⟩ := exists_label_of_mem_plannedNames member
  obtain ⟨other, same, column', row'⟩ := exists_label_of_mem_plannedNames member'
  obtain rfl := PipLabel.name_injective same
  exact apart (by rw [← column, ← row, column', row'])

/-- A box with one track. Column 1 and row 21 are written with the digits of its place. -/
def twelveOne : SwitchBox := ⟨12, 1, .square, [⟨0⟩], [⟨1⟩], [⟨2⟩], [⟨3⟩]⟩

theorem twelveOne_names_show_labels :
    let oneTwentyOne : SwitchBox := { threeTracks with x := 1, y := 21 }
    (twelveOne.x, twelveOne.y) ≠ (oneTwentyOne.x, oneTwentyOne.y) ∧
      (twelveOne.plannedNames default .empty).head? = some "sq_usb_x12y1ns0" ∧
      (oneTwentyOne.plannedNames default .empty).head? = some "sq_usb_x1y21ns0" ∧
      (twelveOne.plannedNames default .empty).Disjoint
        (oneTwentyOne.plannedNames default .empty) := by
  intro oneTwentyOne
  obtain ⟨-, -, -, names, disjoint⟩ := names_show_labels
  have apart : (twelveOne.x, twelveOne.y) ≠ (oneTwentyOne.x, oneTwentyOne.y) := by decide
  refine ⟨apart, ?_, ?_, disjoint _ _ _ _ _ _ apart⟩
  · rw [names]
    decide +kernel
  · rw [names]
    decide +kernel

end SwitchBox

end TileFabric
