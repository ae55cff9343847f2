import TileFabric.Diagnostic

/-!
# Errors of routing-graph declarations

Each error is a cause with the names or places it is about; wording, code and diagnostic are
functions of the cause.
-/

set_option autoImplicit false

namespace TileFabric

inductive RoutingError where
  /-- Sides of a switch box that have to be equally long are not. -/
  | wireCountMismatch (box : String) (north east south west : Nat)
  | notImplemented (feature : String)
  /-- The tile has no neighbour to the north or to the east. -/
  | coordinateOverflow (x y : UInt32)
  | duplicateWire (wire : String)
  | duplicatePip (pip : String)
  | duplicateBel (bel : String)
  | occupiedBelLoc (loc : Loc)
  | duplicateBelPin (bel pin : String)
  | unknownWire (wire : String)
  | unknownBel (bel : String)
  deriving DecidableEq, Repr

namespace RoutingError

def message : RoutingError → String
  | wireCountMismatch box north east south west =>
    s!"switch box {box} wire lists differ in length " ++
      s!"(north {north}, east {east}, south {south}, west {west})"
  | notImplemented feature => s!"{feature} is not implemented"
  | coordinateOverflow x y => s!"tile x{x}y{y} is at the edge of the coordinate range"
  | duplicateWire wire => s!"duplicate wire '{wire}'"
  | duplicatePip pip => s!"duplicate pip '{pip}'"
  | duplicateBel bel => s!"duplicate bel '{bel}'"
  | occupiedBelLoc loc => s!"bel location {loc} already occupied"
  | duplicateBelPin bel pin => s!"bel '{bel}' already has pin '{pin}'"
  | unknownWire wire => s!"no wire named '{wire}'"
  | unknownBel bel => s!"no bel named '{bel}'"

def number : RoutingError → UInt16
  | wireCountMismatch .. => 101
  | notImplemented .. => 102
  | coordinateOverflow .. => 103
  | duplicateWire .. => 110
  | duplicatePip .. => 111
  | duplicateBel .. => 112
  | occupiedBelLoc .. => 113
  | duplicateBelPin .. => 114
  | unknownWire .. => 120
  | unknownBel .. => 121

def code (e : RoutingError) : Code := ⟨.arch, e.number⟩

def diagnostic (e : RoutingError) : Diagnostic :=
  let plain := Diagnostic.error .arch e.number e.message
  match e with
  | wireCountMismatch box .. => plain.about box
  | occupiedBelLoc loc => plain.located loc
  | coordinateOverflow x y => plain.located ⟨x, y, 0⟩
  | notImplemented .. => plain.withHelp "use kind = \"square\" in the [switchbox] section"
  | _ => plain

end RoutingError

end TileFabric
