import TileFabric.Diagnostic

/-!
# Errors of netlist editing and packing

Each error is a cause with the names it is about. Its wording, its code and the object that a
diagnostic of it points at are functions of the cause.
-/

set_option autoImplicit false

namespace TileFabric

inductive NetlistError where
  /-- A cell of this type was asked of a maker of another family. -/
  | unsupportedCellType (family cellType : String)
  | duplicateCell (cell : String)
  | duplicatePort (cell port : String)
  | unknownCell (cell : String)
  | duplicateNet (net : String)
  | unknownNet (net : String)
  /-- A port is attached to a net that is not there. -/
  | danglingPort (net cell port : String)
  | missingPort (cell port : String)
  | portInUse (cell port : String)
  /-- The net is driven already, by a port written as `cell.port`. -/
  | multipleDrivers (net driver : String)
  /-- A cell or a net is kept under another name than its own. -/
  | nameMismatch (key name : String)
  /-- A lookup table has more inputs than the logic block it is to go into. -/
  | lutTooWide (cell : String) (inputs available : Nat)
  deriving DecidableEq, Repr

namespace NetlistError

/-- How a net is named in an error about the port that is attached to it. -/
def danglingText (net cell port : String) : String := s!"{net} (from {cell}.{port})"

def message : NetlistError → String
  | unsupportedCellType family cellType => s!"unable to create {family} cell of type '{cellType}'"
  | duplicateCell cell => s!"duplicate cell '{cell}'"
  | duplicatePort cell port => s!"cell '{cell}' already has port '{port}'"
  | unknownCell cell => s!"no cell named '{cell}'"
  | duplicateNet net => s!"duplicate net '{net}'"
  | unknownNet net => s!"no net named '{net}'"
  | danglingPort net cell port => s!"no net named '{danglingText net cell port}'"
  | missingPort cell port => s!"cell '{cell}' has no port '{port}'"
  | portInUse cell port => s!"port '{cell}.{port}' is already connected"
  | multipleDrivers net driver => s!"net '{net}' is already driven by '{driver}'"
  | nameMismatch key name => s!"entry '{key}' holds an object named '{name}'"
  | lutTooWide cell inputs available =>
    s!"LUT '{cell}' has {inputs} inputs but the CLB supports {available}"

def number : NetlistError → UInt16
  | unsupportedCellType .. => 101
  | duplicateCell .. => 102
  | duplicatePort .. => 103
  | unknownCell .. => 104
  | unknownNet .. | danglingPort .. => 105
  | missingPort .. => 106
  | portInUse .. => 107
  | multipleDrivers .. => 108
  | lutTooWide .. => 109
  | duplicateNet .. => 110
  | nameMismatch .. => 111

/-- The cell, net or key that the error is about. -/
def object? : NetlistError → Option String
  | unsupportedCellType .. => none
  | duplicateCell cell | unknownCell cell => some cell
  | duplicatePort cell _ | missingPort cell _ | portInUse cell _ => some cell
  | lutTooWide cell _ _ => some cell
  | unknownNet net | duplicateNet net | multipleDrivers net _ => some net
  | danglingPort net cell port => some (danglingText net cell port)
  | nameMismatch key _ => some key

def code (e : NetlistError) : Code := ⟨.pack, e.number⟩

def diagnostic (e : NetlistError) : Diagnostic :=
  { Diagnostic.error .pack e.number e.message with object := e.object? }

end NetlistError

end TileFabric
