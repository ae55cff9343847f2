import TileFabric.Diagnostic.Json
import TileFabric.Routing.Recorder

/-!
# Routing graphs as JSON

A routing graph is written with the texts of its names, every kind of declaration in order. The
delay of a pip is the nominal one. How numbers are written is left to the caller; as JSON has no
text for an infinite delay or for one that is not a number, a graph is readable again only if all
its delays are finite.
-/

set_option autoImplicit false

namespace TileFabric

namespace PinDirection

def tag : PinDirection → String
  | .input => "Input"
  | .output => "Output"
  | .inout => "Inout"

end PinDirection

namespace Wire

def toJson (symbols : SymbolTable) (wire : Wire) : Json :=
  .object
    [("name", .string (symbols.text wire.name)),
      ("wire_type", .string (symbols.text wire.wireType)),
      ("x", Json.ofNat wire.x.toNat),
      ("y", Json.ofNat wire.y.toNat)]

end Wire

namespace Pip

def toJson (number : Binary64 → Json) (symbols : SymbolTable) (pip : Pip) : Json :=
  .object
    [("name", .string (symbols.text pip.name)),
      ("pip_type", .string (symbols.text pip.pipType)),
      ("src_wire", .string (symbols.text pip.source)),
      ("dst_wire", .string (symbols.text pip.target)),
      ("delay_ns", number pip.delay.typical),
      ("loc", pip.loc.toJson)]

end Pip

namespace Bel

def toJson (symbols : SymbolTable) (bel : Bel) : Json :=
  .object
    [("name", .string (symbols.text bel.name)),
      ("bel_type", .string (symbols.text bel.belType)),
      ("loc", bel.loc.toJson),
      ("global_buffer", .bool bel.globalBuffer)]

end Bel

namespace BelPin

def toJson (symbols : SymbolTable) (pin : BelPin) : Json :=
  .object
    [("bel", .string (symbols.text pin.bel)),
      ("pin", .string (symbols.text pin.pin)),
      ("wire", .string (symbols.text pin.wire)),
      ("direction", .string pin.direction.tag)]

end BelPin

namespace Recorder

def pipsJson (number : Binary64 → Json) (r : Recorder) : Json :=
  .array (r.pips.toList.map (Pip.toJson number r.symbols))

def toJson (number : Binary64 → Json) (r : Recorder) : Json :=
  .object
    [("wires", .array (r.wires.toList.map (Wire.toJson r.symbols))),
      ("pips", r.pipsJson number),
      ("bels", .array (r.bels.toList.map (Bel.toJson r.symbols))),
      ("bel_pins", .array (r.belPins.toList.map (BelPin.toJson r.symbols)))]

/-- Whether JSON has a text for every delay. -/
def isReadable (r : Recorder) : Bool := r.pips.all fun pip => pip.delay.typical.isFinite

end Recorder

end TileFabric
