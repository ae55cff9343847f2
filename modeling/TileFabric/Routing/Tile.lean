import TileFabric.Routing.Recorder

/-!
# Logic tiles

A tile has twenty bel slots: eight lookup tables, eight flip-flops, three multiplexers and a carry
chain. Every pin of a bel has a wire of its own.
-/

set_option autoImplicit false

namespace TileFabric

inductive BelKind where
  | lut4 | dffer | mux | carry4
  deriving DecidableEq, Repr, Inhabited

namespace BelKind

def typeName : BelKind → String
  | lut4 => "LUT4"
  | dffer => "DFFER"
  | mux => "MUX"
  | carry4 => "CARRY4"

def inputs : BelKind → List String
  | lut4 => ["I0", "I1", "I2", "I3"]
  | dffer => ["D", "CLK", "CE", "RST"]
  | mux => ["I0", "I1", "SEL"]
  | carry4 => ["CI", "G0", "G1", "G2", "G3", "P0", "P1", "P2", "P3"]

def outputs : BelKind → List String
  | lut4 => ["O"]
  | dffer => ["Q"]
  | mux => ["O"]
  | carry4 => ["CO", "S0", "S1", "S2", "S3"]

/-- The pins with their directions, inputs first. -/
def pins (kind : BelKind) : List (String × PinDirection) :=
  kind.inputs.map (fun pin => (pin, PinDirection.input)) ++
    kind.outputs.map (fun pin => (pin, PinDirection.output))

/-- What a slot holds; there is none past the last. -/
def ofSlot? (z : UInt32) : Option BelKind :=
  if z < 8 then some lut4
  else if z < 16 then some dffer
  else if z < 19 then some mux
  else if z < 20 then some carry4
  else none

end BelKind

namespace Tile

def slotCount : Nat := 20

/-- The name of the wire behind a bel pin. -/
def pinWireName (loc : Loc) (pin : String) : String := s!"X{loc.x}Y{loc.y}Z{loc.z}_{pin}"

def belName (loc : Loc) (kind : BelKind) : String :=
  s!"X{loc.x}Y{loc.y}Z{loc.z}_{kind.typeName}_BEL"

structure Counts where
  bels : Nat := 0
  wires : Nat := 0
  deriving DecidableEq, Repr, Inhabited

def Counts.add (a b : Counts) : Counts := { bels := a.bels + b.bels, wires := a.wires + b.wires }

/-- Declares a pin of a bel with its wire. -/
def declarePin (loc : Loc) (bel wireType : Symbol) (pin : String) (direction : PinDirection) :
    Declare Unit := do
  let wire ← Declare.symbol (pinWireName loc pin)
  let pin ← Declare.symbol pin
  Declare.wire { name := wire, wireType, x := loc.x, y := loc.y }
  Declare.belPin { bel, pin, wire, direction }

/-- Declares the bel of a slot with its pins, and counts the pins. -/
def declareSlot (wireType : PinDirection → Symbol) (loc : Loc) (kind : BelKind) : Declare Nat := do
  let bel ← Declare.symbol (belName loc kind)
  let belType ← Declare.symbol kind.typeName
  Declare.bel { name := bel, belType, loc, globalBuffer := false }
  kind.pins.forM fun (pin, direction) => declarePin loc bel (wireType direction) pin direction
  pure kind.pins.length

/-- The places of a tile's bels with their kinds. -/
def slots (x y : UInt32) : List (Loc × BelKind) :=
  (List.range slotCount).filterMap fun z =>
    let loc : Loc := ⟨x, y, UInt32.ofNat z⟩
    (BelKind.ofSlot? loc.z).map fun kind => (loc, kind)

/-- Declares every bel of a tile with its pins. -/
def declare (x y : UInt32) : Declare Counts := do
  let inputType ← Declare.symbol "BEL_INPUT"
  let outputType ← Declare.symbol "BEL_OUTPUT"
  let wireType (direction : PinDirection) := if direction = .input then inputType else outputType
  let wires ← Declare.countEach (fun (loc, kind) => declareSlot wireType loc kind) (slots x y)
  pure { bels := (slots x y).length, wires }

end Tile

end TileFabric
