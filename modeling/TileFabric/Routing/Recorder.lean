import Std.Data.ExtTreeSet
import TileFabric.Binary64
import TileFabric.Routing.Error
import TileFabric.Symbol

/-!
# The routing graph

A routing graph is declared piece by piece: wires, pips from wire to wire, bels at places, and
pins that attach bels to wires. A `Recorder` keeps the declarations in order, together with
indices by name, by place and by wire. A declaration that breaks a rule is refused: names are
unique, a place holds one bel, pips and pins need their wires, pins their bel.
-/

set_option autoImplicit false

namespace TileFabric

/-- A delay in nanoseconds at the fast, the nominal and the slow corner. -/
structure Delay where
  least : Binary64
  typical : Binary64
  greatest : Binary64
  deriving DecidableEq, Repr, Inhabited

/-- The same delay at every corner. -/
def Delay.uniform (ns : Binary64) : Delay := ⟨ns, ns, ns⟩

/-- The way a bel pin is driven: by the wire, the wire by it, or both. -/
inductive PinDirection where
  | input | output | inout
  deriving DecidableEq, Repr, Inhabited

structure Wire where
  name : Symbol
  wireType : Symbol
  x : UInt32
  y : UInt32
  deriving DecidableEq, Repr, Inhabited

/-- A switchable hop from one wire to another. -/
structure Pip where
  name : Symbol
  pipType : Symbol
  source : Symbol
  target : Symbol
  delay : Delay
  loc : Loc
  deriving DecidableEq, Repr, Inhabited

/-- A logic element; the slot of its place tells it from the others of its tile. -/
structure Bel where
  name : Symbol
  belType : Symbol
  loc : Loc
  globalBuffer : Bool
  deriving DecidableEq, Repr, Inhabited

structure BelPin where
  bel : Symbol
  pin : Symbol
  wire : Symbol
  direction : PinDirection
  deriving DecidableEq, Repr, Inhabited

/-- Positions, in the order of declaration, of a wire and of what touches it. -/
structure WireEntry where
  position : Nat
  downhill : Array Nat := #[]
  uphill : Array Nat := #[]
  belPins : Array Nat := #[]
  deriving DecidableEq, Inhabited

/-- The position of a bel and the names of its pins. -/
structure BelEntry where
  position : Nat
  pins : Std.ExtTreeSet Symbol := ∅

structure Recorder where
  symbols : SymbolTable := .empty
  wires : Array Wire := #[]
  pips : Array Pip := #[]
  bels : Array Bel := #[]
  belPins : Array BelPin := #[]
  wireIndex : SymbolMap WireEntry := ∅
  pipIndex : SymbolMap Nat := ∅
  belIndex : SymbolMap BelEntry := ∅
  belsByLoc : LocMap Nat := ∅
  /-- Columns and rows that the places of bels and pips span. -/
  columns : UInt32 := 0
  rows : UInt32 := 0

/-- What runs on a recorder; what it has declared before a refusal stays declared. -/
abbrev Declare (α : Type) := ExceptT RoutingError (StateM Recorder) α

namespace Recorder

def empty : Recorder := {}

section Queries

variable (r : Recorder)

def wireAt? (name : Symbol) : Option Wire := r.wireIndex[name]?.bind fun e => r.wires[e.position]?

def pipAt? (name : Symbol) : Option Pip := r.pipIndex[name]?.bind fun position => r.pips[position]?

def belAt? (name : Symbol) : Option Bel := r.belIndex[name]?.bind fun e => r.bels[e.position]?

def wire? (name : String) : Option Wire := (r.symbols.find? name).bind r.wireAt?

def pip? (name : String) : Option Pip := (r.symbols.find? name).bind r.pipAt?

def bel? (name : String) : Option Bel := (r.symbols.find? name).bind r.belAt?

/-- The bel in a place. -/
def belAtLoc? (loc : Loc) : Option Bel := r.belsByLoc[loc]?.bind fun position => r.bels[position]?

/-- The pips that lead away from a wire. -/
def downhill (wire : Symbol) : List Pip :=
  match r.wireIndex[wire]? with
  | some e => e.downhill.toList.filterMap fun position => r.pips[position]?
  | none => []

/-- The pips that lead to a wire. -/
def uphill (wire : Symbol) : List Pip :=
  match r.wireIndex[wire]? with
  | some e => e.uphill.toList.filterMap fun position => r.pips[position]?
  | none => []

/-- The bel pins on a wire. -/
def pinsOn (wire : Symbol) : List BelPin :=
  match r.wireIndex[wire]? with
  | some e => e.belPins.toList.filterMap fun position => r.belPins[position]?
  | none => []

end Queries

section Rules

variable (r : Recorder)

/-- What stands against a wire, if anything does. -/
def wireError? (wire : Wire) : Option RoutingError :=
  if r.wireIndex.contains wire.name then some (.duplicateWire (r.symbols.text wire.name)) else none

/-- What stands against a pip: its name, then its source, then its target. -/
def pipError? (pip : Pip) : Option RoutingError :=
  if r.pipIndex.contains pip.name then some (.duplicatePip (r.symbols.text pip.name))
  else if !r.wireIndex.contains pip.source then some (.unknownWire (r.symbols.text pip.source))
  else if !r.wireIndex.contains pip.target then some (.unknownWire (r.symbols.text pip.target))
  else none

/-- What stands against a bel: its name, then its place. -/
def belError? (bel : Bel) : Option RoutingError :=
  if r.belIndex.contains bel.name then some (.duplicateBel (r.symbols.text bel.name))
  else if r.belsByLoc.contains bel.loc then some (.occupiedBelLoc bel.loc)
  else none

/-- What stands against a bel pin: its bel, then its wire, then its name at the bel. -/
def belPinError? (pin : BelPin) : Option RoutingError :=
  match r.belIndex[pin.bel]? with
  | none => some (.unknownBel (r.symbols.text pin.bel))
  | some e =>
    if !r.wireIndex.contains pin.wire then some (.unknownWire (r.symbols.text pin.wire))
    else if e.pins.contains pin.pin then
      some (.duplicateBelPin (r.symbols.text pin.bel) (r.symbols.text pin.pin))
    else none

end Rules

/-- One more, or the greatest coordinate if there is no more. -/
def saturatingNext (n : UInt32) : UInt32 := if n = 0xFFFFFFFF then n else n + 1

/-- The recorder with its grid extended to hold a place. -/
def extendTo (loc : Loc) (r : Recorder) : Recorder :=
  { r with
    columns := max r.columns (saturatingNext loc.x)
    rows := max r.rows (saturatingNext loc.y) }

def pushWire (wire : Wire) (r : Recorder) : Recorder :=
  let position := r.wires.size
  { r with
    wires := r.wires.push wire
    wireIndex := r.wireIndex.insert wire.name { position } }

def pushPip (pip : Pip) (r : Recorder) : Recorder :=
  let position := r.pips.size
  let leaving (e : WireEntry) : WireEntry := { e with downhill := e.downhill.push position }
  let arriving (e : WireEntry) : WireEntry := { e with uphill := e.uphill.push position }
  extendTo pip.loc
    { r with
      pips := r.pips.push pip
      pipIndex := r.pipIndex.insert pip.name position
      wireIndex := (r.wireIndex.modify pip.source leaving).modify pip.target arriving }

def pushBel (bel : Bel) (r : Recorder) : Recorder :=
  let position := r.bels.size
  extendTo bel.loc
    { r with
      bels := r.bels.push bel
      belIndex := r.belIndex.insert bel.name { position }
      belsByLoc := r.belsByLoc.insert bel.loc position }

def pushBelPin (pin : BelPin) (r : Recorder) : Recorder :=
  let position := r.belPins.size
  let attached (e : WireEntry) : WireEntry := { e with belPins := e.belPins.push position }
  let named (e : BelEntry) : BelEntry := { e with pins := e.pins.insert pin.pin }
  { r with
    belPins := r.belPins.push pin
    wireIndex := r.wireIndex.modify pin.wire attached
    belIndex := r.belIndex.modify pin.bel named }

end Recorder

namespace Declare

variable {α : Type}

/-- The symbol of a text. The table is taken out of the recorder while it may grow. -/
def symbol (text : String) : Declare Symbol :=
  modifyGet fun r =>
    let table := r.symbols
    let rest := { r with symbols := .empty }
    let (s, symbols) := table.intern text
    (s, { rest with symbols })

/-- Takes a declaration in unless something stands against it. -/
def accept (error? : Recorder → Option RoutingError) (push : Recorder → Recorder) :
    Declare Unit := do
  match error? (← get) with
  | some e => throw e
  | none => modify push

def wire (wire : Wire) : Declare Unit :=
  accept (fun r => r.wireError? wire) (Recorder.pushWire wire)

def pip (pip : Pip) : Declare Unit :=
  accept (fun r => r.pipError? pip) (Recorder.pushPip pip)

def bel (bel : Bel) : Declare Unit :=
  accept (fun r => r.belError? bel) (Recorder.pushBel bel)

def belPin (pin : BelPin) : Declare Unit :=
  accept (fun r => r.belPinError? pin) (Recorder.pushBelPin pin)

/-- Runs declarations that count, for one item after the other, and adds up what they count. -/
def countEach (declare : α → Declare Nat) : List α → Declare Nat
  | [] => pure 0
  | item :: rest => do
    let count ← declare item
    let others ← countEach declare rest
    pure (count + others)

end Declare

end TileFabric
