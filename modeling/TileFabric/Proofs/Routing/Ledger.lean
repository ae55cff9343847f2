import TileFabric.Routing.Recorder

/-!
# The routing graph without indices

A `Ledger` holds the declarations of a routing graph in their order and nothing that is computed
from them: whether it has room for another one, and every question about the graph, is settled by
a scan. It says what a `Recorder` with its indices has to answer.
-/

set_option autoImplicit false

namespace TileFabric

/-- What is asked of a recorder: the symbol of a text, or to take in a declaration. -/
inductive Request where
  | symbol (text : String)
  | wire (wire : Wire)
  | pip (pip : Pip)
  | bel (bel : Bel)
  | belPin (pin : BelPin)
  deriving DecidableEq, Repr, Inhabited

namespace Request

/-- Puts a request to a recorder. Only a text has an answer beyond being taken in. -/
def submit : Request → Declare (Option Symbol)
  | symbol text => some <$> Declare.symbol text
  | wire w => do Declare.wire w; pure none
  | pip p => do Declare.pip p; pure none
  | bel b => do Declare.bel b; pure none
  | belPin p => do Declare.belPin p; pure none

end Request

namespace Recorder

/-- The recorder behind a sequence of requests, some of them refused. -/
def after (r : Recorder) (requests : List Request) : Recorder :=
  requests.foldl (fun r request => (request.submit.run r).2) r

end Recorder

structure Ledger where
  symbols : SymbolTable := .empty
  wires : List Wire := []
  pips : List Pip := []
  bels : List Bel := []
  belPins : List BelPin := []

namespace Ledger

def empty : Ledger := {}

section Queries

variable (l : Ledger)

/-- The wire with a symbol for its name. -/
def wireAt? (name : Symbol) : Option Wire := l.wires.find? (·.name = name)

def pipAt? (name : Symbol) : Option Pip := l.pips.find? (·.name = name)

def belAt? (name : Symbol) : Option Bel := l.bels.find? (·.name = name)

/-- The wire with a text for its name. -/
def wire? (name : String) : Option Wire :=
  l.wires.find? fun w => l.symbols.text? w.name = some name

def pip? (name : String) : Option Pip :=
  l.pips.find? fun p => l.symbols.text? p.name = some name

def bel? (name : String) : Option Bel :=
  l.bels.find? fun b => l.symbols.text? b.name = some name

def belAtLoc? (loc : Loc) : Option Bel := l.bels.find? (·.loc = loc)

def downhill (wire : Symbol) : List Pip := l.pips.filter (·.source = wire)

def uphill (wire : Symbol) : List Pip := l.pips.filter (·.target = wire)

def pinsOn (wire : Symbol) : List BelPin := l.belPins.filter (·.wire = wire)

/-- The places of all bels and pips. -/
def places : List Loc := l.bels.map (·.loc) ++ l.pips.map (·.loc)

/-- The greatest of some coordinates, counted from one and up to the greatest there is. -/
def extent (coordinates : List UInt32) : Nat :=
  (coordinates.map fun c => min (c.toNat + 1) (UInt32.size - 1)).foldl max 0

/-- Columns and rows that the places span. -/
def dimensions : Nat × Nat := (extent (l.places.map (·.x)), extent (l.places.map (·.y)))

end Queries

section Requests

variable (l : Ledger)

def HasWire (name : Symbol) : Prop := ∃ w ∈ l.wires, w.name = name

instance (name : Symbol) : Decidable (l.HasWire name) :=
  inferInstanceAs (Decidable (∃ w ∈ l.wires, w.name = name))

/-- What a scan of the declarations finds against a request. -/
def error? : Request → Option RoutingError
  | .symbol _ => none
  | .wire w => if l.HasWire w.name then some (.duplicateWire (l.symbols.text w.name)) else none
  | .pip p =>
    if ∃ q ∈ l.pips, q.name = p.name then some (.duplicatePip (l.symbols.text p.name))
    else if ¬ l.HasWire p.source then some (.unknownWire (l.symbols.text p.source))
    else if ¬ l.HasWire p.target then some (.unknownWire (l.symbols.text p.target))
    else none
  | .bel b =>
    if ∃ c ∈ l.bels, c.name = b.name then some (.duplicateBel (l.symbols.text b.name))
    else if ∃ c ∈ l.bels, c.loc = b.loc then some (.occupiedBelLoc b.loc)
    else none
  | .belPin p =>
    if ¬ ∃ b ∈ l.bels, b.name = p.bel then some (.unknownBel (l.symbols.text p.bel))
    else if ¬ l.HasWire p.wire then some (.unknownWire (l.symbols.text p.wire))
    else if ∃ q ∈ l.belPins, q.bel = p.bel ∧ q.pin = p.pin then
      some (.duplicateBelPin (l.symbols.text p.bel) (l.symbols.text p.pin))
    else none

/-- The ledger with what a request brings. -/
def write : Request → Ledger
  | .symbol text => { l with symbols := (l.symbols.intern text).2 }
  | .wire w => { l with wires := l.wires ++ [w] }
  | .pip p => { l with pips := l.pips ++ [p] }
  | .bel b => { l with bels := l.bels ++ [b] }
  | .belPin p => { l with belPins := l.belPins ++ [p] }

/-- The answer to a request that nothing stands against. -/
def answer : Request → Option Symbol
  | .symbol text => some (l.symbols.intern text).1
  | _ => none

/-- The result of a request and the ledger behind it: a request that is refused leaves no trace. -/
def submit (request : Request) : Except RoutingError (Option Symbol) × Ledger :=
  match l.error? request with
  | some e => (.error e, l)
  | none => (.ok (l.answer request), l.write request)

/-- The ledger behind a sequence of requests, some of them refused. -/
def after (requests : List Request) : Ledger :=
  requests.foldl (fun l request => (l.submit request).2) l

end Requests

end Ledger

end TileFabric
