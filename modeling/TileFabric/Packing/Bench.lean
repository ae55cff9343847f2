import TileFabric.Packing.Cells

/-!
# Moving connections from one cell to another

A `Bench` holds the nets of a netlist with two cells taken out of it: connections move from the
source to the target, and the references in the nets move with them. A move that fails leaves
behind what the moves before it have done.
-/

set_option autoImplicit false

namespace TileFabric

structure Bench where
  nets : NameMap Net
  source : Cell
  target : Cell
  deriving DecidableEq, Repr, Inhabited

abbrev Move (α : Type) := ExceptT NetlistError (StateM Bench) α

namespace Net

/-- The net with every reference to one port replaced by another, in place. -/
def redirect (ref replacement : PortRef) (net : Net) : Net :=
  let follow (r : PortRef) : PortRef := if r = ref then replacement else r
  { net with driver := net.driver.map follow, users := net.users.map follow }

end Net

namespace Cell

def withPortNet (cell : Cell) (port : String) (net : Option String) : Cell :=
  { cell with ports := cell.ports.modify port ({ · with net }) }

end Cell

namespace Bench

/--
Moves a connection of the source to a port of the target, which has to exist and to be free.
A port of the source that is absent or free moves nothing.
-/
def movePort (sourcePort targetPort : String) : Move Unit := do
  let bench ← get
  match bench.source.portNet? sourcePort with
  | none => pure ()
  | some name =>
    match bench.target.ports[targetPort]? with
    | none => throw (.missingPort bench.target.name targetPort)
    | some port =>
      if port.net.isSome then throw (.portInUse bench.target.name targetPort)
      else
        match bench.nets[name]? with
        | none => throw (.unknownNet name)
        | some net =>
          let moved := net.redirect ⟨bench.source.name, sourcePort⟩ ⟨bench.target.name, targetPort⟩
          set
            { nets := bench.nets.insert name moved
              source := bench.source.withPortNet sourcePort none
              target := bench.target.withPortNet targetPort (some name) : Bench }

/-- Sets a parameter of the target. -/
def setTarget (name : String) (value : Property) : Move Unit :=
  modify fun bench => { bench with target := bench.target.setParam name value }

/-- The power-up contents of the source, zero if it names none. -/
def sourceInit (bench : Bench) : Property := bench.source.params["INIT"]?.getD (.int 0)

/-- A width as an error shows it: what is no 32-bit number shows as the greatest one. -/
def shownWidth (width : Int) : Nat :=
  if 0 ≤ width ∧ width < UInt32.size then width.toNat else UInt32.size - 1

/--
Moves a lookup table into slot 1 of a logic block. Without a flip-flop its output becomes the
block's combinational output.
-/
def lutToBlock (withoutFlipFlop : Bool) : Move Unit := do
  let bench ← get
  setTarget "LUT_INIT" bench.sourceInit
  let available := bench.target.intParam "K" 4
  let inputs := bench.source.intParam "K" 4
  if available < inputs then
    throw (.lutTooWide bench.source.name (shownWidth inputs) (shownWidth available))
  else
    (List.range inputs.toNat).forM fun i => movePort s!"I{i}" (LogicBlock.lutInput 1 i)
    if withoutFlipFlop then
      setTarget "FF_USED" (.int 0)
      movePort "O" (LogicBlock.combOutput 1)

/-- The contents of a `k`-input lookup table that passes its first input on. -/
def passThroughTable (k : Nat) : Property :=
  .bits (String.ofList (List.replicate (Nat.pow 2 k / 2) ['1', '0']).flatten)

/--
Moves a flip-flop into slot 1 of a logic block, its data input behind a lookup table that passes
it through if asked for.
-/
def flipFlopToBlock (passThrough : Bool) : Move Unit := do
  let bench ← get
  setTarget "FF_USED" (.int 1)
  setTarget "DFF_INIT" bench.sourceInit
  movePort "CLK" "CLK"
  movePort "CE" "CE"
  movePort "RST" "RST"
  if passThrough then
    let k := max 1 (min 16 (bench.target.intParam "K" 4))
    setTarget "LUT_INIT" (passThroughTable k.toNat)
    movePort "D" (LogicBlock.lutInput 1 0)
  movePort "Q" (LogicBlock.syncOutput 1)

/--
Moves an IO buffer onto a flip-flop that stands in for it: an input buffer drives from `Q`, an
output buffer is sampled by `D`, and of any other nothing moves.
-/
def bufferToFlipFlop : Move Unit := do
  let bench ← get
  setTarget "INIT" (.int 1)
  if bench.source.cellType = CellType.inputBuffer then movePort "O" "Q"
  else if bench.source.cellType = CellType.outputBuffer then movePort "I" "D"

end Bench

end TileFabric
