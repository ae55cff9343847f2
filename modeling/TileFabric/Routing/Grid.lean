import TileFabric.Log
import TileFabric.Routing.SwitchBox
import TileFabric.Routing.Tile

/-!
# Grids

A device is a grid of logic tiles with a switch box each. Vertical channels run below, between and
above the tiles of a column, horizontal ones left of, between and right of the tiles of a row. The
box of a tile takes its south and west wires from the channels below and left of it, and its north
and east wires from those above and right of it, so that neighbours share their wires.
-/

set_option autoImplicit false

namespace TileFabric

/-- The coordinates below a bound. -/
def below (n : UInt32) : List UInt32 := (List.range n.toNat).map UInt32.ofNat

/-- The coordinates up to a bound. -/
def upTo (n : UInt32) : List UInt32 := (List.range (n.toNat + 1)).map UInt32.ofNat

namespace Channel

/-- The wire type of channel wires. -/
def routing : String := "ROUTING"

/-- Wire `i` of the vertical channel that enters row `y` of column `x` from below. -/
def verticalName (x y i : UInt32) : String := s!"V_X{x}Y{y}_{i}"

/-- Wire `i` of the horizontal channel that enters column `x` of row `y` from the left. -/
def horizontalName (x y i : UInt32) : String := s!"H_X{x}Y{y}_{i}"

/-- The symbols of a channel's wires. -/
def wires (name : UInt32 → UInt32 → UInt32 → String) (x y count : UInt32) : Declare (List Symbol) :=
  (below count).mapM fun i => Declare.symbol (name x y i)

end Channel

/-- What a grid is built from. -/
structure GridSpec where
  width : UInt32
  height : UInt32
  /-- Wires in each vertical channel. -/
  vertical : UInt32
  /-- Wires in each horizontal channel. -/
  horizontal : UInt32
  shape : BoxShape
  delay : Delay
  deriving DecidableEq, Repr

structure GridSummary where
  width : UInt32
  height : UInt32
  bels : Nat
  belWires : Nat
  channelWires : Nat
  pips : Nat
  deriving DecidableEq, Repr

namespace GridSpec

variable (spec : GridSpec)

/-- The tiles, column by column. -/
def tiles : List (UInt32 × UInt32) :=
  (below spec.width).flatMap fun x => (below spec.height).map fun y => (x, y)

/-- Column, row and track of the vertical channel wires. -/
def verticalTracks : List (UInt32 × UInt32 × UInt32) :=
  (below spec.width).flatMap fun x => (upTo spec.height).flatMap fun y =>
    (below spec.vertical).map fun i => (x, y, i)

/-- Column, row and track of the horizontal channel wires. -/
def horizontalTracks : List (UInt32 × UInt32 × UInt32) :=
  (below spec.height).flatMap fun y => (upTo spec.width).flatMap fun x =>
    (below spec.horizontal).map fun i => (x, y, i)

def declareTiles : Declare Tile.Counts := do
  let counts ← spec.tiles.mapM fun (x, y) => Tile.declare x y
  pure (counts.foldr Tile.Counts.add {})

/-- Declares the channel wires and counts them. A wire past the last tile belongs to that tile. -/
def declareChannels : Declare Nat := do
  let wireType ← Declare.symbol Channel.routing
  spec.verticalTracks.forM fun (x, y, i) => do
    let name ← Declare.symbol (Channel.verticalName x y i)
    Declare.wire { name, wireType, x, y := min y (spec.height - 1) }
  spec.horizontalTracks.forM fun (x, y, i) => do
    let name ← Declare.symbol (Channel.horizontalName x y i)
    Declare.wire { name, wireType, x := min x (spec.width - 1), y }
  pure (spec.verticalTracks.length + spec.horizontalTracks.length)

/-- The box of a tile between its four channels. -/
def boxAt (x y : UInt32) : Declare SwitchBox := do
  let north ← Channel.wires Channel.verticalName x (y + 1) spec.vertical
  let east ← Channel.wires Channel.horizontalName (x + 1) y spec.horizontal
  let south ← Channel.wires Channel.verticalName x y spec.vertical
  let west ← Channel.wires Channel.horizontalName x y spec.horizontal
  pure { x, y, shape := spec.shape, north, east, south, west }

/-- Declares the boxes and counts their pips. -/
def declareBoxes : Declare Nat :=
  Declare.countEach
    (fun (x, y) => do
      let box ← spec.boxAt x y
      box.declare spec.delay)
    spec.tiles

/-- Declares the side wires of one box, which lie in the channels around its tile. -/
def declareSide (name : UInt32 → UInt32 → UInt32 → String) (x y count : UInt32) :
    Declare (List Symbol) := do
  let wireType ← Declare.symbol Channel.routing
  (below count).mapM fun i => do
    let wire ← Declare.symbol (name x y i)
    Declare.wire { name := wire, wireType, x, y }
    pure wire

/-- Declares the box of one tile by itself, with the wires of its sides, and counts its pips. -/
def declareBox (x y : UInt32) : Declare Nat := do
  if x = 0xFFFFFFFF ∨ y = 0xFFFFFFFF then throw (.coordinateOverflow x y)
  else
    let north ← declareSide Channel.verticalName x (y + 1) spec.vertical
    let east ← declareSide Channel.horizontalName (x + 1) y spec.horizontal
    let south ← declareSide Channel.verticalName x y spec.vertical
    let west ← declareSide Channel.horizontalName x y spec.horizontal
    let box : SwitchBox := { x, y, shape := spec.shape, north, east, south, west }
    box.declare spec.delay

end GridSpec

/-- A recorder and the log that building reports to. -/
structure BuildSite where
  recorder : Recorder := .empty
  log : Log := .empty

abbrev Build (α : Type) := ExceptT RoutingError (StateM BuildSite) α

namespace Build

variable {α : Type}

def report (d : Diagnostic) : Build Unit := modify fun site => { site with log := site.log.add d }

def announce (message : String) : Build Unit := report (.note .info 1 message)

/-- Runs declarations; an error goes into the log. -/
def declare (declarations : Declare α) : Build α := ExceptT.mk fun site =>
  let (result, recorder) := declarations.run site.recorder
  let log := match result with
    | .ok _ => site.log
    | .error e => site.log.add e.diagnostic
  (result, { recorder, log })

/-- Declares a whole grid: the tiles, then the channels, then the boxes. -/
def grid (spec : GridSpec) : Build GridSummary := do
  announce s!"Declaring {spec.width}x{spec.height} logic tiles.."
  let counts ← declare spec.declareTiles
  announce "Declaring routing channels.."
  let channelWires ← declare spec.declareChannels
  announce "Declaring switch boxes.."
  let pips ← declare spec.declareBoxes
  announce s!"Declared {counts.bels} bels, {counts.wires + channelWires} wires, {pips} pips."
  pure
    { width := spec.width
      height := spec.height
      bels := counts.bels
      belWires := counts.wires
      channelWires
      pips }

end Build

end TileFabric
