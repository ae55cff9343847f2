import TileFabric.Routing.Recorder

/-!
# Switch boxes

A universal switch box joins the wires of its four sides track by track. Tracks are taken in
pairs. Of the six turns between two sides, four keep the track and two, north/east and south/west,
swap the tracks of a pair; each turn has a pip in either direction for each track. A last track
without a partner keeps its track on every turn.
-/

set_option autoImplicit false

namespace TileFabric

inductive Side where
  | north | east | south | west
  deriving DecidableEq, Repr, Inhabited

def Side.letter : Side → String
  | .north => "n"
  | .east => "e"
  | .south => "s"
  | .west => "w"

/-- The six ways of getting from one side to another or back. -/
inductive Turn where
  | straightV | straightH | northEast | southWest | northWest | southEast
  deriving DecidableEq, Repr, Inhabited

namespace Turn

/-- Every turn, in the order in which pips are declared. -/
def all : List Turn := [straightV, straightH, northEast, southWest, northWest, southEast]

def suffix : Turn → String
  | straightV => "str_v"
  | straightH => "str_h"
  | northEast => "ne"
  | southWest => "sw"
  | northWest => "nw"
  | southEast => "se"

end Turn

/-- How many wires the sides have: all four as many, or as many on opposite sides. -/
inductive BoxShape where
  | square | rectangular
  deriving DecidableEq, Repr, Inhabited

/-- The tag that names of boxes and of their pip types begin with. -/
def BoxShape.tag : BoxShape → String
  | .square => "sq_usb"
  | .rectangular => "rect_usb"

structure SwitchBox where
  x : UInt32
  y : UInt32
  shape : BoxShape
  north : List Symbol
  east : List Symbol
  south : List Symbol
  west : List Symbol
  deriving DecidableEq, Repr, Inhabited

/-- A pip to be: from a track of one side to a track of another, with the track in its name. -/
structure Coupling where
  turn : Turn
  source : Side
  sourceTrack : Nat
  target : Side
  targetTrack : Nat
  named : Nat
  deriving DecidableEq, Repr, Inhabited

namespace Coupling

/-- The letters of the two sides, source first. -/
def letters (c : Coupling) : String := c.source.letter ++ c.target.letter

/-- The coupling a number of tracks further on. -/
def shift (distance : Nat) (c : Coupling) : Coupling :=
  { c with
    sourceTrack := distance + c.sourceTrack
    targetTrack := distance + c.targetTrack
    named := distance + c.named }

/-- The coupling with the same sides and one track for all three of its own. -/
def onTrack (track : Nat) (c : Coupling) : Coupling :=
  { c with sourceTrack := track, targetTrack := track, named := track }

/-- The couplings of tracks 0 and 1, which every other pair repeats further on. -/
def firstPair : List Coupling :=
  [⟨.straightV, .north, 0, .south, 0, 0⟩,
    ⟨.straightV, .south, 0, .north, 0, 0⟩,
    ⟨.straightV, .north, 1, .south, 1, 1⟩,
    ⟨.straightV, .south, 1, .north, 1, 1⟩,
    ⟨.straightH, .east, 0, .west, 0, 0⟩,
    ⟨.straightH, .west, 0, .east, 0, 0⟩,
    ⟨.straightH, .east, 1, .west, 1, 1⟩,
    ⟨.straightH, .west, 1, .east, 1, 1⟩,
    ⟨.northEast, .north, 0, .east, 1, 0⟩,
    ⟨.northEast, .east, 1, .north, 0, 0⟩,
    ⟨.northEast, .north, 1, .east, 0, 1⟩,
    ⟨.northEast, .east, 0, .north, 1, 1⟩,
    ⟨.southWest, .south, 0, .west, 1, 0⟩,
    ⟨.southWest, .west, 1, .south, 0, 0⟩,
    ⟨.southWest, .south, 1, .west, 0, 1⟩,
    ⟨.southWest, .west, 0, .south, 1, 1⟩,
    ⟨.northWest, .north, 0, .west, 0, 0⟩,
    ⟨.northWest, .west, 0, .north, 0, 0⟩,
    ⟨.northWest, .north, 1, .west, 1, 1⟩,
    ⟨.northWest, .west, 1, .north, 1, 1⟩,
    ⟨.southEast, .south, 0, .east, 0, 0⟩,
    ⟨.southEast, .east, 0, .south, 0, 0⟩,
    ⟨.southEast, .south, 1, .east, 1, 1⟩,
    ⟨.southEast, .east, 1, .south, 1, 1⟩]

/-- The couplings of the pair of tracks that begins at `base`. -/
def ofPair (base : Nat) : List Coupling := firstPair.map (shift base)

/-- The couplings of a track without a partner: those of a pair that its first track names, all on
the one track. -/
def ofSingle (track : Nat) : List Coupling :=
  (firstPair.filter fun c => c.named = 0).map (onTrack track)

/-- All couplings of a box with `n` wires on each side. -/
def ofTracks (n : Nat) : List Coupling :=
  (List.range (n / 2)).flatMap (fun pair => ofPair (2 * pair)) ++
    (if n % 2 = 1 then ofSingle (n - 1) else [])

end Coupling

namespace SwitchBox

def pipsPerPair : Nat := 24

def pipsPerSingle : Nat := 12

/-- How many pips a square box with `n` wires on each side has. -/
def pipCount (n : Nat) : Nat := pipsPerPair * (n / 2) + pipsPerSingle * (n % 2)

def name (box : SwitchBox) : String := s!"{box.shape.tag}_x{box.x}y{box.y}"

def side (box : SwitchBox) : Side → List Symbol
  | .north => box.north
  | .east => box.east
  | .south => box.south
  | .west => box.west

def mismatch (box : SwitchBox) : RoutingError :=
  .wireCountMismatch box.name box.north.length box.east.length box.south.length box.west.length

/-- The number of tracks, if the sides fit together and the shape has a pattern of pips. -/
def tracks (box : SwitchBox) : Except RoutingError Nat :=
  let n := box.north.length
  match box.shape with
  | .square =>
    if box.east.length = n ∧ box.south.length = n ∧ box.west.length = n then .ok n
    else .error box.mismatch
  | .rectangular =>
    if box.south.length = n ∧ box.west.length = box.east.length then
      .error (.notImplemented s!"rectangular switch box {box.name}")
    else .error box.mismatch

/-- The wire on a track of a side. -/
def wireOn (box : SwitchBox) (s : Side) (track : Nat) : Symbol := (box.side s).getD track default

def pipName (box : SwitchBox) (c : Coupling) : String := s!"{box.name}{c.letters}{c.named}"

def turnTag (box : SwitchBox) (turn : Turn) : String := s!"{box.shape.tag}_{turn.suffix}"

/-- The pip of a coupling. -/
def planOne (box : SwitchBox) (delay : Delay) (typeOf : Turn → Symbol) (c : Coupling) :
    Declare Pip := do
  let name ← Declare.symbol (box.pipName c)
  pure
    { name
      pipType := typeOf c.turn
      source := box.wireOn c.source c.sourceTrack
      target := box.wireOn c.target c.targetTrack
      delay
      loc := ⟨box.x, box.y, 0⟩ }

/-- The pips of a box, named but not declared. A box that does not fit together names nothing. -/
def plan (box : SwitchBox) (delay : Delay) : Declare (List Pip) := do
  let n ← liftExcept box.tracks
  let types ← Turn.all.mapM fun turn => do
    let s ← Declare.symbol (box.turnTag turn)
    pure (turn, s)
  let typeOf turn := (types.lookup turn).getD default
  (Coupling.ofTracks n).mapM (box.planOne delay typeOf)

/-- Declares the pips of a box and counts them. -/
def declare (box : SwitchBox) (delay : Delay) : Declare Nat := do
  let pips ← box.plan delay
  pips.forM Declare.pip
  pure pips.length

end SwitchBox

end TileFabric
