import TileFabric.Bitstream
import TileFabric.Packing.Passes
import TileFabric.Routing.Grid
import TileFabric.Toml.Reader
import TileFabric.Toml.Record

/-!
# Settings

Settings say what device there is, what its switch boxes are like, which packing passes run and
which bitstream parameters are written. They are read from a TOML text, every part with defaults,
and checked: settings that pass describe a device with at least one tile and one wire a side.
-/

set_option autoImplicit false

namespace TileFabric

structure DeviceSettings where
  /-- Inputs of a lookup table. -/
  lutInputs : UInt32 := 4
  /-- Columns of tiles. -/
  columns : UInt32 := 8
  /-- Rows of tiles. -/
  rows : UInt32 := 8
  deriving DecidableEq, Repr, Inhabited

structure BoxSettings where
  shape : BoxShape := .square
  /-- Wires on the north side and on the south side. -/
  wires : UInt32 := 4
  /-- Wires on the east side and on the west side, if they are not as many. -/
  horizontalWires : Option UInt32 := none
  /-- The delay of every pip in nanoseconds. -/
  delay : Binary64 := .ofDecimal ⟨false, 5, -2⟩
  deriving DecidableEq, Repr, Inhabited

/-- Wires on the east side and on the west side. -/
def BoxSettings.horizontal (box : BoxSettings) : UInt32 := box.horizontalWires.getD box.wires

structure Settings where
  device : DeviceSettings := {}
  box : BoxSettings := {}
  stages : Stages := {}
  /-- The rows of the parameter table; none stand for the stock table. -/
  parameters : List ParamEntry := []
  deriving DecidableEq, Repr, Inhabited

inductive SettingsError where
  /-- The text is not TOML, or not the TOML of settings. -/
  | unreadable
  | lutInputsOutOfRange (k : UInt32)
  | emptyGrid
  | noWires
  | badDelay (ns : Binary64)
  | duplicateParameter (key : ParamKey)
  | missingWidth (key : ParamKey)
  deriving DecidableEq, Repr

namespace SettingsError

def message : SettingsError → String
  | unreadable => "failed to parse configuration: the text is not a table of settings"
  | lutInputsOutOfRange k => s!"validation error: arch.lut_k must be in 1..=8, got {k}"
  | emptyGrid => "validation error: arch.grid_x and arch.grid_y must be at least 1"
  | noWires => "validation error: switchbox wire counts must be at least 1"
  | badDelay ns => "validation error: switchbox.pip_delay_ns must be a non-negative number, got " ++
      ns.messageText
  | duplicateParameter key => s!"validation error: duplicate bitstream parameter {key.text}"
  | missingWidth key =>
    s!"validation error: numeric bitstream parameter {key.text} needs a positive width"

end SettingsError

open Toml (Record)

namespace DeviceSettings

def ofToml? (value : Toml) : Option DeviceSettings := do
  let default : DeviceSettings := {}
  let record ← Record.ofToml? ["lut_k", "grid_x", "grid_y"] value
  let lutInputs ← record.defaulted "lut_k" Toml.asUInt32? default.lutInputs
  let columns ← record.defaulted "grid_x" Toml.asUInt32? default.columns
  let rows ← record.defaulted "grid_y" Toml.asUInt32? default.rows
  some { lutInputs, columns, rows }

end DeviceSettings

namespace BoxSettings

def shapeOfName? : String → Option BoxShape
  | "square" => some .square
  | "rectangular" => some .rectangular
  | _ => none

def ofToml? (value : Toml) : Option BoxSettings := do
  let default : BoxSettings := {}
  let record ← Record.ofToml?
    ["kind", "wires_per_side", "horizontal_wires_per_side", "pip_delay_ns"] value
  let shape ← record.defaulted "kind" (Toml.asTag? shapeOfName?) default.shape
  let wires ← record.defaulted "wires_per_side" Toml.asUInt32? default.wires
  let horizontalWires ←
    record.optional "horizontal_wires_per_side" Toml.asUInt32? default.horizontalWires
  let delay ← record.defaulted "pip_delay_ns" Toml.asBinary64? default.delay
  some { shape, wires, horizontalWires, delay }

end BoxSettings

namespace Stages

def ofToml? (value : Toml) : Option Stages := do
  let default : Stages := {}
  let record ← Record.ofToml? ["constants", "luts", "ffs", "virtual_io"] value
  let constants ← record.defaulted "constants" Toml.asBool? default.constants
  let luts ← record.defaulted "luts" Toml.asBool? default.luts
  let flipFlops ← record.defaulted "ffs" Toml.asBool? default.flipFlops
  let virtualIo ← record.defaulted "virtual_io" Toml.asBool? default.virtualIo
  some { constants, luts, flipFlops, virtualIo }

end Stages

namespace ParamEntry

def ofToml? (value : Toml) : Option ParamEntry := do
  let record ← Record.ofToml? ["cell_type", "parameter", "write", "numeric", "width"] value
  let cellType ← record.required "cell_type" Toml.asString?
  let parameter ← record.required "parameter" Toml.asString?
  let write ← record.required "write" Toml.asBool?
  let numeric ← record.defaulted "numeric" Toml.asBool? false
  let width ← record.optional "width" Toml.asUInt32? none
  some { key := { cellType, parameter }, directive := { write, numeric, width } }

/-- Whether a number is to be written for which no positive width is given. -/
def wantsWidth (entry : ParamEntry) : Bool :=
  entry.directive.write && entry.directive.numeric && !entry.directive.width.any (0 < ·)

/-- The rows of the parameter section. -/
def listOfToml? (value : Toml) : Option (List ParamEntry) := do
  let record ← Record.ofToml? ["params"] value
  record.defaulted "params" (Toml.asList? ofToml?) []

end ParamEntry

namespace Settings

def ofToml? (value : Toml) : Option Settings := do
  let default : Settings := {}
  let record ← Record.ofToml? ["arch", "switchbox", "pack", "bitstream"] value
  let device ← record.defaulted "arch" DeviceSettings.ofToml? default.device
  let box ← record.defaulted "switchbox" BoxSettings.ofToml? default.box
  let stages ← record.defaulted "pack" Stages.ofToml? default.stages
  let parameters ← record.defaulted "bitstream" ParamEntry.listOfToml? default.parameters
  some { device, box, stages, parameters }

/-- The grid that settings describe. -/
def gridSpec (settings : Settings) : GridSpec :=
  { width := settings.device.columns
    height := settings.device.rows
    vertical := settings.box.wires
    horizontal := settings.box.horizontal
    shape := settings.box.shape
    delay := .uniform settings.box.delay }

/-- The first row that repeats a key, also one of those seen before, or that wants a width. -/
def parameterError? (seen : List ParamKey) : List ParamEntry → Option SettingsError
  | [] => none
  | entry :: rest =>
    if seen.contains entry.key then some (.duplicateParameter entry.key)
    else if entry.wantsWidth then some (.missingWidth entry.key)
    else parameterError? (entry.key :: seen) rest

/-- The first thing wrong with settings. -/
def error? (settings : Settings) : Option SettingsError :=
  let k := settings.device.lutInputs
  let delay := settings.box.delay
  if k < 1 ∨ 8 < k then some (.lutInputsOutOfRange k)
  else if settings.device.columns = 0 ∨ settings.device.rows = 0 then some .emptyGrid
  else if settings.box.wires = 0 ∨ settings.box.horizontal = 0 then some .noWires
  else if !delay.isFinite || delay.isNegative then some (.badDelay delay)
  else parameterError? [] settings.parameters

/-- Reads settings and checks them. -/
def parse (text : String) : Except SettingsError Settings :=
  match (Toml.parse? text).bind ofToml? with
  | none => .error .unreadable
  | some settings =>
    match settings.error? with
    | some e => .error e
    | none => .ok settings

end Settings

end TileFabric
