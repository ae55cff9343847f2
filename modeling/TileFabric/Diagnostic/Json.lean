import TileFabric.Diagnostic
import TileFabric.Json.Record

/-!
# Diagnostics as JSON

A place and an object may be `null` or left out; every other field of a diagnostic has to be there.
-/

set_option autoImplicit false

namespace TileFabric

open Json (Record)

namespace Severity

def tag : Severity → String
  | .help => "Help"
  | .note => "Note"
  | .warning => "Warning"
  | .error => "Error"

def ofTag? : String → Option Severity
  | "Help" => some .help
  | "Note" => some .note
  | "Warning" => some .warning
  | "Error" => some .error
  | _ => none

end Severity

namespace Category

def tag : Category → String
  | .arch => "Arch"
  | .pack => "Pack"
  | .bitstream => "Bitstream"
  | .config => "Config"
  | .info => "Info"

def ofTag? : String → Option Category
  | "Arch" => some .arch
  | "Pack" => some .pack
  | "Bitstream" => some .bitstream
  | "Config" => some .config
  | "Info" => some .info
  | _ => none

end Category

namespace Code

def toJson (code : Code) : Json :=
  .object [("category", .string code.category.tag), ("number", Json.ofNat code.number.toNat)]

def ofJson? (value : Json) : Option Code := do
  let record ← Record.ofJson? ["category", "number"] value
  let category ← record.required "category" (Json.asTag? Category.ofTag?)
  let number ← record.required "number" Json.asUInt16?
  some { category, number }

end Code

namespace Loc

def toJson (loc : Loc) : Json :=
  .object
    [("x", Json.ofNat loc.x.toNat), ("y", Json.ofNat loc.y.toNat), ("z", Json.ofNat loc.z.toNat)]

def ofJson? (value : Json) : Option Loc := do
  let record ← Record.ofJson? ["x", "y", "z"] value
  let x ← record.required "x" Json.asUInt32?
  let y ← record.required "y" Json.asUInt32?
  let z ← record.required "z" Json.asUInt32?
  some { x, y, z }

end Loc

namespace Diagnostic

def toJson (d : Diagnostic) : Json :=
  .object
    [("severity", .string d.severity.tag),
      ("code", d.code.toJson),
      ("message", .string d.message),
      ("loc", Json.ofOption Loc.toJson d.loc),
      ("object", Json.ofOption .string d.object),
      ("notes", Json.strings d.notes),
      ("help", Json.strings d.help)]

def ofJson? (value : Json) : Option Diagnostic := do
  let record ← Record.ofJson?
    ["severity", "code", "message", "loc", "object", "notes", "help"] value
  let severity ← record.required "severity" (Json.asTag? Severity.ofTag?)
  let code ← record.required "code" Code.ofJson?
  let message ← record.required "message" Json.asString?
  let loc ← record.optional "loc" Loc.ofJson?
  let object ← record.optional "object" Json.asString?
  let notes ← record.required "notes" (Json.asList? Json.asString?)
  let help ← record.required "help" (Json.asList? Json.asString?)
  some { severity, code, message, loc, object, notes, help }

end Diagnostic

end TileFabric
