import TileFabric.Loc

/-!
# Diagnostics

Progress and problems are reported as diagnostics: a severity, a code, a message, and whatever
place, object, notes and help go with it. `render` lays one out for a terminal.
-/

set_option autoImplicit false

namespace TileFabric

/-- From the least to the most severe. -/
inductive Severity where
  | help | note | warning | error
  deriving DecidableEq, Repr, Inhabited

namespace Severity

def rank : Severity → Nat
  | .help => 0
  | .note => 1
  | .warning => 2
  | .error => 3

/-- Whether one severity is no graver than another. -/
def atMost (a b : Severity) : Bool := a.rank ≤ b.rank

def isError (s : Severity) : Bool := s == .error

def label : Severity → String
  | .help => "help"
  | .note => "note"
  | .warning => "warning"
  | .error => "error"

/-- The terminal color of a severity, as a character attribute. -/
def color : Severity → String
  | .help => "32"
  | .note => "36"
  | .warning => "33"
  | .error => "31"

end Severity

/-- What a diagnostic is about. -/
inductive Category where
  | arch | pack | bitstream | config | info
  deriving DecidableEq, Repr, Inhabited

def Category.letter : Category → Char
  | .arch => 'A'
  | .pack => 'P'
  | .bitstream => 'B'
  | .config => 'C'
  | .info => 'I'

structure Code where
  category : Category
  number : UInt16
  deriving DecidableEq, Repr, Inhabited

/-- The category's letter and the number, filled up to three digits: `A101`, `I001`. -/
def Code.text (code : Code) : String :=
  let digits := Nat.toDigits 10 code.number.toNat
  String.ofList (code.category.letter :: List.replicate (3 - digits.length) '0' ++ digits)

structure Diagnostic where
  severity : Severity
  code : Code
  message : String
  loc : Option Loc := none
  object : Option String := none
  notes : List String := []
  help : List String := []
  deriving DecidableEq, Repr, Inhabited

namespace Diagnostic

def error (category : Category) (number : UInt16) (message : String) : Diagnostic :=
  { severity := .error, code := ⟨category, number⟩, message }

def warning (category : Category) (number : UInt16) (message : String) : Diagnostic :=
  { severity := .warning, code := ⟨category, number⟩, message }

def note (category : Category) (number : UInt16) (message : String) : Diagnostic :=
  { severity := .note, code := ⟨category, number⟩, message }

/-- The same diagnostic about a place in the grid. -/
def located (d : Diagnostic) (loc : Loc) : Diagnostic := { d with loc := some loc }

/-- The same diagnostic about a named cell, net, wire or pip. -/
def about (d : Diagnostic) (object : String) : Diagnostic := { d with object := some object }

def withNote (d : Diagnostic) (note : String) : Diagnostic := { d with notes := d.notes ++ [note] }

def withHelp (d : Diagnostic) (help : String) : Diagnostic := { d with help := d.help ++ [help] }

/-- What the arrow line under the message points at. -/
def subject? (d : Diagnostic) : Option String :=
  match d.loc, d.object with
  | some loc, some object => some s!"{loc} ({object})"
  | some loc, none => some (toString loc)
  | none, some object => some object
  | none, none => none

def severityText (colored : Bool) (s : Severity) : String :=
  if colored then "\x1b[1;" ++ s.color ++ "m" ++ s.label ++ "\x1b[0m" else s.label

/-- The lines shown for a diagnostic, each with its line end. -/
def render (colored : Bool) (d : Diagnostic) : String :=
  let head := severityText colored d.severity ++ "[" ++ d.code.text ++ "]: " ++ d.message ++ "\n"
  let subject := match d.subject? with
    | some text => "  --> " ++ text ++ "\n"
    | none => ""
  let notes := d.notes.map fun note => "   = note: " ++ note ++ "\n"
  let help := d.help.map fun help => "   = help: " ++ help ++ "\n"
  head ++ subject ++ String.join notes ++ String.join help

end Diagnostic

end TileFabric
