import TileFabric.Toml.Scalar
import TileFabric.Toml.Table

/-!
# Reading TOML

A document is a sequence of lines: blank ones, headers, and entries, each with a comment behind it
or not. Values and keys may not be deeper than the limit.
-/

set_option autoImplicit false

namespace TileFabric.Toml

namespace Reading

variable {α : Type}

/-- One more than the greatest depth of a value and the greatest number of parts of a key. -/
def depthLimit : Nat := 80

/-- Runs on the characters that are left until none are left or the fuel is used up. -/
def untilEnd (step : Reading α) : Nat → Reading (List α)
  | 0 => return []
  | fuel + 1 => do
    if (← get).isEmpty then pure []
    else
      let first ← step
      let rest ← untilEnd step fuel
      pure (first :: rest)

/-- A comment up to the end of its line, if one comes. -/
def skipComment : Reading Unit := do
  if ← acceptWord ['#'] then modify (·.dropWhile isPrintable)

/-- Blanks, a comment, and the end of the line or of the text. -/
def endLine : Reading Unit := do
  skipBlanks
  skipComment
  match ← get with
  | [] => pure ()
  | cs =>
    let some rest := lineEnd? cs | failure
    set rest

/-- Blanks, comments and line ends inside an array. -/
def skipLines : Nat → Reading Unit
  | 0 => pure ()
  | fuel + 1 => do
    skipBlanks
    skipComment
    match lineEnd? (← get) with
    | some rest =>
      set rest
      skipLines fuel
    | none => pure ()

def isBareKeyChar (c : Char) : Bool := c.isAlphanum || c == '_' || c == '-'

/-- One part of a key: bare, or a string on one line. -/
def keyPart : Reading String := do
  match ← next? with
  | some '"' | some '\'' => lineString
  | _ =>
    let cs ← get
    let part := cs.takeWhile isBareKeyChar
    if part.isEmpty then failure
    else
      set (cs.dropWhile isBareKeyChar)
      pure (String.ofList part)

/-- A key that dots divide into at most as many parts as there is fuel: all but the last, and it. -/
def key : Nat → Reading (List String × String)
  | 0 => failure
  | fuel + 1 => do
    skipBlanks
    let part ← keyPart
    skipBlanks
    if ← acceptWord ['.'] then
      let (path, last) ← key fuel
      pure (part :: path, last)
    else pure ([], part)

/-- A key with its value, which `value` reads. -/
def entry (value : Reading Toml) : Reading Entry := do
  let (path, key) ← key (depthLimit - 1)
  expect '='
  skipBlanks
  let value ← value
  pure { path, key, value }

mutual

/-- A value that may hold others `depth` levels deep. -/
def value (depth : Nat) : Nat → Reading Toml
  | 0 => failure
  | fuel + 1 => do
    match ← next?, depth with
    | some '[', 0 => failure
    | some '\x7b', 0 => failure
    | some '[', inner + 1 =>
      expect '['
      return .array (← items inner fuel)
    | some '\x7b', inner + 1 =>
      expect '\x7b'
      skipBlanks
      let entries ← (if ← acceptWord ['\x7d'] then pure [] else members inner fuel)
      Entry.toTable? entries
    | _, _ => scalar

/-- The items of an array up to its closing bracket. -/
def items (depth : Nat) : Nat → Reading (List Toml)
  | 0 => failure
  | fuel + 1 => do
    skipLines fuel
    if ← acceptWord [']'] then pure []
    else
      let first ← value depth fuel
      skipLines fuel
      if ← acceptWord [','] then
        let rest ← items depth fuel
        pure (first :: rest)
      else
        expect ']'
        pure [first]

/-- The entries of a table between braces, at least one, up to the closing brace. -/
def members (depth : Nat) : Nat → Reading (List Entry)
  | 0 => failure
  | fuel + 1 => do
    let first ← entry (value depth fuel)
    skipBlanks
    if ← acceptWord [','] then
      let rest ← members depth fuel
      pure (first :: rest)
    else
      expect '\x7d'
      pure [first]

end

/-- A header with its end of line, as a section without entries. -/
def header : Reading Section := do
  expect '['
  let repeated ← acceptWord ['[']
  let (path, key) ← key (depthLimit - 1)
  expect ']'
  if repeated then expect ']'
  endLine
  pure { repeated, path, key, entries := [] }

inductive Line where
  | blank
  | header (opened : Section)
  | entry (entry : Entry)

/-- One line up to and with its end; `fuel` bounds its values. -/
def line (fuel : Nat) : Reading Line := do
  skipBlanks
  match ← next? with
  | some '[' => return .header (← header)
  | none | some '#' | some '\n' | some '\r' =>
    endLine
    pure .blank
  | some _ =>
    let entry ← entry (value (depthLimit - 1) fuel)
    endLine
    pure (.entry entry)

/-- The entries before the first header, and the sections. -/
def ofLines (lines : List Line) : List Entry × List Section :=
  lines.foldr
    (fun line (entries, sections) =>
      match line with
      | .blank => (entries, sections)
      | .entry entry => (entry :: entries, sections)
      | .header opened => ([], { opened with entries } :: sections))
    ([], [])

end Reading

/-- A byte order mark may open a text. -/
def dropByteOrderMark : List Char → List Char
  | '\ufeff' :: rest => rest
  | cs => cs

/-- The table of a text that is a TOML document. -/
def parse? (text : String) : Option Toml := do
  let cs := dropByteOrderMark text.toList
  let fuel := 2 * cs.length + 2
  let (lines, _) ← (Reading.untilEnd (Reading.line fuel) fuel).run cs
  let (entries, sections) := Reading.ofLines lines
  ofDocument? entries sections

end TileFabric.Toml
