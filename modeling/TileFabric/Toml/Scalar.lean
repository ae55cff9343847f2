import TileFabric.Digits
import TileFabric.Toml

/-!
# Strings, numbers and dates of TOML

Readers over the characters that are left: each gives what it read and the rest, or nothing if
the text breaks the grammar.
-/

set_option autoImplicit false

namespace TileFabric.Toml

abbrev Reading (α : Type) := StateT (List Char) Option α

def isBlank (c : Char) : Bool := c == ' ' || c == '\t'

/-- What may stand in a comment or, but for its delimiters, in a string: the tab and no controls. -/
def isPrintable (c : Char) : Bool := c == '\t' || (0x20 ≤ c.toNat && c.toNat != 0x7F)

/-- Behind a line end, if the text begins with one. -/
def lineEnd? : List Char → Option (List Char)
  | '\n' :: rest => some rest
  | '\r' :: '\n' :: rest => some rest
  | _ => none

namespace Reading

def skipBlanks : Reading Unit := modify (·.dropWhile isBlank)

/-- The next character, left in place. -/
def next? : Reading (Option Char) := return (← get).head?

/-- A character that has to come. -/
def expect (c : Char) : Reading Unit := do
  match ← get with
  | d :: rest => if c = d then set rest else failure
  | [] => failure

/-- Takes a character if it comes. -/
def accept (p : Char → Bool) : Reading (Option Char) := do
  match ← get with
  | c :: rest =>
    if p c then
      set rest
      pure (some c)
    else pure none
  | [] => pure none

/-- Takes a word if it comes. -/
def acceptWord (word : List Char) : Reading Bool := do
  let cs ← get
  if word.isPrefixOf cs then
    set (cs.drop word.length)
    pure true
  else pure false

/-- As many digits as asked for. -/
def exactDigits (count : Nat) : Reading Nat := do
  let cs ← get
  let some n := if cs.length < count then none else Digits.toNat? 10 (cs.take count) | failure
  set (cs.drop count)
  pure n

/-- Digits as many as asked for whose number lies between two bounds. -/
def boundedDigits (count least greatest : Nat) : Reading Nat := do
  let n ← exactDigits count
  if least ≤ n ∧ n ≤ greatest then pure n else failure

/-- The character of a one-letter escape. -/
def letterEscape? : Char → Option Char
  | 'b' => some '\x08'
  | 't' => some '\t'
  | 'n' => some '\n'
  | 'f' => some '\x0c'
  | 'r' => some '\r'
  | '"' => some '"'
  | '\\' => some '\\'
  | _ => none

/-- The character with a hexadecimal number; halves of surrogate pairs are none. -/
def numberedChar? (digits : List Char) : Option Char := do
  let n ← Digits.toNat? 16 digits
  if n < 0xD800 ∨ 0xDFFF < n ∧ n ≤ 0x10FFFF then some (Char.ofNat n) else none

/-- Behind three closing quotes one or two more belong to the string. -/
def closeRun (quote : Char) (done : List Char) : List Char → List Char × List Char
  | a :: b :: rest =>
    if a = quote ∧ b = quote then (quote :: quote :: done, rest)
    else if a = quote then (quote :: done, b :: rest)
    else (done, a :: b :: rest)
  | [a] => if a = quote then (quote :: done, []) else (done, [a])
  | [] => (done, [])

/--
The content of a string in double quotes, last first, and what follows the closing quote. In a
string of several lines a line end is one newline however it is written, and a backslash at the
end of a line drops (`trimming`) all blanks and line ends up to the next other character.
-/
def basicBody (multiline : Bool) (trimming : Bool) (done : List Char) :
    List Char → Option (List Char × List Char)
  | [] => none
  | '\\' :: 'u' :: a :: b :: c :: d :: rest =>
    match numberedChar? [a, b, c, d] with
    | some x => basicBody multiline false (x :: done) rest
    | none => none
  | '\\' :: 'U' :: a :: b :: c :: d :: e :: f :: g :: h :: rest =>
    match numberedChar? [a, b, c, d, e, f, g, h] with
    | some x => basicBody multiline false (x :: done) rest
    | none => none
  | '\\' :: c :: rest =>
    match letterEscape? c with
    | some x => basicBody multiline false (x :: done) rest
    | none =>
      if multiline && (lineEnd? ((c :: rest).dropWhile isBlank)).isSome then
        basicBody multiline true done (c :: rest)
      else none
  | '"' :: rest =>
    if !multiline then some (done, rest)
    else match rest with
      | '"' :: '"' :: rest => some (closeRun '"' done rest)
      | rest => basicBody multiline false ('"' :: done) rest
  | '\r' :: '\n' :: rest =>
    if !multiline then none
    else basicBody multiline trimming (if trimming then done else '\n' :: done) rest
  | '\n' :: rest =>
    if !multiline then none
    else basicBody multiline trimming (if trimming then done else '\n' :: done) rest
  | c :: rest =>
    if trimming && isBlank c then basicBody multiline true done rest
    else if isPrintable c then basicBody multiline false (c :: done) rest
    else none

/-- The content of a string in single quotes, last first, and what follows the closing quote. -/
def literalBody (multiline : Bool) (done : List Char) :
    List Char → Option (List Char × List Char)
  | [] => none
  | '\'' :: rest =>
    if !multiline then some (done, rest)
    else match rest with
      | '\'' :: '\'' :: rest => some (closeRun '\'' done rest)
      | rest => literalBody multiline ('\'' :: done) rest
  | '\r' :: '\n' :: rest =>
    if multiline then literalBody multiline ('\n' :: done) rest else none
  | '\n' :: rest =>
    if multiline then literalBody multiline ('\n' :: done) rest else none
  | c :: rest => if isPrintable c then literalBody multiline (c :: done) rest else none

/-- A line end right behind the opening quotes of several lines does not count. -/
def dropLineEnd (cs : List Char) : List Char := (lineEnd? cs).getD cs

def textOf (read : Option (List Char × List Char)) : Option (String × List Char) :=
  read.map fun (reversed, rest) => (String.ofList reversed.reverse, rest)

/-- A string on one line, of either quote. -/
def lineString : Reading String := fun cs =>
  match cs with
  | '"' :: rest => textOf (basicBody false false [] rest)
  | '\'' :: rest => textOf (literalBody false [] rest)
  | _ => none

/-- A string of either quote, on one line or on several. -/
def anyString : Reading String := fun cs =>
  match cs with
  | '"' :: '"' :: '"' :: rest => textOf (basicBody true false [] (dropLineEnd rest))
  | '\'' :: '\'' :: '\'' :: rest => textOf (literalBody true [] (dropLineEnd rest))
  | cs => lineString cs

/-- Digits behind the first ones; one underscore may stand between two digits. -/
def moreDigits (base : Nat) (done : List Char) : List Char → Option (List Char × List Char)
  | '_' :: c :: rest => if Digits.isDigit base c then moreDigits base (c :: done) rest else none
  | ['_'] => none
  | c :: rest =>
    if Digits.isDigit base c then moreDigits base (c :: done) rest
    else some (done.reverse, c :: rest)
  | [] => some (done.reverse, [])

/-- One digit or more. -/
def someDigits (base : Nat) : Reading (List Char) := do
  let some c ← accept (Digits.isDigit base) | failure
  moreDigits base [c]

/-- The digits of a decimal integer: a zero stands alone. -/
def wholeDigits : Reading (List Char) := do
  if ← acceptWord ['0'] then pure ['0'] else someDigits 10

/-- Integers have 64 bits. -/
def asInteger (value : Int) : Reading Toml :=
  if Int64.minValue.toInt ≤ value ∧ value ≤ Int64.maxValue.toInt then pure (.integer value)
  else failure

/-- An exponent, if one comes. -/
def exponent? : Reading (Option Int) := do
  match ← accept fun c => c == 'e' || c == 'E' with
  | none => pure none
  | some _ =>
    let sign ← accept fun c => c == '+' || c == '-'
    let magnitude := (Digits.toNat 10 (← someDigits 10) : Int)
    pure (some (if sign = some '-' then -magnitude else magnitude))

/-- A decimal integer or a number with a fraction or an exponent, behind its sign. -/
def unsignedNumber (negative : Bool) : Reading Toml := do
  let whole ← wholeDigits
  let fraction ← do
    if ← acceptWord ['.'] then
      let digits ← someDigits 10
      pure (some digits)
    else pure none
  let exponent ← exponent?
  if fraction.isNone && exponent.isNone then
    let magnitude := (Digits.toNat 10 whole : Int)
    asInteger (if negative then -magnitude else magnitude)
  else
    let fraction := fraction.getD []
    let value := Binary64.ofDecimal
      ⟨negative, Digits.toNat 10 (whole ++ fraction), exponent.getD 0 - fraction.length⟩
    if value = .infinity false then failure else pure (.float value)

/-- An integer in a base of its own, behind the mark of the base. -/
def basedInteger (base : Nat) : Reading Toml := do
  asInteger (Digits.toNat base (← someDigits base))

/-- Any number; numbers in another base than ten have no sign. -/
def number : Reading Toml := do
  if ← acceptWord ['0', 'x'] then basedInteger 16
  else if ← acceptWord ['0', 'o'] then basedInteger 8
  else if ← acceptWord ['0', 'b'] then basedInteger 2
  else
    let negative := (← accept fun c => c == '+' || c == '-') == some '-'
    if ← acceptWord ['i', 'n', 'f'] then pure (.float (.infinity negative))
    else if ← acceptWord ['n', 'a', 'n'] then pure (.float (.nan negative))
    else unsignedNumber negative

def isLeapYear (year : Nat) : Bool := year % 4 == 0 && (year % 100 != 0 || year % 400 == 0)

def daysInMonth (year month : Nat) : Nat :=
  if month = 2 then (if isLeapYear year then 29 else 28)
  else if [4, 6, 9, 11].contains month then 30
  else 31

def date : Reading Unit := do
  let year ← exactDigits 4
  expect '-'
  let month ← boundedDigits 2 1 12
  expect '-'
  discard (boundedDigits 2 1 (daysInMonth year month))

/-- Hours, minutes and seconds, with a fraction or not; a minute may have a leap second. -/
def timeOfDay : Reading Unit := do
  discard (boundedDigits 2 0 23)
  expect ':'
  discard (boundedDigits 2 0 59)
  expect ':'
  discard (boundedDigits 2 0 60)
  if ← acceptWord ['.'] then
    let some _ ← accept Char.isDigit | failure
    modify (·.dropWhile Char.isDigit)

/-- The distance of a local time from universal time, if it is given. -/
def timeOffset : Reading Unit := do
  match ← accept fun c => c == 'Z' || c == 'z' || c == '+' || c == '-' with
  | some '+' | some '-' =>
    discard (boundedDigits 2 0 23)
    expect ':'
    discard (boundedDigits 2 0 59)
  | _ => pure ()

/-- A time of day behind a date. -/
def timeBehindDate : Reading Unit := do
  let some _ ← accept fun c => c == 'T' || c == 't' || c == ' ' | failure
  timeOfDay
  timeOffset

/-- A date with a time or without, or a time. -/
def dateTime : Reading Toml := do
  let before ← get
  (do date; timeBehindDate <|> pure ()) <|> timeOfDay
  let consumed := before.length - (← get).length
  pure (.dateTime (String.ofList (before.take consumed)))

/-- A word for a truth value. -/
def boolean : Reading Toml := do
  if ← acceptWord ['t', 'r', 'u', 'e'] then pure (.boolean true)
  else if ← acceptWord ['f', 'a', 'l', 's', 'e'] then pure (.boolean false)
  else failure

/-- Any value that holds no others. -/
def scalar : Reading Toml := do
  match ← next? with
  | some '"' | some '\'' => return .string (← anyString)
  | some 't' | some 'f' => boolean
  | _ => dateTime <|> number

end Reading

end TileFabric.Toml
