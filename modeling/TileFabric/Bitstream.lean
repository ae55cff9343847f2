import TileFabric.Diagnostic

/-!
# Bitstream parameters

A bitstream writer treats each parameter of a cell type by a directive: it leaves the parameter
out, writes it as a flag, or writes it as a binary number of some width. A `ParamTable` holds the
directives in order of cell type and parameter.
-/

set_option autoImplicit false

namespace TileFabric

structure ParamKey where
  cellType : String
  parameter : String
  deriving DecidableEq, Repr, Inhabited

namespace ParamKey

/-- The key as messages name it. -/
def text (key : ParamKey) : String := key.cellType ++ "." ++ key.parameter

instance : Ord ParamKey := ⟨compareLex (compareOn cellType) (compareOn parameter)⟩

instance : Std.TransOrd ParamKey :=
  inferInstanceAs (Std.TransCmp (compareLex (compareOn cellType) (compareOn parameter)))

instance : Std.LawfulEqOrd ParamKey where
  eq_of_compare {a b} h := by
    obtain ⟨hType, hParameter⟩ := compareLex_eq_eq.1 h
    have sameType : a.cellType = b.cellType := Std.LawfulEqOrd.eq_of_compare hType
    have sameParameter : a.parameter = b.parameter := Std.LawfulEqOrd.eq_of_compare hParameter
    cases a
    cases b
    simp_all

end ParamKey

/-- How a parameter is written: not at all, as a flag, or as a number of `width` bits. -/
structure Directive where
  write : Bool
  numeric : Bool
  width : Option UInt32
  deriving DecidableEq, Repr, Inhabited

namespace Directive

def skip : Directive := ⟨false, false, none⟩

def number (width : UInt32) : Directive := ⟨true, true, some width⟩

/-- Whether a number is to be written and its width is absent or zero. -/
def lacksWidth (d : Directive) : Bool := d.write && d.numeric && d.width.getD 0 == 0

def text (d : Directive) : String :=
  if !d.write then "skip"
  else if !d.numeric then "flag"
  else match d.width with
    | some width => s!"numeric[{width}]"
    | none => "numeric"

end Directive

/-- One row of the parameter section of a configuration. -/
structure ParamEntry where
  key : ParamKey
  directive : Directive
  deriving DecidableEq, Repr, Inhabited

inductive ParamError where
  | duplicate (key : ParamKey)
  | missingWidth (key : ParamKey)
  deriving DecidableEq, Repr

namespace ParamError

def key : ParamError → ParamKey
  | duplicate key | missingWidth key => key

def message : ParamError → String
  | duplicate key => s!"parameter {key.text} listed more than once"
  | missingWidth key => s!"numeric parameter {key.text} needs a width greater than zero"

def number : ParamError → UInt16
  | duplicate _ => 101
  | missingWidth _ => 102

def diagnostic (e : ParamError) : Diagnostic :=
  (Diagnostic.error .bitstream e.number e.message).about e.key.text

end ParamError

abbrev ParamTable := Std.ExtTreeMap ParamKey Directive

namespace ParamTable

/-- The rows for lookup tables with `k` inputs when nothing is configured. -/
def stockRows (k : UInt32) : List (ParamKey × Directive) :=
  [(⟨"BORCA_SLICE", "K"⟩, .skip),
    (⟨"BORCA_SLICE", "INIT"⟩, .number (1 <<< k)),
    (⟨"BORCA_SLICE", "FF_USED"⟩, .number 1),
    (⟨"BORCA_IOB", "INPUT_USED"⟩, .number 1),
    (⟨"BORCA_IOB", "OUTPUT_USED"⟩, .number 1),
    (⟨"BORCA_IOB", "ENABLE_USED"⟩, .number 1)]

def stock (k : UInt32) : ParamTable := Std.ExtTreeMap.ofList (stockRows k)

/-- Adds one row; a number without a width is refused before a repeated key. -/
def addEntry (table : ParamTable) (entry : ParamEntry) : Except ParamError ParamTable :=
  if entry.directive.lacksWidth then .error (.missingWidth entry.key)
  else if table.contains entry.key then .error (.duplicate entry.key)
  else .ok (table.insert entry.key entry.directive)

def ofEntries (entries : List ParamEntry) : Except ParamError ParamTable :=
  entries.foldlM addEntry ∅

/-- The configured table, or the stock table if no row is configured. -/
def configured (k : UInt32) (entries : List ParamEntry) : Except ParamError ParamTable :=
  if entries.isEmpty then .ok (stock k) else ofEntries entries

end ParamTable

end TileFabric
