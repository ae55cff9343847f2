/-!
# Columns of text

A text is filled up with blanks to the width of its column; a longer text stays as it is.
-/

set_option autoImplicit false

namespace TileFabric.CommandLine

def blanks (count : Nat) : String := String.ofList (List.replicate count ' ')

def padRight (width : Nat) (text : String) : String := text ++ blanks (width - text.length)

def padLeft (width : Nat) (text : String) : String := blanks (width - text.length) ++ text

end TileFabric.CommandLine
