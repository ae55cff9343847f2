import Std.Data.ExtTreeMap

/-!
# Maps from names

Cells, nets, ports and parameters are kept under their names. A `NameMap` lists its entries in
code-point order of the names, and two maps with the same entries are equal.
-/

set_option autoImplicit false

namespace TileFabric

abbrev NameMap (α : Type) := Std.ExtTreeMap String α

end TileFabric
