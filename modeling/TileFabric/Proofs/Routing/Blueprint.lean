import Mathlib.Data.List.Flatten
import Mathlib.Data.List.Nodup
import TileFabric.Proofs.Routing.Refinement

/-!
# Blueprints

A `Blueprint` lists declarations with texts in place of symbols, so that it can be written down
without a recorder, and a recorder has a blueprint of what it holds. A `Sound` recorder, besides
having its indices right, knows every symbol in its declarations: there, what differs by its text
differs by its symbol. A recorder that `Grows` keeps its symbols and its declarations.
-/

set_option autoImplicit false

namespace TileFabric

structure WirePlan where
  name : String
  wireType : String
  x : UInt32
  y : UInt32
  deriving DecidableEq, Repr

structure PipPlan where
  name : String
  pipType : String
  source : String
  target : String
  delay : Delay
  loc : Loc
  deriving DecidableEq, Repr

structure BelPlan where
  name : String
  belType : String
  loc : Loc
  globalBuffer : Bool
  deriving DecidableEq, Repr

structure PinPlan where
  bel : String
  pin : String
  wire : String
  direction : PinDirection
  deriving DecidableEq, Repr

@[ext]
structure Blueprint where
  wires : List WirePlan := []
  pips : List PipPlan := []
  bels : List BelPlan := []
  pins : List PinPlan := []
  deriving DecidableEq, Repr

namespace Blueprint

instance : Append Blueprint where
  append first second :=
    { wires := first.wires ++ second.wires
      pips := first.pips ++ second.pips
      bels := first.bels ++ second.bels
      pins := first.pins ++ second.pins }

section Append

variable (first second third : Blueprint)

@[simp] theorem wires_append : (first ++ second).wires = first.wires ++ second.wires := rfl

@[simp] theorem pips_append : (first ++ second).pips = first.pips ++ second.pips := rfl

@[simp] theorem bels_append : (first ++ second).bels = first.bels ++ second.bels := rfl

@[simp] theorem pins_append : (first ++ second).pins = first.pins ++ second.pins := rfl

theorem append_assoc : first ++ second ++ third = first ++ (second ++ third) := by
  ext1 <;> simp

@[simp] theorem append_empty : first ++ {} = first := by ext1 <;> simp

@[simp] theorem empty_append : ({} : Blueprint) ++ second = second := by ext1 <;> simp

end Append

/-- One blueprint behind the other. -/
def join (parts : List Blueprint) : Blueprint where
  wires := parts.flatMap (·.wires)
  pips := parts.flatMap (·.pips)
  bels := parts.flatMap (·.bels)
  pins := parts.flatMap (·.pins)

theorem join_cons (part : Blueprint) (parts : List Blueprint) :
    join (part :: parts) = part ++ join parts := by
  ext1 <;> simp [join]

/-- Names are unique, a place holds one bel, and a bel has one pin of a name. -/
structure Distinct (b : Blueprint) : Prop where
  wires : (b.wires.map (·.name)).Nodup
  pips : (b.pips.map (·.name)).Nodup
  bels : (b.bels.map (·.name)).Nodup
  places : (b.bels.map (·.loc)).Nodup
  pins : (b.pins.map fun p => (p.bel, p.pin)).Nodup

theorem Distinct.left {first second : Blueprint} (distinct : (first ++ second).Distinct) :
    first.Distinct := by
  obtain ⟨wires, pips, bels, places, pins⟩ := distinct
  simp only [wires_append, pips_append, bels_append, pins_append, List.map_append] at *
  exact ⟨(List.nodup_append.mp wires).1, (List.nodup_append.mp pips).1,
    (List.nodup_append.mp bels).1, (List.nodup_append.mp places).1, (List.nodup_append.mp pins).1⟩

end Blueprint

namespace SymbolTable

/-- The symbol is one of this table. -/
def Knows (table : SymbolTable) (s : Symbol) : Prop := table.text? s = some (table.text s)

theorem knows_of_text? {table : SymbolTable} {s : Symbol} {text : String}
    (there : table.text? s = some text) : table.Knows s := by
  rw [Knows, text_of_text? there, there]

theorem Knows.within {table later : SymbolTable} {s : Symbol} (known : table.Knows s)
    (within : table.Within later) : later.Knows s ∧ later.text s = table.text s :=
  ⟨knows_of_text? (within.reads known), text_of_text? (within.reads known)⟩

/-- Known symbols differ if their texts do. -/
theorem Knows.eq_of_text {table : SymbolTable} {s t : Symbol} (left : table.Knows s)
    (right : table.Knows t) (same : table.text s = table.text t) : s = t := by
  unfold Knows at left right
  rw [same] at left
  exact eq_of_text? left right

section Keys

variable {α : Type} {table : SymbolTable} {items : List α} {key : α → Symbol}

/-- Among known symbols, looking for one is looking for its text. -/
theorem Knows.filter_eq {s : Symbol} (known : table.Knows s)
    (each : ∀ a ∈ items, table.Knows (key a)) :
    items.filter (fun a => key a = s) =
      items.filter fun a => table.text (key a) = table.text s := by
  refine List.filter_congr fun a member => decide_eq_decide.mpr ?_
  exact ⟨congrArg table.text, (each a member).eq_of_text known⟩

theorem nodup_of_texts (texts : (items.map fun a => table.text (key a)).Nodup) :
    (items.map key).Nodup := by
  refine .of_map table.text ?_
  rw [List.map_map]
  exact texts

end Keys

end SymbolTable

namespace Wire

def plan (table : SymbolTable) (w : Wire) : WirePlan :=
  ⟨table.text w.name, table.text w.wireType, w.x, w.y⟩

def Known (table : SymbolTable) (w : Wire) : Prop := table.Knows w.name ∧ table.Knows w.wireType

theorem Known.within {table later : SymbolTable} {w : Wire} (known : w.Known table)
    (within : table.Within later) : w.Known later ∧ w.plan later = w.plan table := by
  obtain ⟨name, nameText⟩ := known.1.within within
  obtain ⟨wireType, typeText⟩ := known.2.within within
  exact ⟨⟨name, wireType⟩, by simp [plan, nameText, typeText]⟩

end Wire

namespace Pip

def plan (table : SymbolTable) (p : Pip) : PipPlan :=
  ⟨table.text p.name, table.text p.pipType, table.text p.source, table.text p.target, p.delay,
    p.loc⟩

def Known (table : SymbolTable) (p : Pip) : Prop :=
  (table.Knows p.name ∧ table.Knows p.pipType) ∧ table.Knows p.source ∧ table.Knows p.target

theorem Known.within {table later : SymbolTable} {p : Pip} (known : p.Known table)
    (within : table.Within later) : p.Known later ∧ p.plan later = p.plan table := by
  obtain ⟨name, nameText⟩ := known.1.1.within within
  obtain ⟨pipType, typeText⟩ := known.1.2.within within
  obtain ⟨source, sourceText⟩ := known.2.1.within within
  obtain ⟨target, targetText⟩ := known.2.2.within within
  exact ⟨⟨⟨name, pipType⟩, source, target⟩,
    by simp [plan, nameText, typeText, sourceText, targetText]⟩

end Pip

namespace Bel

def plan (table : SymbolTable) (b : Bel) : BelPlan :=
  ⟨table.text b.name, table.text b.belType, b.loc, b.globalBuffer⟩

def Known (table : SymbolTable) (b : Bel) : Prop := table.Knows b.name ∧ table.Knows b.belType

theorem Known.within {table later : SymbolTable} {b : Bel} (known : b.Known table)
    (within : table.Within later) : b.Known later ∧ b.plan later = b.plan table := by
  obtain ⟨name, nameText⟩ := known.1.within within
  obtain ⟨belType, typeText⟩ := known.2.within within
  exact ⟨⟨name, belType⟩, by simp [plan, nameText, typeText]⟩

end Bel

namespace BelPin

def plan (table : SymbolTable) (p : BelPin) : PinPlan :=
  ⟨table.text p.bel, table.text p.pin, table.text p.wire, p.direction⟩

def Known (table : SymbolTable) (p : BelPin) : Prop :=
  table.Knows p.bel ∧ table.Knows p.pin ∧ table.Knows p.wire

theorem Known.within {table later : SymbolTable} {p : BelPin} (known : p.Known table)
    (within : table.Within later) : p.Known later ∧ p.plan later = p.plan table := by
  obtain ⟨bel, belText⟩ := known.1.within within
  obtain ⟨pin, pinText⟩ := known.2.1.within within
  obtain ⟨wire, wireText⟩ := known.2.2.within within
  exact ⟨⟨bel, pin, wire⟩, by simp [plan, belText, pinText, wireText]⟩

end BelPin

namespace Recorder

def blueprint (r : Recorder) : Blueprint where
  wires := r.wires.toList.map (·.plan r.symbols)
  pips := r.pips.toList.map (·.plan r.symbols)
  bels := r.bels.toList.map (·.plan r.symbols)
  pins := r.belPins.toList.map (·.plan r.symbols)

/-- The indices are right, and every symbol of a declaration is in the table. -/
structure Sound (r : Recorder) : Prop extends Indexed r where
  knownWires : ∀ w ∈ r.wires.toList, w.Known r.symbols
  knownPips : ∀ p ∈ r.pips.toList, p.Known r.symbols
  knownBels : ∀ b ∈ r.bels.toList, b.Known r.symbols
  knownPins : ∀ p ∈ r.belPins.toList, p.Known r.symbols

theorem sound_empty : Sound empty where
  toIndexed := indexed_empty
  knownWires _ member := by cases member
  knownPips _ member := by cases member
  knownBels _ member := by cases member
  knownPins _ member := by cases member

/-- A later recorder reads symbols alike and has the same declarations in front of its others. -/
structure Grows (r later : Recorder) : Prop where
  symbols : r.symbols.Within later.symbols
  blueprint : ∃ more, later.blueprint = r.blueprint ++ more

theorem Grows.refl (r : Recorder) : r.Grows r := ⟨.refl _, {}, by simp⟩

theorem Grows.trans {first second third : Recorder} (one : first.Grows second)
    (two : second.Grows third) : first.Grows third := by
  obtain ⟨more, grown⟩ := one.blueprint
  obtain ⟨others, grownLater⟩ := two.blueprint
  exact ⟨one.symbols.trans two.symbols, more ++ others,
    by rw [grownLater, grown, Blueprint.append_assoc]⟩

/-- A wire of this name is declared. -/
def HasWireNamed (r : Recorder) (name : String) : Prop := ∃ w ∈ r.blueprint.wires, w.name = name

def HasBelNamed (r : Recorder) (name : String) : Prop := ∃ b ∈ r.blueprint.bels, b.name = name

section Sound

variable {r later : Recorder} {name : String} {s : Symbol}

theorem Grows.hasWireNamed (grows : r.Grows later) (has : r.HasWireNamed name) :
    later.HasWireNamed name := by
  obtain ⟨w, member, named⟩ := has
  obtain ⟨more, grown⟩ := grows.blueprint
  exact ⟨w, by simp [grown, member], named⟩

theorem Grows.hasBelNamed (grows : r.Grows later) (has : r.HasBelNamed name) :
    later.HasBelNamed name := by
  obtain ⟨b, member, named⟩ := has
  obtain ⟨more, grown⟩ := grows.blueprint
  exact ⟨b, by simp [grown, member], named⟩

theorem Sound.hasWire (sound : r.Sound) (read : r.symbols.text? s = some name)
    (has : r.HasWireNamed name) : r.ledger.HasWire s := by
  obtain ⟨plan, member, named⟩ := has
  obtain ⟨w, declared, rfl⟩ := List.mem_map.mp member
  refine ⟨w, declared, ?_⟩
  have text : r.symbols.text s = name := SymbolTable.text_of_text? read
  exact (sound.knownWires w declared).1.eq_of_text (SymbolTable.knows_of_text? read)
    (named.trans text.symm)

theorem Sound.hasBel (sound : r.Sound) (read : r.symbols.text? s = some name)
    (has : r.HasBelNamed name) : ∃ b ∈ r.ledger.bels, b.name = s := by
  obtain ⟨plan, member, named⟩ := has
  obtain ⟨b, declared, rfl⟩ := List.mem_map.mp member
  refine ⟨b, declared, ?_⟩
  have text : r.symbols.text s = name := SymbolTable.text_of_text? read
  exact (sound.knownBels b declared).1.eq_of_text (SymbolTable.knows_of_text? read)
    (named.trans text.symm)

/-- More symbols change nothing about the declarations. -/
theorem Sound.withSymbols (sound : r.Sound) {symbols : SymbolTable}
    (within : r.symbols.Within symbols) :
    Sound { r with symbols } ∧ blueprint { r with symbols } = r.blueprint := by
  constructor
  · exact
      { toIndexed := sound.toIndexed.withSymbols symbols
        knownWires := fun w member => ((sound.knownWires w member).within within).1
        knownPips := fun p member => ((sound.knownPips p member).within within).1
        knownBels := fun b member => ((sound.knownBels b member).within within).1
        knownPins := fun p member => ((sound.knownPins p member).within within).1 }
  · ext1
    · exact List.map_congr_left fun w member => ((sound.knownWires w member).within within).2
    · exact List.map_congr_left fun p member => ((sound.knownPips p member).within within).2
    · exact List.map_congr_left fun b member => ((sound.knownBels b member).within within).2
    · exact List.map_congr_left fun p member => ((sound.knownPins p member).within within).2

end Sound

end Recorder

end TileFabric
