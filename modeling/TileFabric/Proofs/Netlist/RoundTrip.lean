import TileFabric.Netlist.Json
import TileFabric.Proofs.Json.Codec

/-!
# Netlists written and read again

Every record of a netlist is taken back from its tree, so a netlist is read as it was written,
whatever its names and values are. Only the number behind made-up names is not written.
-/

set_option autoImplicit false

namespace TileFabric

open Json (Lawful Plain Record)

theorem Property.lawful : Lawful Property.toJson Property.ofJson? where
  plain
    | .int value => .integer value.toInt
    | .bits text => .string text
  inverse
    | .int value => by
      have bounds : -9223372036854775808 ≤ value.toInt ∧ value.toInt ≤ 9223372036854775807 :=
        ⟨value.le_toInt, Int.le_of_lt_add_one value.toInt_lt⟩
      simp [toJson, ofJson?, Json.asInt64?, Json.asIntWithin?, bounds, Int64.ofInt_toInt]
    | .bits text => rfl

/-- A string of digits is not taken for a number. -/
example : Property.ofJson? (Property.bits "12").toJson = some (.bits "12") := rfl

theorem PortDirection.ofTag?_tag (direction : PortDirection) :
    ofTag? direction.tag = some direction := by
  cases direction <;> rfl

theorem Port.lawful : Lawful Port.toJson Port.ofJson? where
  plain port := .object (by
    simpa using ⟨Plain.string _, (Lawful.text.option (by simp)).plain port.net⟩)
  inverse port := by
    have net := (Lawful.text.option (by simp)).inverse port.net
    rw [toJson, ofJson?, Record.ofJson?_object (by rfl) (by decide)]
    simp [Json.asTag?, PortDirection.ofTag?_tag, net]

theorem PortRef.lawful : Lawful PortRef.toJson PortRef.ofJson? where
  plain ref := .object (by simpa using ⟨Plain.string _, Plain.string _⟩)
  inverse ref := by
    rw [toJson, ofJson?, Record.ofJson?_object (by rfl) (by decide)]
    simp [Lawful.text.inverse]

theorem Cell.lawful : Lawful Cell.toJson Cell.ofJson? where
  plain cell := .object (by
    simpa using ⟨Plain.string _, Plain.string _, Port.lawful.nameMap.plain cell.ports,
      Property.lawful.nameMap.plain cell.params, Property.lawful.nameMap.plain cell.attrs⟩)
  inverse cell := by
    rw [toJson, ofJson?, Record.ofJson?_object (by rfl) (by decide)]
    simp [Lawful.text.inverse, Port.lawful.nameMap.inverse, Property.lawful.nameMap.inverse]

theorem Net.lawful : Lawful Net.toJson Net.ofJson? where
  plain net := .object (by
    simpa using ⟨Plain.string _, (PortRef.lawful.option nofun).plain net.driver,
      PortRef.lawful.list.plain net.users⟩)
  inverse net := by
    have driver := (PortRef.lawful.option nofun).inverse net.driver
    have users := PortRef.lawful.list.inverse net.users
    rw [toJson, ofJson?, Record.ofJson?_object (by rfl) (by decide)]
    simp [Lawful.text.inverse, driver, users]

namespace Netlist

variable (netlist : Netlist)

theorem plain_toJson : Plain netlist.toJson :=
  .object (by
    simpa using ⟨Cell.lawful.nameMap.plain netlist.cells, Net.lawful.nameMap.plain netlist.nets,
      Property.lawful.nameMap.plain netlist.settings⟩)

theorem ofJson?_toJson : ofJson? netlist.toJson = some { netlist with nextName := 0 } := by
  rw [toJson, ofJson?, Record.ofJson?_object (by rfl) (by decide)]
  simp [Cell.lawful.nameMap.inverse, Net.lawful.nameMap.inverse, Property.lawful.nameMap.inverse]

theorem ofText?_compact :
    ofText? netlist.toJson.compact = some { netlist with nextName := 0 } := by
  have parsed := netlist.plain_toJson.parse?_compact Json.blank_nil Json.blank_nil
  rw [List.nil_append, List.append_nil, String.ofList_toList] at parsed
  rw [ofText?, parsed, Option.bind_some, ofJson?_toJson]

theorem ofText?_pretty {gap : List Char} (blank : Json.Blank gap) :
    ofText? (netlist.toJson.pretty ++ String.ofList gap) = some { netlist with nextName := 0 } := by
  have parsed := netlist.plain_toJson.parse?_pretty Json.blank_nil blank
  rw [List.nil_append, String.ofList_append, String.ofList_toList] at parsed
  rw [ofText?, parsed, Option.bind_some, ofJson?_toJson]

theorem nextName_of_ofText? {text : String} {loaded : Netlist}
    (loads : ofText? text = some loaded) : loaded.nextName = 0 := by
  simp only [ofText?, ofJson?, Option.bind_eq_bind, Option.bind_eq_some_iff, Option.some.injEq]
    at loads
  obtain ⟨-, -, -, -, -, -, -, -, -, -, rfl⟩ := loads
  rfl

/--
Every netlist is read back from its texts, but for the number behind made-up names; and so
whatever a text is read as stays as it is when it is written and read again.
-/
theorem read_as_written (netlist : Netlist) (text : String) :
    (ofText? netlist.toJson.compact = some { netlist with nextName := 0 } ∧
      ofText? netlist.toJson.pretty = some { netlist with nextName := 0 } ∧
      ofText? (netlist.toJson.pretty ++ "\n") = some { netlist with nextName := 0 }) ∧
    ∀ loaded, ofText? text = some loaded →
      ofText? loaded.toJson.compact = some loaded ∧
        ofText? loaded.toJson.pretty = some loaded ∧
        ofText? (loaded.toJson.pretty ++ "\n") = some loaded := by
  have texts (written : Netlist) :
      ofText? written.toJson.compact = some { written with nextName := 0 } ∧
        ofText? written.toJson.pretty = some { written with nextName := 0 } ∧
        ofText? (written.toJson.pretty ++ "\n") = some { written with nextName := 0 } := by
    have bare := written.ofText?_pretty Json.blank_nil
    rw [String.ofList_nil, String.append_empty] at bare
    exact ⟨written.ofText?_compact, bare, written.ofText?_pretty Json.blank_lineEnd⟩
  refine ⟨texts netlist, fun loaded loads => ?_⟩
  have unchanged : { loaded with nextName := 0 } = loaded := by
    rw [← nextName_of_ofText? loads]
  have again := texts loaded
  rwa [unchanged] at again

/-- A cell given by position, with the fields at its end left off. -/
def positionalText : String :=
  "\x7b\"cells\":\x7b\"a\":[\"a\",\"LUT4\",\x7b\"O\":\x7b\"direction\":\"output\"\x7d\x7d]\x7d\x7d"

theorem positional_read_as_written :
    ∃ loaded, ofText? positionalText = some loaded ∧
      ofText? (loaded.toJson.pretty ++ "\n") = some loaded := by
  have reads : (ofText? positionalText).isSome = true := by decide +kernel
  obtain ⟨loaded, loads⟩ := Option.isSome_iff_exists.mp reads
  exact ⟨loaded, loads, ((read_as_written loaded positionalText).2 loaded loads).2.2⟩

end Netlist

end TileFabric
