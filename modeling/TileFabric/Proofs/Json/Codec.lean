import TileFabric.Json.Record
import TileFabric.Proofs.Json.Grammar
import TileFabric.Proofs.NameMap

/-!
# Encoders and their decoders

A lawful encoder gives plain trees, and its decoder takes every value back from its tree; then it
takes it back from the texts of the tree as well. Lists, maps from names and optional values of
lawful encoders are lawful, and a record is read from an object of all its fields.
-/

set_option autoImplicit false

namespace TileFabric

/-- A map holds nothing but the entries that it lists. -/
theorem NameMap.ofList_toList {α : Type} (map : NameMap α) :
    Std.ExtTreeMap.ofList map.toList = map := by
  apply Std.ExtTreeMap.ext_getElem?
  intro key
  cases found : map[key]? with
  | some value =>
    have member : (key, value) ∈ map.toList :=
      Std.ExtTreeMap.mem_toList_iff_getElem?_eq_some.mpr found
    exact Std.ExtTreeMap.getElem?_ofList_of_mem (k := key) (by simp)
      Std.ExtTreeMap.distinct_keys_toList member
  | none =>
    apply Std.ExtTreeMap.getElem?_ofList_of_contains_eq_false
    simpa [Std.ExtTreeMap.contains_eq_isSome_getElem?] using found

namespace Json

variable {α : Type}

structure Lawful (encode : α → Json) (decode : Json → Option α) : Prop where
  plain : ∀ value, Plain (encode value)
  inverse : ∀ value, decode (encode value) = some value

namespace Lawful

theorem text : Lawful Json.string asString? where
  plain := Plain.string
  inverse _ := rfl

variable {encode : α → Json} {decode : Json → Option α} (lawful : Lawful encode decode)

include lawful

theorem option (notNull : ∀ value, encode value ≠ .null) :
    Lawful (ofOption encode) (asOption? decode) where
  plain
    | some value => lawful.plain value
    | none => .null
  inverse
    | none => rfl
    | some value => by
      rw [ofOption, asOption?]
      · rw [lawful.inverse]
        rfl
      · exact notNull value

theorem decode_all (values : List α) : (values.map encode).mapM decode = some values := by
  induction values with
  | nil => rfl
  | cons value rest ih => simp [lawful.inverse, ih]

theorem list : Lawful (fun values => .array (values.map encode)) (asList? decode) where
  plain values := .array fun item among => by
    obtain ⟨value, -, rfl⟩ := List.mem_map.mp among
    exact lawful.plain value
  inverse := lawful.decode_all

theorem decode_entries (entries : List (String × α)) :
    (entries.map fun (key, value) => (key, encode value)).mapM
      (fun (key, value) => (decode value).map fun value => (key, value)) = some entries := by
  induction entries with
  | nil => rfl
  | cons entry rest ih => simp [lawful.inverse, ih]

theorem nameMap : Lawful (ofNameMap encode) (asNameMap? decode) where
  plain map := .object fun member among => by
    obtain ⟨entry, -, rfl⟩ := List.mem_map.mp among
    exact lawful.plain entry.2
  inverse map := by
    rw [ofNameMap, asNameMap?, lawful.decode_entries, Option.bind_eq_bind, Option.bind_some,
      NameMap.ofList_toList]

end Lawful

namespace Record

/-- An object of all the fields of a record, each given once, is read as the record. -/
theorem ofJson?_object {names : List String} {members : List (String × Json)}
    (named : members.map Prod.fst = names) (distinct : names.Nodup) :
    ofJson? names (.object members) = some ⟨false, members⟩ := by
  have known : members.filter (fun (key, _) => names.contains key) = members := by
    rw [List.filter_eq_self, ← named]
    intro member among
    exact List.contains_iff_mem.mpr (List.mem_map_of_mem among)
  simp only [ofJson?, known, named, if_pos distinct]

variable {positional : Bool} {fields : List (String × Json)} {name key : String} {value : Json}
  {decode : Json → Option α}

@[simp]
theorem required_cons :
    required ⟨positional, (key, value) :: fields⟩ name decode =
      if name == key then decode value else required ⟨positional, fields⟩ name decode := by
  cases same : name == key <;> simp only [required, List.lookup_cons, same] <;> rfl

@[simp]
theorem defaulted_cons {default : α} :
    defaulted ⟨positional, (key, value) :: fields⟩ name decode default =
      if name == key then decode value
      else defaulted ⟨positional, fields⟩ name decode default := by
  cases same : name == key <;> simp only [defaulted, List.lookup_cons, same] <;> rfl

end Record

end Json

end TileFabric
