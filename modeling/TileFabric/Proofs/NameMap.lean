import TileFabric.NameMap

/-!
# Lookups in maps

The effect of an update on every lookup, with keys compared by equality, and for maps from names
the list of values as what the lookups find.
-/

set_option autoImplicit false

namespace TileFabric

section Lookups

variable {κ α : Type} [Ord κ] [Std.TransOrd κ] [Std.LawfulEqOrd κ] [DecidableEq κ]

theorem lookup_insert_key (map : Std.ExtTreeMap κ α) (key query : κ) (value : α) :
    (map.insert key value)[query]? = if key = query then some value else map[query]? := by
  simp [Std.ExtTreeMap.getElem?_insert]

theorem lookup_modify_key (map : Std.ExtTreeMap κ α) (key query : κ) (f : α → α) :
    (map.modify key f)[query]? = if key = query then map[query]?.map f else map[query]? := by
  rw [Std.ExtTreeMap.getElem?_modify]
  by_cases same : key = query
  · subst same
    simp
  · simp [same]

end Lookups

end TileFabric

namespace TileFabric.NameMap

variable {α : Type}

theorem lookup_insert (map : NameMap α) (key name : String) (value : α) :
    (map.insert key value)[name]? = if key = name then some value else map[name]? :=
  lookup_insert_key ..

theorem lookup_erase (map : NameMap α) (key name : String) :
    (map.erase key)[name]? = if key = name then none else map[name]? := by
  simp [Std.ExtTreeMap.getElem?_erase]

theorem lookup_erase_all (names : List String) (map : NameMap α) (name : String) :
    (names.foldl (fun map name => map.erase name) map)[name]? =
      if name ∈ names then none else map[name]? := by
  induction names generalizing map with
  | nil => simp
  | cons key rest ih =>
    rw [List.foldl_cons, ih, lookup_erase]
    grind

theorem lookup_modify (map : NameMap α) (key name : String) (f : α → α) :
    (map.modify key f)[name]? = if key = name then map[name]?.map f else map[name]? :=
  lookup_modify_key ..

theorem modify_modify (map : NameMap α) (key : String) (first second : α → α) :
    (map.modify key first).modify key second =
      map.modify key fun value => second (first value) := by
  apply Std.ExtTreeMap.ext_getElem?
  intro name
  simp only [lookup_modify]
  split <;> simp [Option.map_map, Function.comp_def]

theorem modify_insert (map : NameMap α) (key : String) (value : α) (f : α → α) :
    (map.insert key value).modify key f = map.insert key (f value) := by
  apply Std.ExtTreeMap.ext_getElem?
  intro name
  simp only [lookup_modify, lookup_insert]
  split <;> simp

/-- An update that the value of the key does not notice. -/
theorem modify_eq_self {map : NameMap α} {key : String} {f : α → α}
    (fixed : ∀ value, map[key]? = some value → f value = value) : map.modify key f = map := by
  apply Std.ExtTreeMap.ext_getElem?
  intro name
  rw [lookup_modify]
  by_cases same : key = name
  · subst same
    rw [if_pos rfl]
    cases there : map[key]? with
    | none => rfl
    | some value => rw [Option.map_some, fixed value there]
  · rw [if_neg same]

theorem lookup_insertMany {entries : List (String × α)} (distinct : (entries.map (·.1)).Nodup)
    {key : String} {value : α} (member : (key, value) ∈ entries) (map : NameMap α) :
    (map.insertMany entries)[key]? = some value := by
  apply Std.ExtTreeMap.getElem?_insertMany_list_of_mem (k := key) (by simp) _ member
  simpa [List.Nodup, List.pairwise_map] using distinct

theorem lookup_insertMany_of_not_mem {entries : List (String × α)} {key : String}
    (absent : key ∉ entries.map (·.1)) (map : NameMap α) :
    (map.insertMany entries)[key]? = map[key]? :=
  Std.ExtTreeMap.getElem?_insertMany_list_of_contains_eq_false (by simpa using absent)

theorem mem_iff_lookup (map : NameMap α) (name : String) :
    name ∈ map ↔ ∃ value, map[name]? = some value := by
  rw [Std.ExtTreeMap.mem_iff_isSome_getElem?, Option.isSome_iff_exists]

theorem not_mem_iff_lookup (map : NameMap α) (name : String) :
    name ∉ map ↔ map[name]? = none := by
  rw [mem_iff_lookup, Option.eq_none_iff_forall_ne_some, not_exists]

theorem values_eq (map : NameMap α) : map.values = map.toList.map (·.2) := by
  have folded : map.values = map.foldr (fun _ value values => value :: values) [] := rfl
  rw [folded, Std.ExtTreeMap.foldr_eq_foldr_toList]
  induction map.toList with
  | nil => rfl
  | cons entry rest ih => simp [ih]

theorem mem_values_iff (map : NameMap α) (value : α) :
    value ∈ map.values ↔ ∃ name : String, map[name]? = some value := by
  simp [values_eq]

theorem mem_keys_iff (map : NameMap α) (name : String) :
    name ∈ map.keys ↔ ∃ value, map[name]? = some value := by
  rw [Std.ExtTreeMap.mem_keys, mem_iff_lookup]

end TileFabric.NameMap
