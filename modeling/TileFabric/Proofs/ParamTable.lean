import TileFabric.Settings

/-!
# Parameter tables

Rows of parameters are checked twice: with the settings that hold them, and when the table is built
from them. Both checks walk the rows and stop at the first fault, one with a list of the keys it has
seen and the other with the table it has built so far, and they look for the two faults in opposite
order. Each is characterized on its own against the same description, which does not mention order:
no key is repeated and no number lacks its width. Where several rows are at fault the checks may
name different ones, but they agree on whether there is one.

The table itself is a function of the set of rows, and so of none of their permutations.
-/

set_option autoImplicit false

namespace TileFabric

namespace ParamKey

/-- Keys are ordered by the cell type first. -/
theorem compare_eq_lt_iff (first second : ParamKey) : compare first second = .lt ↔
    first.cellType < second.cellType ∨
      first.cellType = second.cellType ∧ first.parameter < second.parameter := by
  change (compare first.cellType second.cellType).then
    (compare first.parameter second.parameter) = .lt ↔ _
  rw [Ordering.then_eq_lt]
  exact or_congr compareOfLessAndEq_eq_lt
    (and_congr Std.LawfulEqOrd.compare_eq_iff_eq compareOfLessAndEq_eq_lt)

end ParamKey

namespace ParamEntry

/-- Two ways to say that a width is missing. -/
theorem wantsWidth_eq_lacksWidth (entry : ParamEntry) :
    entry.wantsWidth = entry.directive.lacksWidth := by
  unfold wantsWidth Directive.lacksWidth
  cases entry.directive.width with
  | none => rfl
  | some width =>
    by_cases isZero : width = 0 <;> simp [isZero, UInt32.pos_iff_ne_zero]

end ParamEntry

/-- Rows of which a table can be made. -/
structure Tabular (entries : List ParamEntry) : Prop where
  distinct : (entries.map (·.key)).Nodup
  widths : ∀ entry ∈ entries, entry.directive.lacksWidth = false

namespace Tabular

theorem nil : Tabular [] := ⟨List.nodup_nil, by simp⟩

theorem cons_iff {entry : ParamEntry} {entries : List ParamEntry} :
    Tabular (entry :: entries) ↔ entry.directive.lacksWidth = false ∧
      (∀ other ∈ entries, other.key ≠ entry.key) ∧ Tabular entries := by
  constructor
  · rintro ⟨distinct, widths⟩
    obtain ⟨unlisted, distinct⟩ := List.nodup_cons.mp distinct
    obtain ⟨width, widths⟩ := List.forall_mem_cons.mp widths
    exact ⟨width, fun other member same => unlisted (List.mem_map.mpr ⟨other, member, same⟩),
      distinct, widths⟩
  · rintro ⟨width, others, distinct, widths⟩
    refine ⟨List.nodup_cons.mpr ⟨?_, distinct⟩, List.forall_mem_cons.mpr ⟨width, widths⟩⟩
    intro listed
    obtain ⟨other, member, same⟩ := List.mem_map.mp listed
    exact others other member same

theorem perm {entries others : List ParamEntry} (tabular : Tabular entries)
    (same : entries.Perm others) : Tabular others where
  distinct := (same.map _).nodup_iff.mp tabular.distinct
  widths entry member := tabular.widths entry (same.mem_iff.mpr member)

end Tabular

/-- Settings find no fault with rows of which a table can be made, and with no others. -/
theorem Settings.parameterError?_eq_none_iff (seen : List ParamKey) (entries : List ParamEntry) :
    parameterError? seen entries = none ↔
      Tabular entries ∧ ∀ entry ∈ entries, entry.key ∉ seen := by
  induction entries generalizing seen with
  | nil => simp [parameterError?, Tabular.nil]
  | cons entry rest ih =>
    rw [parameterError?, ParamEntry.wantsWidth_eq_lacksWidth, Tabular.cons_iff,
      List.forall_mem_cons]
    split
    · rename_i repeated
      have listed : entry.key ∈ seen := by simpa using repeated
      simp [listed]
    · rename_i unseen
      have unlisted : entry.key ∉ seen := by simpa using unseen
      split
      · rename_i lacks
        simp [lacks]
      · rename_i width
        rw [ih]
        simp only [List.mem_cons, not_or]
        grind

namespace ParamTable

/-- The rows as a table takes them in. -/
def rows (entries : List ParamEntry) : List (ParamKey × Directive) :=
  entries.map fun entry => (entry.key, entry.directive)

theorem addEntry_eq_ok_iff (table : ParamTable) (entry : ParamEntry) (result : ParamTable) :
    table.addEntry entry = .ok result ↔ entry.directive.lacksWidth = false ∧ entry.key ∉ table ∧
      result = table.insert entry.key entry.directive := by
  unfold addEntry
  split
  · rename_i lacks
    simp [lacks]
  · rename_i width
    split
    · rename_i repeated
      have listed : entry.key ∈ table := Std.ExtTreeMap.contains_iff_mem.mp repeated
      simp [listed]
    · rename_i unlisted
      rw [Std.ExtTreeMap.contains_iff_mem] at unlisted
      simp [width, unlisted, eq_comm]

/-- Rows go into a table if a table can be made of them and it holds none of their keys. -/
theorem foldlM_addEntry_eq_ok_iff (entries : List ParamEntry) (table result : ParamTable) :
    entries.foldlM addEntry table = .ok result ↔
      Tabular entries ∧ (∀ entry ∈ entries, entry.key ∉ table) ∧
        result = table.insertMany (rows entries) := by
  induction entries generalizing table with
  | nil =>
    simp [rows, Tabular.nil, pure, Except.pure, eq_comm]
  | cons entry rest ih =>
    have step : (entry :: rest).foldlM addEntry table = .ok result ↔
        ∃ between, table.addEntry entry = .ok between ∧
          rest.foldlM addEntry between = .ok result := by
      rw [List.foldlM_cons]
      cases table.addEntry entry <;> simp [bind, Except.bind]
    have filled : table.insertMany (rows (entry :: rest)) =
        (table.insert entry.key entry.directive).insertMany (rows rest) :=
      Std.ExtTreeMap.insertMany_cons
    have unlisted (key : ParamKey) : key ∉ table.insert entry.key entry.directive ↔
        key ≠ entry.key ∧ key ∉ table := by
      rw [Std.ExtTreeMap.mem_insert, Std.LawfulEqOrd.compare_eq_iff_eq, not_or, ne_comm]
    rw [step, Tabular.cons_iff, List.forall_mem_cons, filled]
    constructor
    · rintro ⟨between, added, run⟩
      obtain ⟨width, fresh, rfl⟩ := (addEntry_eq_ok_iff ..).mp added
      obtain ⟨tabular, others, done⟩ := (ih _).mp run
      have apart := fun other member => (unlisted _).mp (others other member)
      exact ⟨⟨width, fun other member => (apart other member).1, tabular⟩,
        ⟨fresh, fun other member => (apart other member).2⟩, done⟩
    · rintro ⟨⟨width, apart, tabular⟩, ⟨fresh, others⟩, done⟩
      refine ⟨_, (addEntry_eq_ok_iff ..).mpr ⟨width, fresh, rfl⟩, (ih _).mpr ⟨tabular, ?_, done⟩⟩
      exact fun other member => (unlisted _).mpr ⟨apart other member, others other member⟩

/-- A table is built of exactly those rows of which one can be made. -/
theorem ofEntries_eq_ok_iff (entries : List ParamEntry) (table : ParamTable) :
    ofEntries entries = .ok table ↔ Tabular entries ∧ table = .ofList (rows entries) := by
  rw [ofEntries, foldlM_addEntry_eq_ok_iff, Std.ExtTreeMap.ofList_eq_insertMany_empty]
  simp

theorem configured_of_ne_nil {k : UInt32} {entries : List ParamEntry} (nonempty : entries ≠ []) :
    configured k entries = ofEntries entries := by
  unfold configured
  rw [if_neg (by simpa using nonempty)]

/-- A table says of each row what the row says, and nothing else. -/
structure Tabulates (entries : List ParamEntry) (table : ParamTable) : Prop where
  distinct : (entries.map (·.key)).Nodup
  size : table.size = entries.length
  listed : ∀ entry ∈ entries, table[entry.key]? = some entry.directive
  unlisted : ∀ key : ParamKey, (∀ entry ∈ entries, entry.key ≠ key) → table[key]? = none
  ordered : table.toList.Pairwise fun first second =>
    first.1.cellType < second.1.cellType ∨
      first.1.cellType = second.1.cellType ∧ first.1.parameter < second.1.parameter

theorem tabulates_ofList {entries : List ParamEntry} (tabular : Tabular entries) :
    Tabulates entries (.ofList (rows entries)) := by
  have apart : (rows entries).Pairwise fun first second => ¬compare first.1 second.1 = .eq := by
    have distinct := tabular.distinct
    simp only [List.Nodup, rows, List.pairwise_map, Std.LawfulEqOrd.compare_eq_iff_eq]
      at distinct ⊢
    exact distinct
  constructor
  case distinct => exact tabular.distinct
  case size =>
    rw [Std.ExtTreeMap.size_ofList apart, rows, List.length_map]
  case listed =>
    intro entry member
    exact Std.ExtTreeMap.getElem?_ofList_of_mem (k := entry.key) Std.ReflCmp.compare_self apart
      (List.mem_map.mpr ⟨entry, member, rfl⟩)
  case unlisted =>
    intro key others
    apply Std.ExtTreeMap.getElem?_ofList_of_contains_eq_false
    simpa [rows] using others
  case ordered =>
    refine Std.ExtTreeMap.ordered_keys_toList.imp ?_
    exact fun less => (ParamKey.compare_eq_lt_iff ..).mp less

/-- What a table says of a key does not depend on the order of the rows. -/
theorem Tabulates.unique {entries others : List ParamEntry} {table other : ParamTable}
    (tabulates : Tabulates entries table) (tabulatesOther : Tabulates others other)
    (same : entries.Perm others) : table = other := by
  apply Std.ExtTreeMap.ext_getElem?
  intro key
  by_cases listed : ∃ entry ∈ entries, entry.key = key
  · obtain ⟨entry, member, rfl⟩ := listed
    rw [tabulates.listed entry member, tabulatesOther.listed entry (same.mem_iff.mp member)]
  · have absent : ∀ entry ∈ entries, entry.key ≠ key := fun entry member isKey =>
      listed ⟨entry, member, isKey⟩
    rw [tabulates.unlisted key absent, tabulatesOther.unlisted key fun entry member =>
      absent entry (same.mem_iff.mpr member)]

end ParamTable

namespace Settings

/-- The rows are looked at if nothing else is wrong with the settings. -/
theorem error?_eq_or (settings : Settings) : settings.error? =
    ({ settings with parameters := [] }.error?).or (parameterError? [] settings.parameters) := by
  have distribute (c : Prop) [Decidable c] (e : SettingsError) (rest : Option SettingsError) :
      (if c then some e else rest).or (parameterError? [] settings.parameters) =
        if c then some e else rest.or (parameterError? [] settings.parameters) := by
    split <;> rfl
  simp only [error?, distribute, parameterError?, Option.none_or]

theorem error?_eq_none_of_parse {text : String} {settings : Settings}
    (parsed : parse text = .ok settings) : settings.error? = none := by
  unfold parse at parsed
  split at parsed
  · cases parsed
  · split at parsed
    · cases parsed
    · rename_i noError
      cases parsed
      exact noError

theorem tabular_of_error?_eq_none {settings : Settings} (valid : settings.error? = none) :
    Tabular settings.parameters := by
  rw [error?_eq_or, Option.or_eq_none_iff, parameterError?_eq_none_iff] at valid
  exact valid.2.1

/-- Settings find no fault with a list of rows if and only if a table is built of it, so that there
is a table for all settings that are read. A table built of rows says of each key what the one row
with that key says, in order of the keys, and it is the same for every order of the rows. -/
theorem rows_checked_alike :
    (∀ settings : Settings, { settings with parameters := [] }.error? = none →
      (settings.error? = none ↔
        ∃ table, ParamTable.ofEntries settings.parameters = .ok table)) ∧
    (∀ (text : String) (settings : Settings), parse text = .ok settings →
      ∃ table, ParamTable.configured settings.device.lutInputs settings.parameters = .ok table) ∧
    ∀ (k : UInt32) (entries : List ParamEntry) (table : ParamTable), entries ≠ [] →
      ParamTable.configured k entries = .ok table →
        ParamTable.Tabulates entries table ∧
          ∀ others : List ParamEntry, entries.Perm others →
            ParamTable.configured k others = .ok table := by
  refine ⟨?_, ?_, ?_⟩
  · intro settings valid
    rw [error?_eq_or, valid, Option.none_or, parameterError?_eq_none_iff]
    simp [ParamTable.ofEntries_eq_ok_iff]
  · intro text settings parsed
    have tabular := tabular_of_error?_eq_none (error?_eq_none_of_parse parsed)
    unfold ParamTable.configured
    split
    · exact ⟨_, rfl⟩
    · exact ⟨_, (ParamTable.ofEntries_eq_ok_iff ..).mpr ⟨tabular, rfl⟩⟩
  · intro k entries table nonempty built
    rw [ParamTable.configured_of_ne_nil nonempty, ParamTable.ofEntries_eq_ok_iff] at built
    obtain ⟨tabular, rfl⟩ := built
    have tabulates := ParamTable.tabulates_ofList tabular
    refine ⟨tabulates, fun others same => ?_⟩
    have othersNonempty : others ≠ [] := by
      rintro rfl
      exact nonempty same.eq_nil
    rw [ParamTable.configured_of_ne_nil othersNonempty, ParamTable.ofEntries_eq_ok_iff]
    have tabularOthers := tabular.perm same
    exact ⟨tabularOthers, tabulates.unique (ParamTable.tabulates_ofList tabularOthers) same⟩

/-- Two rows out of order, one with a width and one of a parameter that is left out. -/
def twoRows : String :=
  "[[bitstream.params]]\ncell_type = \"B\"\nparameter = \"X\"\nwrite = true\n" ++
    "numeric = true\nwidth = 3\n\n" ++
    "[[bitstream.params]]\ncell_type = \"A\"\nparameter = \"Y\"\nwrite = false\n"

theorem twoRows_checked_alike :
    ∃ settings table, parse twoRows = .ok settings ∧ settings.parameters.length = 2 ∧
      ParamTable.configured 4 settings.parameters = .ok table ∧ table.size = 2 ∧
      ParamTable.configured 4 settings.parameters.reverse = .ok table := by
  have isOk : (parse twoRows).toOption.map (·.parameters.length) = some 2 := by decide +kernel
  obtain ⟨settings, parsed, two⟩ :
      ∃ settings, parse twoRows = .ok settings ∧ settings.parameters.length = 2 := by
    generalize parse twoRows = outcome at isOk
    cases outcome with
    | error e => cases isOk
    | ok settings => exact ⟨settings, rfl, Option.some.inj isOk⟩
  have nonempty : settings.parameters ≠ [] := by
    intro empty
    rw [empty] at two
    cases two
  obtain ⟨table, built⟩ := rows_checked_alike.2.1 twoRows settings parsed
  have builtAny : ParamTable.configured 4 settings.parameters = .ok table := by
    rw [ParamTable.configured_of_ne_nil nonempty] at built ⊢
    exact built
  obtain ⟨tabulates, anyOrder⟩ :=
    rows_checked_alike.2.2 4 settings.parameters table nonempty builtAny
  exact ⟨settings, table, parsed, two, builtAny, tabulates.size.trans two,
    anyOrder _ settings.parameters.reverse_perm.symm⟩

end Settings

end TileFabric
