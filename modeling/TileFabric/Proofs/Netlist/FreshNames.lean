import Mathlib.Data.List.Nodup
import Mathlib.Data.List.Perm.Subperm
import TileFabric.Proofs.Netlist.Editing
import TileFabric.Proofs.Numerals

/-!
# Made-up names

Numbers are tried upwards from a counter that is never set back. The search needs no bound: of as
many numbers as there are cells and one more, one is free. A made-up name shows its number, so names
differ by their numbers, whatever has become of the cells in between.
-/

set_option autoImplicit false

namespace TileFabric.Netlist

theorem toList_madeUpName (cellType : String) (n : Nat) : (madeUpName cellType n).toList =
    "$borca_".toList ++ cellType.toList ++ ['_'] ++ Nat.toDigits 10 n := by
  simp [madeUpName, toString]

/-- The number of a made-up name stands behind its last underscore, even if the type has some. -/
theorem madeUpName_inj {cellType other : String} {m n : Nat}
    (same : madeUpName cellType m = madeUpName other n) : cellType = other ∧ m = n := by
  have ends (front : List Char) : ∀ c ∈ (front ++ ['_']).getLast?, c.isDigit = false := by
    intro c last
    rw [List.getLast?_concat] at last
    cases last
    rfl
  have lists := congrArg String.toList same
  rw [toList_madeUpName, toList_madeUpName] at lists
  obtain ⟨fronts, numbers⟩ := append_number_inj (ends _) (ends _) lists
  exact ⟨by simpa [String.toList_inj] using fronts, numbers⟩

/-- The search for a number that is not taken, from one number upwards and without a bound. -/
inductive Search (taken : Nat → Bool) : Nat → Nat → Prop
  | found {n : Nat} (free : taken n = false) : Search taken n n
  | next {n m : Nat} (occupied : taken n = true) (rest : Search taken (n + 1) m) : Search taken n m

section Search

variable {taken : Nat → Bool} {n m : Nat}

theorem Search.free (search : Search taken n m) : taken m = false := by
  induction search with
  | found free => exact free
  | next _ _ ih => exact ih

theorem Search.le (search : Search taken n m) : n ≤ m := by
  induction search with
  | found => exact Nat.le_refl _
  | next _ _ ih => omega

/-- As many tries as reach a free number are enough. -/
theorem search_firstFree {tries : Nat} (free : ∃ k, taken (n + k) = false ∧ k ≤ tries) :
    Search taken n (firstFree taken tries n) := by
  induction tries generalizing n with
  | zero =>
    obtain ⟨k, free, none⟩ := free
    cases Nat.le_zero.mp none
    exact .found free
  | succ tries ih =>
    rw [firstFree]
    split
    · rename_i occupied
      refine .next occupied (ih ?_)
      obtain ⟨k, free, within⟩ := free
      cases k with
      | zero => cases occupied.symm.trans free
      | succ k => exact ⟨k, by rwa [Nat.add_assoc, Nat.add_comm 1], by omega⟩
    · rename_i free
      exact .found (by simpa using free)

theorem firstFree_le (taken : Nat → Bool) (tries n : Nat) :
    firstFree taken tries n ≤ n + tries := by
  induction tries generalizing n with
  | zero => exact Nat.le_refl n
  | succ tries ih =>
    have later := ih (n + 1)
    rw [firstFree]
    split <;> omega

end Search

/-- Whether a cell has the made-up name of a number. -/
def takes (cellType : String) (netlist : Netlist) (n : Nat) : Bool :=
  netlist.cells.contains (madeUpName cellType n)

/-- One more number than there are cells cannot all be taken. -/
theorem exists_free (cellType : String) (netlist : Netlist) (n : Nat) :
    ∃ k, netlist.takes cellType (n + k) = false ∧ k ≤ netlist.cells.size := by
  apply Classical.byContradiction
  intro none
  have taken : ∀ k ≤ netlist.cells.size, netlist.takes cellType (n + k) = true := by
    intro k small
    cases known : netlist.takes cellType (n + k) with
    | true => rfl
    | false => exact absurd ⟨k, known, small⟩ none
  let names := (List.range (netlist.cells.size + 1)).map fun k => madeUpName cellType (n + k)
  have nodup : names.Nodup := by
    refine List.Nodup.map (fun j k same => ?_) List.nodup_range
    have numbers := (madeUpName_inj same).2
    omega
  have within : names ⊆ netlist.cells.keys := by
    intro name member
    obtain ⟨k, small, rfl⟩ := List.mem_map.mp member
    rw [Std.ExtTreeMap.mem_keys, ← Std.ExtTreeMap.contains_iff_mem]
    exact taken k (Nat.lt_succ_iff.mp (List.mem_range.mp small))
  have count := (List.subperm_of_subset nodup within).length_le
  rw [Std.ExtTreeMap.length_keys] at count
  simp only [names, List.length_map, List.length_range] at count
  omega

/-- The name is that of the first number that is free, and the counter goes behind it. -/
theorem freshCellName_eq (cellType : String) (netlist : Netlist) :
    ∃ n, Search (netlist.takes cellType) netlist.nextName n ∧
      n ≤ netlist.nextName + netlist.cells.size ∧
      netlist.freshCellName cellType =
        (madeUpName cellType n, { netlist with nextName := n + 1 }) :=
  ⟨_, search_firstFree (netlist.exists_free cellType netlist.nextName), firstFree_le .., rfl⟩

/-- What happens to a netlist once it is there. The counter is its own: what is done to cells, nets
and settings by any other way overwrites those three and leaves the counter alone. -/
inductive NamingStep where
  | freshCellName (cellType : String)
  | addCell (cell : Cell)
  | removeCell (name : String)
  | connect (net cell port : String)
  | disconnect (cell port : String)
  | overwrite (cells : NameMap Cell) (nets : NameMap Net) (settings : NameMap Property)

/-- The names that a step gives, at most one, and the netlist that it leaves behind. -/
def NamingStep.apply (netlist : Netlist) : NamingStep → List String × Netlist
  | .freshCellName cellType =>
    let (name, after) := netlist.freshCellName cellType
    ([name], after)
  | .addCell cell => ([], ((Netlist.addCell cell).run netlist).2)
  | .removeCell name => ([], (netlist.removeCell name).2)
  | .connect net cell port => ([], ((Netlist.connect net cell port).run netlist).2)
  | .disconnect cell port => ([], netlist.disconnect cell port)
  | .overwrite cells nets settings => ([], { netlist with cells, nets, settings })

/-- All names that a sequence of steps gives. -/
def namesGiven (netlist : Netlist) : List NamingStep → List String
  | [] => []
  | step :: rest => (step.apply netlist).1 ++ (step.apply netlist).2.namesGiven rest

theorem nextName_addCell (cell : Cell) (netlist : Netlist) :
    ((addCell cell).run netlist).2.nextName = netlist.nextName := by
  by_cases taken : cell.name ∈ netlist.cells
  · rw [run_addCell_of_taken taken]
  · rw [run_addCell taken]

theorem nextName_connect (net cell port : String) (netlist : Netlist) :
    ((connect net cell port).run netlist).2.nextName = netlist.nextName := by
  rcases connect_cases net cell port netlist with ⟨-, e, failed⟩ | ⟨p, -, -, -, done⟩
  · rw [failed]
  · rw [done]
    rfl

theorem nextName_removeCell (name : String) (netlist : Netlist) :
    (netlist.removeCell name).2.nextName = netlist.nextName := by
  rw [removeCell_eq]
  rfl

/-- A step gives no name and leaves the counter alone, or the counter goes behind the number of the
name that it gives. -/
theorem NamingStep.apply_cases (netlist : Netlist) (step : NamingStep) :
    (step.apply netlist).1 = [] ∧ (step.apply netlist).2.nextName = netlist.nextName ∨
      ∃ cellType n, (step.apply netlist).1 = [madeUpName cellType n] ∧ netlist.nextName ≤ n ∧
        (step.apply netlist).2.nextName = n + 1 := by
  cases step with
  | freshCellName cellType =>
    obtain ⟨n, search, -, given⟩ := freshCellName_eq cellType netlist
    exact .inr ⟨cellType, n, by simp [apply, given], search.le, by simp [apply, given]⟩
  | addCell cell => exact .inl ⟨rfl, nextName_addCell cell netlist⟩
  | removeCell name => exact .inl ⟨rfl, nextName_removeCell name netlist⟩
  | connect net cell port => exact .inl ⟨rfl, nextName_connect net cell port netlist⟩
  | disconnect cell port => exact .inl ⟨rfl, (disconnect_frame netlist cell port).2.2⟩
  | overwrite cells nets settings => exact .inl ⟨rfl, rfl⟩

/-- No name is given whose number lies below the counter. -/
theorem number_of_mem_namesGiven {netlist : Netlist} {steps : List NamingStep} {name : String}
    (member : name ∈ netlist.namesGiven steps) :
    ∃ cellType n, name = madeUpName cellType n ∧ netlist.nextName ≤ n := by
  induction steps generalizing netlist with
  | nil => cases member
  | cons step rest ih =>
    rcases step.apply_cases netlist with ⟨none, kept⟩ | ⟨cellType, n, one, above, behind⟩
    · rw [namesGiven, none, List.nil_append] at member
      rw [← kept]
      exact ih member
    · rw [namesGiven, one, List.singleton_append] at member
      cases member with
      | head => exact ⟨cellType, n, rfl, above⟩
      | tail _ later =>
        obtain ⟨laterType, m, rfl, higher⟩ := ih later
        exact ⟨laterType, m, rfl, by omega⟩

theorem nodup_namesGiven (netlist : Netlist) (steps : List NamingStep) :
    (netlist.namesGiven steps).Nodup := by
  induction steps generalizing netlist with
  | nil => exact List.nodup_nil
  | cons step rest ih =>
    rcases step.apply_cases netlist with ⟨none, -⟩ | ⟨cellType, n, one, -, behind⟩
    · rw [namesGiven, none, List.nil_append]
      exact ih _
    · rw [namesGiven, one, List.singleton_append, List.nodup_cons]
      refine ⟨fun again => ?_, ih _⟩
      obtain ⟨laterType, m, same, higher⟩ := number_of_mem_namesGiven again
      have numbers := (madeUpName_inj same).2
      omega

/--
For cells of any type a search without a bound ends, within one try more than there are cells, and
the name of the number that it finds is given, which no cell has. Names given at different times
differ, whatever types they are for and whatever happens to the netlist in between.
-/
theorem fresh_names_differ (netlist : Netlist) :
    (∀ cellType, ∃ n, Search (netlist.takes cellType) netlist.nextName n ∧
      n ≤ netlist.nextName + netlist.cells.size ∧
      netlist.freshCellName cellType =
        (madeUpName cellType n, { netlist with nextName := n + 1 }) ∧
      madeUpName cellType n ∉ netlist.cells) ∧
    ∀ steps, (netlist.namesGiven steps).Nodup := by
  refine ⟨fun cellType => ?_, netlist.nodup_namesGiven⟩
  obtain ⟨n, search, within, given⟩ := freshCellName_eq cellType netlist
  refine ⟨n, search, within, given, fun taken => ?_⟩
  have free : netlist.cells.contains (madeUpName cellType n) = false := search.free
  rw [Std.ExtTreeMap.contains_iff_mem.mpr taken] at free
  cases free

/-- One type begins with the other, and the first name is never taken into the netlist. -/
example : empty.namesGiven [.freshCellName "A", .freshCellName "A_0", .freshCellName "A"] =
    ["$borca_A_0", "$borca_A_0_1", "$borca_A_2"] := by decide +kernel

end TileFabric.Netlist
