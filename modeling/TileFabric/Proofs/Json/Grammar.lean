import TileFabric.Proofs.Json.Reading

/-!
# The grammar of what is written

`Spells` derives the texts of a tree: between the parts of an array or of an object there may be
any blanks. The reader takes back every tree from each of its texts, with fuel for no more steps
than the text has characters; and both printers write texts of the tree that they are given.
-/

set_option autoImplicit false

namespace TileFabric.Json

open Reader

/-- What a stretch of text stands for: a value, or what follows an opening bracket. -/
inductive Part where
  | value (tree : Json)
  | items (trees : List Json)
  | members (trees : List (String × Json))

def Blank (cs : List Char) : Prop := ∀ c ∈ cs, isBlank c = true

inductive Spells : Part → List Char → Prop
  | null : Spells (.value .null) ['n', 'u', 'l', 'l']
  | isTrue : Spells (.value (.bool true)) ['t', 'r', 'u', 'e']
  | isFalse : Spells (.value (.bool false)) ['f', 'a', 'l', 's', 'e']
  | integer (z : Int) : Spells (.value (.integer z)) (toString z).toList
  | string (text : String) : Spells (.value (.string text)) (quoted text).toList
  | emptyArray : Spells (.value (.array [])) ['[', ']']
  | array {trees : List Json} {cs : List Char} (spelled : Spells (.items trees) cs) :
      Spells (.value (.array trees)) ('[' :: cs)
  | emptyObject : Spells (.value (.object [])) ['\x7b', '\x7d']
  | object {trees : List (String × Json)} {cs : List Char} (spelled : Spells (.members trees) cs) :
      Spells (.value (.object trees)) ('\x7b' :: cs)
  | lastItem {tree : Json} {gap cs gap' : List Char} (blank : Blank gap)
      (spelled : Spells (.value tree) cs) (blank' : Blank gap') :
      Spells (.items [tree]) (gap ++ (cs ++ (gap' ++ [']'])))
  | item {tree : Json} {trees : List Json} {gap cs others : List Char} (blank : Blank gap)
      (spelled : Spells (.value tree) cs) (rest : Spells (.items trees) others) :
      Spells (.items (tree :: trees)) (gap ++ (cs ++ ',' :: others))
  | lastMember {key : String} {tree : Json} {gap gap' cs gap'' : List Char} (blank : Blank gap)
      (blank' : Blank gap') (spelled : Spells (.value tree) cs) (blank'' : Blank gap'') :
      Spells (.members [(key, tree)])
        (gap ++ ((quoted key).toList ++ ':' :: (gap' ++ (cs ++ (gap'' ++ ['\x7d'])))))
  | member {key : String} {tree : Json} {trees : List (String × Json)}
      {gap gap' cs others : List Char} (blank : Blank gap) (blank' : Blank gap')
      (spelled : Spells (.value tree) cs) (rest : Spells (.members trees) others) :
      Spells (.members ((key, tree) :: trees))
        (gap ++ ((quoted key).toList ++ ':' :: (gap' ++ (cs ++ ',' :: others))))

/-- What reading a stretch of text comes to, with enough fuel and whatever follows it. -/
def Reads : Part → List Char → Prop
  | .value tree, cs => ∀ {fuel : Nat} (rest : List Char), cs.length ≤ fuel → Ends rest →
      Reader.value fuel (cs ++ rest) = some (tree, rest)
  | .items trees, cs => ∀ {fuel : Nat} (rest : List Char) (done : List Json), cs.length ≤ fuel →
      Reader.items fuel done (cs ++ rest) = some (.array (done.reverse ++ trees), rest)
  | .members trees, cs => ∀ {fuel : Nat} (rest : List Char) (done : List (String × Json)),
      cs.length ≤ fuel →
      Reader.members fuel (done.map fun member => (some member.1, member.2)) (cs ++ rest) =
        some (.object (done.reverse ++ trees), rest)

section Blanks

variable {gap rest : List Char}

theorem blank_nil : Blank [] := fun _ member => nomatch member

theorem blank_lineEnd : Blank ['\n'] := by simp [Blank, isBlank]

theorem blank_space : Blank [' '] := by simp [Blank, isBlank]

theorem eq_of_isBlank {c : Char} (blank : isBlank c = true) :
    c = ' ' ∨ c = '\n' ∨ c = '\t' ∨ c = '\r' := by
  simpa [isBlank, or_assoc] using blank

theorem skipBlanks_of_head (solid : ∀ c ∈ rest.head?, isBlank c = false) :
    skipBlanks rest = rest := by
  cases rest with
  | nil => rfl
  | cons c cs => simp [skipBlanks, solid c rfl]

theorem skipBlanks_append (blank : Blank gap) (rest : List Char) :
    skipBlanks (gap ++ rest) = skipBlanks rest :=
  List.dropWhile_append_of_pos blank

theorem skipBlanks_skipBlanks (cs : List Char) : skipBlanks (skipBlanks cs) = skipBlanks cs := by
  induction cs with
  | nil => rfl
  | cons c cs ih =>
    cases blank : isBlank c with
    | true => simpa [skipBlanks, blank] using ih
    | false => simp [skipBlanks, blank]

theorem ends_of_blank (blank : Blank gap) : Ends gap := by
  intro first isFirst
  rcases eq_of_isBlank (blank first (List.mem_of_head? isFirst)) with rfl | rfl | rfl | rfl <;>
    decide

/-- Blanks and what stands behind a value in an array or in an object end a number. -/
theorem ends_append {c : Char} (blank : Blank gap) (closes : c = ',' ∨ c = ']' ∨ c = '\x7d')
    (rest : List Char) : Ends (gap ++ c :: rest) := by
  intro first isFirst
  cases gap with
  | nil =>
    cases isFirst
    rcases closes with rfl | rfl | rfl <;> decide
  | cons b others => exact ends_of_blank blank first (by simpa using isFirst)

end Blanks

theorem toList_quoted (text : String) :
    (quoted text).toList = '"' :: (text.toList.flatMap escaped ++ ['"']) := by
  simp [quoted]

theorem toList_toString_begins (z : Int) :
    ∃ c others, (toString z).toList = c :: others ∧ (c = '-' ∨ c.isDigit = true) := by
  cases z with
  | ofNat n =>
    rw [toList_toString_ofNat]
    cases written : Nat.toDigits 10 n with
    | nil => exact absurd written Nat.toDigits_ne_nil
    | cons c others =>
      exact ⟨c, others, rfl, .inr (isDigit_of_toDigits ((List.append_nil _).trans written))⟩
  | negSucc n => exact ⟨'-', _, toList_toString_negSucc n, .inl rfl⟩

/-- A value begins with what is neither a blank nor the end of an array. -/
theorem Spells.begins {tree : Json} {cs : List Char} (spelled : Spells (.value tree) cs) :
    ∃ c others, cs = c :: others ∧ isBlank c = false ∧ c ≠ ']' := by
  cases spelled with
  | integer z =>
    obtain ⟨c, others, written, first⟩ := toList_toString_begins z
    refine ⟨c, others, written, ?_, ?_⟩
    · rw [Bool.eq_false_iff]
      intro blank
      rcases eq_of_isBlank blank with rfl | rfl | rfl | rfl <;> exact absurd first (by decide)
    · rintro rfl
      exact absurd first (by decide)
  | string text => exact ⟨'"', _, toList_quoted text, by decide, by decide⟩
  | _ => exact ⟨_, _, rfl, by decide, by decide⟩

/-- A literal, a string and a bracket each begin with another character than a number. -/
theorem value_of_number {c : Char} (first : c = '-' ∨ c.isDigit = true) (fuel : Nat)
    (cs : List Char) : Reader.value (fuel + 1) (c :: cs) = number? (c :: cs) := by
  have apart (other : Char) (notDigit : other.isDigit = false) (notMinus : other ≠ '-') :
      c ≠ other := by
    rintro rfl
    rcases first with rfl | digit
    · exact notMinus rfl
    · cases notDigit.symm.trans digit
  unfold Reader.value
  split
  case h_7 => rfl
  all_goals
    rename_i isFirst
    exact absurd (List.cons.inj isFirst).1 (apart _ (by decide) (by decide))

/-- It does not matter whether the blanks in front of an item have been skipped. -/
theorem items_skipBlanks (fuel : Nat) (done : List Json) (cs : List Char) :
    Reader.items fuel done (skipBlanks cs) = Reader.items fuel done cs := by
  cases fuel with
  | zero => rfl
  | succ fuel => rw [Reader.items, Reader.items, skipBlanks_skipBlanks]

theorem members_skipBlanks (fuel : Nat) (done : List (Option String × Json)) (cs : List Char) :
    Reader.members fuel done (skipBlanks cs) = Reader.members fuel done cs := by
  cases fuel with
  | zero => rfl
  | succ fuel => rw [Reader.members, Reader.members, skipBlanks_skipBlanks]

theorem objectOf_some (members : List (String × Json)) :
    objectOf (members.map fun member => (some member.1, member.2)) = .object members.reverse := by
  have keys (others : List (String × Json)) :
      (others.map fun member => (some member.1, member.2)).mapM
        (fun (member : Option String × Json) => member.1.map fun key => (key, member.2)) =
          some others := by
    induction others with
    | nil => rfl
    | cons member rest ih => simp [ih]
  have read := keys members.reverse
  rw [List.map_reverse] at read
  unfold objectOf
  rw [read]

theorem Spells.skipBlanks_append {tree : Json} {cs gap : List Char}
    (spelled : Spells (.value tree) cs) (blank : Blank gap) (rest : List Char) :
    skipBlanks (gap ++ (cs ++ rest)) = cs ++ rest := by
  obtain ⟨c, others, rfl, solid, -⟩ := spelled.begins
  rw [Json.skipBlanks_append blank]
  exact skipBlanks_of_head (by simpa using solid)

theorem skipBlanks_cons {c : Char} (solid : isBlank c = false) {gap : List Char}
    (blank : Blank gap) (rest : List Char) : skipBlanks (gap ++ c :: rest) = c :: rest := by
  rw [skipBlanks_append blank]
  exact skipBlanks_of_head (by simpa using solid)

theorem skipBlanks_comma (rest : List Char) : skipBlanks (',' :: rest) = ',' :: rest :=
  skipBlanks_cons (by decide) blank_nil rest

theorem skipBlanks_colon (rest : List Char) : skipBlanks (':' :: rest) = ':' :: rest :=
  skipBlanks_cons (by decide) blank_nil rest

theorem skipBlanks_quoted {gap : List Char} (blank : Blank gap) (text : String)
    (rest : List Char) :
    skipBlanks (gap ++ ((quoted text).toList ++ rest)) =
      '"' :: (text.toList.flatMap escaped ++ '"' :: rest) := by
  rw [toList_quoted]
  simpa using skipBlanks_cons (show isBlank '"' = false by decide) blank
    (text.toList.flatMap escaped ++ '"' :: rest)

theorem Spells.begins_items {trees : List Json} {cs : List Char}
    (spelled : Spells (.items trees) cs) (rest : List Char) :
    ∃ c others, skipBlanks (cs ++ rest) = c :: others ∧ c ≠ ']' := by
  cases spelled with
  | lastItem blank first | item blank first =>
    obtain ⟨c, others, rfl, -, notEnd⟩ := first.begins
    rw [List.append_assoc, List.append_assoc, first.skipBlanks_append blank]
    exact ⟨c, _, rfl, notEnd⟩

theorem Spells.begins_members {trees : List (String × Json)} {cs : List Char}
    (spelled : Spells (.members trees) cs) (rest : List Char) :
    ∃ others, skipBlanks (cs ++ rest) = '"' :: others := by
  cases spelled with
  | lastMember blank | member blank =>
    rw [List.append_assoc, List.append_assoc, skipBlanks_quoted blank]
    exact ⟨_, rfl⟩

section Steps

variable {tree : Json} {cs gap gap' : List Char} {fuel : Nat}
  (spelled : Spells (.value tree) cs) (reads : Reads (.value tree) cs) (enough : cs.length ≤ fuel)
  (blank : Blank gap)

include spelled reads enough blank

theorem items_last (blank' : Blank gap') (done : List Json) (rest : List Char) :
    Reader.items (fuel + 1) done (gap ++ (cs ++ (gap' ++ ']' :: rest))) =
      some (.array (done.reverse ++ [tree]), rest) := by
  have ends : Ends (gap' ++ ']' :: rest) := ends_append blank' (by decide) rest
  rw [Reader.items, spelled.skipBlanks_append blank, reads _ enough ends]
  simp only [skipBlanks_cons (show isBlank ']' = false by decide) blank', List.reverse_cons]

theorem items_more (done : List Json) (rest : List Char) :
    Reader.items (fuel + 1) done (gap ++ (cs ++ ',' :: rest)) =
      Reader.items fuel (tree :: done) rest := by
  have ends : Ends (',' :: rest) := ends_append blank_nil (by decide) rest
  rw [Reader.items, spelled.skipBlanks_append blank, reads _ enough ends]
  simp only [skipBlanks_comma]

variable {gapKey : List Char} (blankKey : Blank gapKey) (key : String)
  (done : List (Option String × Json)) (rest : List Char)

include blankKey

theorem members_last (blank' : Blank gap') :
    Reader.members (fuel + 1) done
        (gapKey ++ ((quoted key).toList ++ ':' :: (gap ++ (cs ++ (gap' ++ '\x7d' :: rest))))) =
      some (objectOf ((some key, tree) :: done), rest) := by
  have ends : Ends (gap' ++ '\x7d' :: rest) := ends_append blank' (by decide) rest
  rw [Reader.members, skipBlanks_quoted blankKey]
  simp only [stringBody_escaped, skipBlanks_colon, spelled.skipBlanks_append blank,
    reads _ enough ends, skipBlanks_cons (show isBlank '\x7d' = false by decide) blank']

theorem members_more :
    Reader.members (fuel + 1) done
        (gapKey ++ ((quoted key).toList ++ ':' :: (gap ++ (cs ++ ',' :: rest)))) =
      Reader.members fuel ((some key, tree) :: done) rest := by
  have ends : Ends (',' :: rest) := ends_append blank_nil (by decide) rest
  rw [Reader.members, skipBlanks_quoted blankKey]
  simp only [stringBody_escaped, skipBlanks_colon, spelled.skipBlanks_append blank,
    reads _ enough ends, skipBlanks_comma]

end Steps

theorem exists_succ {n fuel : Nat} (enough : n + 1 ≤ fuel) : ∃ less, fuel = less + 1 ∧ n ≤ less :=
  ⟨fuel - 1, by omega, by omega⟩

/-- The reader takes back a tree from each of its texts. -/
theorem Spells.reads {part : Part} {cs : List Char} (spelled : Spells part cs) :
    Reads part cs := by
  -- Each step consumes a character at least, so what fuel is left suffices for what text is left.
  induction spelled with
  | null | isTrue | isFalse | emptyArray | emptyObject =>
    intro fuel rest enough _
    obtain ⟨fuel, rfl, -⟩ := exists_succ enough
    rfl
  | integer z =>
    intro fuel rest enough ends
    have number := number?_toString ends z
    obtain ⟨c, others, written, first⟩ := toList_toString_begins z
    rw [written] at enough number ⊢
    obtain ⟨fuel, rfl, -⟩ := exists_succ enough
    rw [List.cons_append] at number ⊢
    rw [value_of_number first, number]
  | string text =>
    intro fuel rest enough _
    rw [toList_quoted] at enough ⊢
    obtain ⟨fuel, rfl, -⟩ := exists_succ enough
    rw [List.cons_append, List.append_assoc, List.singleton_append, Reader.value,
      stringBody_escaped]
    rfl
  | @array trees cs spelled ih =>
    intro fuel rest enough _
    obtain ⟨fuel, rfl, less⟩ := exists_succ enough
    obtain ⟨c, others, begins, notEnd⟩ := spelled.begins_items rest
    have whole := ih rest [] less
    rw [← items_skipBlanks, begins] at whole
    rw [List.cons_append, Reader.value, begins]
    split
    · rename_i isEnd
      exact absurd (List.cons.inj isEnd).1 notEnd
    · exact whole
  | @object trees cs spelled ih =>
    intro fuel rest enough _
    obtain ⟨fuel, rfl, less⟩ := exists_succ enough
    obtain ⟨others, begins⟩ := spelled.begins_members rest
    have whole := ih rest [] less
    rw [← members_skipBlanks, begins] at whole
    rw [List.cons_append, Reader.value, begins]
    exact whole
  | @lastItem tree gap cs gap' blank spelled blank' ih =>
    intro fuel rest done enough
    have size : cs.length + 1 ≤ fuel := by
      simp only [List.length_append, List.length_cons] at enough
      omega
    obtain ⟨fuel, rfl, less⟩ := exists_succ size
    simpa using items_last spelled ih less blank blank' done rest
  | @item tree trees gap cs others blank spelled more ih ihMore =>
    intro fuel rest done enough
    have size : cs.length + others.length + 1 ≤ fuel := by
      simp only [List.length_append, List.length_cons] at enough
      omega
    obtain ⟨fuel, rfl, less⟩ := exists_succ size
    have lessFirst : cs.length ≤ fuel := by omega
    have lessMore : others.length ≤ fuel := by omega
    have step := items_more spelled ih lessFirst blank done (others ++ rest)
    have whole := ihMore rest (tree :: done) lessMore
    simp only [List.append_assoc, List.cons_append, List.reverse_cons] at step whole ⊢
    rw [step, whole]
    simp
  | @lastMember key tree gap gap' cs gap'' blank blank' spelled blank'' ih =>
    intro fuel rest done enough
    have size : cs.length + 1 ≤ fuel := by
      simp only [List.length_append, List.length_cons] at enough
      omega
    obtain ⟨fuel, rfl, less⟩ := exists_succ size
    have step := members_last spelled ih less blank' blank key
      (done.map fun member => (some member.1, member.2)) rest blank''
    have whole := objectOf_some ((key, tree) :: done)
    rw [List.map_cons] at whole
    rw [whole] at step
    simpa using step
  | @member key tree trees gap gap' cs others blank blank' spelled more ih ihMore =>
    intro fuel rest done enough
    have size : cs.length + others.length + 1 ≤ fuel := by
      simp only [List.length_append, List.length_cons] at enough
      omega
    obtain ⟨fuel, rfl, less⟩ := exists_succ size
    have lessFirst : cs.length ≤ fuel := by omega
    have lessMore : others.length ≤ fuel := by omega
    have step := members_more spelled ih lessFirst blank' blank key
      (done.map fun member => (some member.1, member.2)) (others ++ rest)
    have whole := ihMore rest ((key, tree) :: done) lessMore
    simp only [List.append_assoc, List.cons_append, List.reverse_cons, List.map_cons]
      at step whole ⊢
    rw [step, whole]
    simp

/-- A text of a tree, with blanks around it or not, is read as the tree. -/
theorem parse?_of_spells {tree : Json} {gap cs gap' : List Char} (blank : Blank gap)
    (spelled : Spells (.value tree) cs) (blank' : Blank gap') :
    parse? (String.ofList (gap ++ (cs ++ gap'))) = some tree := by
  have begins := spelled.skipBlanks_append blank gap'
  have enough : cs.length ≤ 2 * (cs ++ gap').length + 2 := by
    rw [List.length_append]
    omega
  have read := spelled.reads gap' enough (ends_of_blank blank')
  have nothingLeft : skipBlanks gap' = [] := by
    simpa [skipBlanks] using skipBlanks_append blank' []
  simp only [parse?, String.toList_ofList, begins, read, nothingLeft, List.isEmpty_nil, if_true]

/-- No decimal is in the tree, and nothing that names no value. -/
inductive Plain : Json → Prop
  | null : Plain .null
  | bool (value : Bool) : Plain (.bool value)
  | integer (value : Int) : Plain (.integer value)
  | string (text : String) : Plain (.string text)
  | array {items : List Json} (plain : ∀ item ∈ items, Plain item) : Plain (.array items)
  | object {members : List (String × Json)} (plain : ∀ member ∈ members, Plain member.2) :
      Plain (.object members)

section Joining

variable {gap gapEnd : List Char} (blank : Blank gap) (blankEnd : Blank gapEnd)
  {write : Json → String}

include blank blankEnd

theorem spells_items {trees : List Json}
    (spelled : ∀ tree ∈ trees, Spells (.value tree) (write tree).toList) (nonempty : trees ≠ []) :
    Spells (.items trees)
      (gap ++ ((',' :: gap).intercalate (trees.map fun tree => (write tree).toList) ++
        (gapEnd ++ [']']))) := by
  induction trees with
  | nil => exact absurd rfl nonempty
  | cons tree others ih =>
    have first := spelled tree List.mem_cons_self
    cases others with
    | nil => simpa using Spells.lastItem blank first blankEnd
    | cons tree' others =>
      have rest := ih (fun tree later => spelled tree (List.mem_cons_of_mem _ later))
        (List.cons_ne_nil _ _)
      simpa [List.intercalate_cons_cons] using Spells.item blank first rest

/-- A member is its key, a colon and its value, with a gap in front of the value. -/
theorem spells_members {gapValue : List Char} (blankValue : Blank gapValue)
    {trees : List (String × Json)}
    (spelled : ∀ member ∈ trees, Spells (.value member.2) (write member.2).toList)
    (nonempty : trees ≠ []) :
    Spells (.members trees)
      (gap ++ ((',' :: gap).intercalate
        (trees.map fun member =>
          (quoted member.1).toList ++ ':' :: (gapValue ++ (write member.2).toList)) ++
        (gapEnd ++ ['\x7d']))) := by
  induction trees with
  | nil => exact absurd rfl nonempty
  | cons member others ih =>
    have first := spelled member List.mem_cons_self
    cases others with
    | nil => simpa using Spells.lastMember blank blankValue first blankEnd
    | cons member' others =>
      have rest := ih (fun member later => spelled member (List.mem_cons_of_mem _ later))
        (List.cons_ne_nil _ _)
      simpa [List.intercalate_cons_cons] using Spells.member blank blankValue first rest

end Joining

theorem compactItems_eq_map (items : List Json) : compactItems items = items.map compact := by
  induction items with
  | nil => rfl
  | cons item rest ih => rw [compactItems, ih, List.map_cons]

theorem compactMembers_eq_map (members : List (String × Json)) :
    compactMembers members =
      members.map fun member => quoted member.1 ++ ":" ++ compact member.2 := by
  induction members with
  | nil => rfl
  | cons member rest ih => rw [compactMembers, ih, List.map_cons]

theorem prettyItems_eq_map (depth : Nat) (items : List Json) :
    prettyItems depth items = items.map (prettyAt depth) := by
  induction items with
  | nil => rfl
  | cons item rest ih => rw [prettyItems, ih, List.map_cons]

theorem prettyMembers_eq_map (depth : Nat) (members : List (String × Json)) :
    prettyMembers depth members =
      members.map fun member => quoted member.1 ++ ": " ++ prettyAt depth member.2 := by
  induction members with
  | nil => rfl
  | cons member rest ih => rw [prettyMembers, ih, List.map_cons]

theorem Plain.spells_compact {tree : Json} (plain : Plain tree) :
    Spells (.value tree) (compact tree).toList := by
  induction plain with
  | null => exact .null
  | bool value => cases value <;> simp [compact, Spells.isTrue, Spells.isFalse]
  | integer value => exact .integer value
  | string text => exact .string text
  | @array items _ ih =>
    cases items with
    | nil => exact .emptyArray
    | cons item others =>
      have spelled := Spells.array (spells_items blank_nil blank_nil ih (List.cons_ne_nil _ _))
      rw [compact, compactItems_eq_map]
      simpa [String.toList_intercalate, Function.comp_def] using spelled
  | @object members _ ih =>
    cases members with
    | nil => exact .emptyObject
    | cons member others =>
      have spelled := Spells.object
        (spells_members blank_nil blank_nil blank_nil ih (List.cons_ne_nil _ _))
      rw [compact, compactMembers_eq_map]
      simpa [String.toList_intercalate, Function.comp_def, -List.map_cons] using spelled

theorem blank_lineBreak (depth : Nat) : Blank ('\n' :: (indentation depth).toList) := by
  intro c member
  rcases List.mem_cons.mp member with rfl | space
  · decide
  · rw [indentation, String.toList_ofList] at space
    rw [List.eq_of_mem_replicate space]
    decide

theorem Plain.spells_prettyAt {tree : Json} (plain : Plain tree) (depth : Nat) :
    Spells (.value tree) (prettyAt depth tree).toList := by
  induction plain generalizing depth with
  | null => simpa [prettyAt, compact] using Spells.null
  | bool value => cases value <;> simp [prettyAt, compact, Spells.isTrue, Spells.isFalse]
  | integer value => exact .integer value
  | string text => exact .string text
  | @array items _ ih =>
    cases items with
    | nil => simpa [prettyAt, prettyItems, bracketed] using Spells.emptyArray
    | cons item others =>
      have inner := fun tree member => ih tree member (depth + 1)
      have spelled := Spells.array (spells_items (blank_lineBreak (depth + 1))
        (blank_lineBreak depth) inner (List.cons_ne_nil _ _))
      rw [prettyAt, prettyItems_eq_map]
      simpa [bracketed, String.toList_intercalate, Function.comp_def] using spelled
  | @object members _ ih =>
    cases members with
    | nil => simpa [prettyAt, prettyMembers, bracketed] using Spells.emptyObject
    | cons member others =>
      have inner := fun tree member => ih tree member (depth + 1)
      have spelled := Spells.object (spells_members (blank_lineBreak (depth + 1))
        (blank_lineBreak depth) blank_space inner (List.cons_ne_nil _ _))
      rw [prettyAt, prettyMembers_eq_map]
      simpa [bracketed, String.toList_intercalate, Function.comp_def, -List.map_cons] using spelled

/-- What is written without blanks is read back, with blanks around it or not. -/
theorem Plain.parse?_compact {tree : Json} (plain : Plain tree) {gap gap' : List Char}
    (blank : Blank gap) (blank' : Blank gap') :
    parse? (String.ofList (gap ++ ((compact tree).toList ++ gap'))) = some tree :=
  parse?_of_spells blank plain.spells_compact blank'

theorem Plain.parse?_pretty {tree : Json} (plain : Plain tree) {gap gap' : List Char}
    (blank : Blank gap) (blank' : Blank gap') :
    parse? (String.ofList (gap ++ ((pretty tree).toList ++ gap'))) = some tree :=
  parse?_of_spells blank (plain.spells_prettyAt 0) blank'

end TileFabric.Json
