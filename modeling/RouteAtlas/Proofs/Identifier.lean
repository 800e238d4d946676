import RouteAtlas.Identifier
import RouteAtlas.Naming

/-!
# Import identifiers are identifiers

Whatever the id, the name made from it is a name: it is not empty, it starts with no
digit, it holds name characters only, and it is no reserved word
(`Identifier.isIdentifier_ofId`). A name has no dash and no character to replace, and
needs no underscore in front, so the ids that stand for themselves are the names
(`Identifier.ofId_eq_self_iff`).

A dot is no word character and no dash, so an id with a dot is put into camel case in two
parts (`Identifier.camelCase_append_dot`). Therefore the ending that marks an entry point
outlives the making of a name: its dots become underscores and its letters stay, whatever
precedes it (`Identifier.ofId_ends`).
-/

set_option autoImplicit false

namespace RouteAtlas.Identifier

/-- A name that can be bound: name characters of which the first is no digit, and no
reserved word. -/
structure IsIdentifier (name : String) : Prop where
  nonempty : name ≠ ""
  start : ∀ c ∈ name.toList.head?, c.isDigit = false
  legal : ∀ c ∈ name.toList, isNameCharacter c = true
  notReserved : name ∉ reservedWords

/-- Names that can all be bound. -/
def AreIdentifiers (names : List String) : Prop := ∀ name ∈ names, IsIdentifier name

/-- What replaces the characters of a text is made of name characters. -/
theorem isNameCharacter_of_mem_legalize {text : List Char} {c : Char}
    (member : c ∈ legalize text) : isNameCharacter c = true := by
  obtain ⟨own, -, rfl⟩ := List.mem_map.1 member
  split
  · assumption
  · decide

/-- No reserved word starts with an underscore. -/
theorem underscore_not_reserved (body : List Char) :
    ∀ word ∈ reservedWords, word.toList ≠ '_' :: body := by
  have heads : ∀ word ∈ reservedWords, word.toList.head? ≠ some '_' := by
    decide
  intro word member same
  apply heads word member
  rw [same]
  rfl

/-- The name made from an id can be bound. -/
theorem isIdentifier_ofId (id : String) : IsIdentifier (ofId id) := by
  unfold ofId ofIdChars
  dsimp only
  have legal : ∀ c ∈ legalize (camelCase id.toList), isNameCharacter c = true :=
    fun c => isNameCharacter_of_mem_legalize
  generalize legalize (camelCase id.toList) = body at legal
  split
  next =>
    refine ⟨?_, ?_, ?_, ?_⟩
    · simp
    · rw [String.toList_ofList, List.head?_cons]
      rintro _ ⟨⟩
      rfl
    · simpa using ⟨by decide, legal⟩
    · intro member
      exact underscore_not_reserved body _ member (String.toList_ofList)
  next free =>
    rw [Bool.or_eq_true, not_or, needsGuard, Bool.or_eq_true, not_or] at free
    obtain ⟨filled, noDigit, notWord⟩ := free
    refine ⟨?_, ?_, ?_, ?_⟩
    · simpa using filled
    · rw [String.toList_ofList]
      intro c isFirst
      simpa [Option.mem_def.1 isFirst] using noDigit
    · simpa using legal
    · intro member
      refine notWord (List.any_eq_true.2 ⟨_, member, ?_⟩)
      simp

/-! ## Names stand for themselves -/

/-- A text without a dash keeps its letters. -/
theorem camelCase_of_no_dash {text : List Char} (noDash : '-' ∉ text) : camelCase text = text := by
  fun_induction camelCase text with
  | case1 => rfl
  | case2 c rest isWord ih => exact absurd List.mem_cons_self noDash
  | case3 c rest noWord ih => exact absurd List.mem_cons_self noDash
  | case4 c rest noPair ih => rw [ih (mt (List.mem_cons_of_mem _) noDash)]

/-- A text of name characters is legal as it is. -/
theorem legalize_of_legal {text : List Char} (legal : ∀ c ∈ text, isNameCharacter c = true) :
    legalize text = text := by
  rw [legalize, List.map_congr_left fun c member => if_pos (legal c member), List.map_id']

/-- An identifier needs no underscore in front. -/
theorem IsIdentifier.needsGuard_eq_false {name : String} (isIdentifier : IsIdentifier name) :
    needsGuard name.toList = false := by
  rw [needsGuard, Bool.or_eq_false_iff]
  constructor
  · rw [Option.any_eq_false]
    exact fun c isFirst => Bool.not_eq_true _ ▸ isIdentifier.start c isFirst
  · refine List.any_eq_false.2 fun word member same => isIdentifier.notReserved ?_
    rwa [← String.toList_inj.1 (eq_of_beq same)]

/-- An identifier is its own name. -/
theorem IsIdentifier.ofId_eq_self {name : String} (isIdentifier : IsIdentifier name) :
    ofId name = name := by
  have noDash : '-' ∉ name.toList := fun member => by cases isIdentifier.legal _ member
  have filled : name.toList.isEmpty = false := by
    simpa using isIdentifier.nonempty
  rw [ofId, ofIdChars]
  simp [camelCase_of_no_dash noDash, legalize_of_legal isIdentifier.legal, filled,
    isIdentifier.needsGuard_eq_false]

/-- The ids that are names already are the names. -/
theorem ofId_eq_self_iff (id : String) : ofId id = id ↔ IsIdentifier id :=
  ⟨fun same => same ▸ isIdentifier_ofId id, IsIdentifier.ofId_eq_self⟩

/-! ## Endings -/

/-- What stands behind a dot is put into camel case on its own. -/
theorem camelCase_append_dot (text rest : List Char) :
    camelCase (text ++ '.' :: rest) = camelCase text ++ '.' :: camelCase rest := by
  have dot : camelCase ('.' :: rest) = '.' :: camelCase rest := by simp [camelCase]
  have noWord : Text.isWordCharacter '.' = false := by decide +kernel
  fun_induction camelCase text with
  | case1 => exact dot
  | case2 c tail isWord ih => simp [camelCase, isWord, ih]
  | case3 c tail isWord ih =>
    rw [List.cons_append] at ih
    simp [camelCase, isWord, ih]
  | case4 c tail noPair ih =>
    by_cases isDash : c = '-'
    · subst isDash
      cases tail with
      | nil => simp [camelCase, noWord, dot]
      | cons d tail => exact absurd rfl (noPair d tail rfl)
    · simp [camelCase, ih, isDash]

/-- What an entry point's ending becomes in a name. -/
theorem ofId_ends {id : String} {front suffix : List Char}
    (isEnding : suffix ∈ entryPointSuffixes) (ends : id.toList = front ++ suffix) :
    ∃ start, (ofId id).toList = start ++ legalize suffix := by
  have dotted : ∀ suffix ∈ entryPointSuffixes, suffix = '.' :: suffix.tail ∧
      camelCase suffix.tail = suffix.tail := by
    decide +kernel
  obtain ⟨isDotted, unchanged⟩ := dotted suffix isEnding
  have body : legalize (camelCase id.toList) = legalize (camelCase front) ++ legalize suffix := by
    rw [ends, isDotted, camelCase_append_dot, unchanged, legalize, List.map_append]
    rfl
  rw [ofId, String.toList_ofList, ofIdChars, body]
  split
  · exact ⟨'_' :: legalize (camelCase front), rfl⟩
  · exact ⟨legalize (camelCase front), rfl⟩

/-! ## Every name can be bound -/

/-- The name made from an id starts with a letter, an underscore or a dollar sign, goes on
with these and digits, and is no reserved word; the name made from it is the same again. If
the id ends like an entry point, so does the name, with underscores for the dots. -/
theorem ofId_usable :
    (∀ id, (∃ first rest, (ofId id).toList = first :: rest ∧
        (first.isAlpha = true ∨ first = '_' ∨ first = '$') ∧
        ∀ c ∈ rest, c.isAlphanum = true ∨ c = '_' ∨ c = '$') ∧
      ofId id ∉ reservedWords ∧ ofId (ofId id) = ofId id) ∧
    ∀ extension ∈ ["js", "jsx", "ts", "tsx"], ∀ id : String,
      (".entrypoint." ++ extension).toList <:+ id.toList →
      ("_entrypoint_" ++ extension).toList <:+ (ofId id).toList := by
  constructor
  · intro id
    have isIdentifier := isIdentifier_ofId id
    refine ⟨?_, isIdentifier.notReserved, isIdentifier.ofId_eq_self⟩
    obtain ⟨first, rest, isName⟩ := List.exists_cons_of_ne_nil
      (mt String.toList_eq_nil_iff.1 isIdentifier.nonempty)
    obtain ⟨-, start, legal, -⟩ := isIdentifier
    rw [isName] at start legal
    rw [List.forall_mem_cons] at legal
    have noDigit : first.isDigit = false := start first rfl
    have legalFirst : first.isAlpha = true ∨ first = '_' ∨ first = '$' := by
      simpa [isNameCharacter, Char.isAlphanum, noDigit, or_assoc] using legal.1
    refine ⟨first, rest, isName, legalFirst, fun c member => ?_⟩
    simpa [isNameCharacter, or_assoc] using legal.2 c member
  · intro extension isExtension id ends
    have endings : ∀ extension ∈ ["js", "jsx", "ts", "tsx"],
        (".entrypoint." ++ extension).toList ∈ entryPointSuffixes ∧
        legalize (".entrypoint." ++ extension).toList = ("_entrypoint_" ++ extension).toList := by
      decide +kernel
    obtain ⟨isEnding, written⟩ := endings extension isExtension
    obtain ⟨front, isId⟩ := ends
    obtain ⟨start, isName⟩ := ofId_ends isEnding isId.symm
    exact ⟨start, by rw [isName, written]⟩

/-- A dash in front of a letter that becomes two capitals, and one in front of the dot. -/
theorem ofId_usable_dashes :
    let id := "-ß/7-.entrypoint.ts"
    ofId id = "SS_7__entrypoint_ts" ∧ ofId (ofId id) = ofId id ∧
      (".entrypoint." ++ "ts").toList <:+ id.toList ∧
      ("_entrypoint_" ++ "ts").toList <:+ (ofId id).toList := by
  intro id
  have ends : (".entrypoint." ++ "ts").toList <:+ id.toList := ⟨"-ß/7-".toList, by decide +kernel⟩
  exact ⟨by decide +kernel, (ofId_usable.1 id).2.2, ends, ofId_usable.2 "ts" (by decide) id ends⟩

end RouteAtlas.Identifier
