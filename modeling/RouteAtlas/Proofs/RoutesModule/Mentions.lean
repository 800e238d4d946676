import RouteAtlas.Proofs.RoutesModule.JavaScript
import RouteAtlas.Proofs.RoutesModule.Layout

/-!
# The names in the text of a routes module

A reader of the text sees words: runs of name characters that stand in code, not in a string
literal (`JavaScript.words`). A word behind `import` or `const` declares a name; of the
others, each that is no reserved word uses one (`JavaScript.mentions`). Between the name and
the source of an import stands `from`, which uses none.

What the reader finds in the text of a routes module is what the module says: its text
declares the imported names and `routes`, and it uses the names in its routes and `routes`
(`RoutesModule.mentions_moduleText`).
-/

set_option autoImplicit false

namespace RouteAtlas

namespace JavaScript

open Identifier (IsIdentifier AreIdentifiers isNameCharacter reservedWords)

/-! ## Words -/

/-- Where a reader stands behind a character. -/
def Spot.next : Spot → Char → Spot
  | .code, c => if c = '"' then .literal else .code
  | .literal, c => if c = '"' then .code else if c = '\\' then .escaped else .literal
  | .escaped, _ => .literal

/-- The word of the given letters, if there are any. -/
def wordOf (letters : List Char) : List String :=
  if letters.isEmpty then [] else [String.ofList letters]

/-- The words of a text that stand in code. The letters are those of a word that has
begun. -/
def wordsFrom : Spot → List Char → List Char → List String
  | _, letters, [] => wordOf letters
  | spot, letters, c :: rest =>
    if spot = .code ∧ isNameCharacter c then wordsFrom spot (letters ++ [c]) rest
    else wordOf letters ++ wordsFrom (spot.next c) [] rest

/-- The words of a text. -/
def words (text : List Char) : List String := wordsFrom .code [] text

variable {text rest left right : List Char}

/-- A word goes on as long as there are name characters. -/
theorem wordsFrom_legal {letters word : List Char}
    (legal : ∀ c ∈ word, isNameCharacter c = true) (rest : List Char) :
    wordsFrom .code letters (word ++ rest) = wordsFrom .code (letters ++ word) rest := by
  induction word generalizing letters with
  | nil => rw [List.nil_append, List.append_nil]
  | cons c word ih =>
    obtain ⟨first, later⟩ := List.forall_mem_cons.1 legal
    rw [List.cons_append, wordsFrom, if_pos ⟨rfl, first⟩, ih later, List.append_assoc,
      List.singleton_append]

/-- A word ends where the text does not go on with a name character. -/
theorem wordsFrom_of_stops (stops : Stops rest) (letters : List Char) :
    wordsFrom .code letters rest = wordOf letters ++ words rest := by
  cases rest with
  | nil => exact (List.append_nil _).symm
  | cons c rest =>
    have noName : isNameCharacter c = false := stops c rfl
    simp [words, wordsFrom, noName, wordOf]

/-- If neither of two texts goes on with a word, both together do not. -/
theorem Stops.append (stopsLeft : Stops left) (stopsRight : Stops right) :
    Stops (left ++ right) := by
  cases left with
  | nil => exact stopsRight
  | cons c left => exact stopsLeft

/-- A word of name characters is read as one. -/
theorem words_word {word : List Char} (legal : ∀ c ∈ word, isNameCharacter c = true)
    (filled : word ≠ []) (stops : Stops rest) :
    words (word ++ rest) = String.ofList word :: words rest := by
  rw [words, wordsFrom_legal legal, wordsFrom_of_stops stops, List.nil_append, wordOf,
    if_neg (by simpa using filled), List.singleton_append]

/-- Whether a character is passed over in code: it is in no name and opens no literal. -/
def isGap (c : Char) : Bool := !isNameCharacter c && c != '"'

/-- What is passed over adds no word. -/
theorem words_gap {gap : List Char} (isGap : gap.all isGap = true) (rest : List Char) :
    words (gap ++ rest) = words rest := by
  induction gap with
  | nil => rfl
  | cons c gap ih =>
    rw [List.all_cons, Bool.and_eq_true] at isGap
    have passed : isNameCharacter c = false ∧ c ≠ '"' := by
      simpa [JavaScript.isGap] using isGap.1
    rw [← ih isGap.2, List.cons_append, words, wordsFrom, if_neg (by simp [passed.1]),
      Spot.next, if_neg passed.2]
    rfl

/-- In a literal there are no words. -/
theorem wordsFrom_of_not_code {spot : Spot} (inLiteral : spot ≠ .code) (c : Char)
    (rest : List Char) : wordsFrom spot [] (c :: rest) = wordsFrom (spot.next c) [] rest := by
  rw [wordsFrom, if_neg fun isName => inLiteral isName.1]
  rfl

/-- Plain characters in a literal are passed over. -/
theorem wordsFrom_inLiteral {word : List Char} (stands : ∀ c ∈ word, c ∉ ['\n', '"', '\\'])
    (rest : List Char) : wordsFrom .literal [] (word ++ rest) = wordsFrom .literal [] rest := by
  induction word with
  | nil => rfl
  | cons c word ih =>
    obtain ⟨first, later⟩ := List.forall_mem_cons.1 stands
    simp only [List.mem_cons, List.not_mem_nil, or_false, not_or] at first
    rw [List.cons_append, wordsFrom_of_not_code (by decide), Spot.next, if_neg first.2.1,
      if_neg first.2.2, ih later]

/-- An escaped character in a literal is passed over. -/
theorem wordsFrom_escapeChar (c : Char) (rest : List Char) :
    wordsFrom .literal [] (Text.escapeChar c ++ rest) = wordsFrom .literal [] rest := by
  obtain ⟨stands, itself⟩ | ⟨letter, word, escape, -, stands⟩ := Text.escapeChar_cases c
  · rw [itself]
    exact wordsFrom_inLiteral (List.forall_mem_singleton.2 stands) rest
  · rw [escape, List.cons_append, wordsFrom_of_not_code (by decide), List.cons_append]
    refine (wordsFrom_of_not_code (by decide) letter (word ++ rest)).trans ?_
    exact wordsFrom_inLiteral stands rest

/-- A literal has no words, whatever it holds. -/
theorem words_quote (content : String) (rest : List Char) :
    words (Text.quote content ++ rest) = words rest := by
  -- Behind the opening quote the reader stays in the literal up to the closing one.
  have inside : wordsFrom .literal [] (content.toList.flatMap Text.escapeChar ++ '"' :: rest) =
      words rest := by
    induction content.toList with
    | nil => exact wordsFrom_of_not_code (by decide) '"' rest
    | cons c others ih => rw [List.flatMap_cons, List.append_assoc, wordsFrom_escapeChar, ih]
  simpa [Text.quote, words, wordsFrom, Spot.next, isNameCharacter, wordOf] using inside

/-! ## Mentions -/

/-- What a word does with a name. -/
inductive Mention where
  | declares (name : String)
  | uses (name : String)
  deriving DecidableEq, Repr

/-- What a reader expects of the next word. -/
inductive Expects where
  /-- It may use a name. -/
  | use
  /-- It is the name that an import declares. -/
  | imported
  /-- It stands between the name of an import and its source. -/
  | source
  /-- It is the name of a constant. -/
  | constant
  deriving DecidableEq, Repr

/-- What some words do with names. -/
def mentionsFrom : Expects → List String → List Mention
  | _, [] => []
  | .use, word :: rest =>
    if word = "import" then mentionsFrom .imported rest
    else if word = "const" then mentionsFrom .constant rest
    else if word ∈ reservedWords then mentionsFrom .use rest
    else .uses word :: mentionsFrom .use rest
  | .imported, word :: rest => .declares word :: mentionsFrom .source rest
  | .source, _ :: rest => mentionsFrom .use rest
  | .constant, word :: rest => .declares word :: mentionsFrom .use rest

/-- What the words of a text do with names. -/
def mentions (text : List Char) : List Mention := mentionsFrom .use (words text)

/-- A word that is an identifier uses the name. -/
theorem mentionsFrom_identifier {name : String} (isIdentifier : IsIdentifier name)
    (rest : List String) :
    mentionsFrom .use (name :: rest) = .uses name :: mentionsFrom .use rest := by
  have notReserved := isIdentifier.notReserved
  have notImport : name ≠ "import" := fun same => notReserved (by rw [same]; decide)
  have notConst : name ≠ "const" := fun same => notReserved (by rw [same]; decide)
  rw [mentionsFrom, if_neg notImport, if_neg notConst, if_neg notReserved]

/-- Whether a part of a text does this with names, whatever stands behind it. -/
def Does (text : List Char) (done : List Mention) : Prop :=
  ∀ rest, Stops rest → mentions (text ++ rest) = done ++ mentions rest

namespace Does

variable {done first second : List Mention}

/-- A part does what it does behind another one that it does not go on with. -/
theorem append (isLeft : Does left first) (isRight : Does right second) (stops : Stops right) :
    Does (left ++ right) (first ++ second) := by
  intro rest stopsRest
  rw [List.append_assoc, List.append_assoc, isLeft _ (stops.append stopsRest),
    isRight rest stopsRest]

/-- A part does what it does behind a gap, too. -/
theorem behind_gap {gap : List Char} (isGap : gap.all isGap = true) (does : Does right done) :
    Does (gap ++ right) done := by
  intro rest stops
  rw [List.append_assoc, mentions, words_gap isGap]
  exact does rest stops

/-- A part does what it does behind a literal, too. -/
theorem behind_quote (content : String) (does : Does right done) :
    Does (Text.quote content ++ right) done := by
  intro rest stops
  rw [List.append_assoc, mentions, words_quote]
  exact does rest stops

/-- An empty text does nothing with names. -/
theorem nil : Does [] [] := fun _ _ => rfl

/-- What is passed over does nothing with names. -/
theorem of_gap {gap : List Char} (isGap : gap.all isGap = true) : Does gap [] :=
  List.append_nil gap ▸ behind_gap isGap .nil

/-- A literal does nothing with names. -/
theorem of_quote (content : String) : Does (Text.quote content) [] :=
  List.append_nil (Text.quote content) ▸ behind_quote content .nil

/-- An identifier uses its name. -/
theorem of_identifier {name : String} (isIdentifier : IsIdentifier name) :
    Does name.toList [.uses name] := by
  intro rest stops
  have filled : name.toList ≠ [] := by simpa using isIdentifier.nonempty
  rw [mentions, words_word isIdentifier.legal filled stops, String.ofList_toList]
  exact mentionsFrom_identifier isIdentifier _

/-- The words of flags use no name. -/
theorem of_flag (flag : Bool) : Does (word (.flag flag)).toList [] := by
  intro rest stops
  have isWord : ∀ c ∈ (word (.flag flag)).toList, isNameCharacter c = true :=
    word_legal (by simp [Value.names, AreIdentifiers])
  rw [mentions, words_word isWord (by cases flag <;> decide) stops, String.ofList_toList,
    mentionsFrom]
  cases flag <;> rfl

end Does

/-! ## Lists and objects -/

section Items

variable {α : Type} {write : α → List Char} {names : α → List String} {items : List α}

/-- Lines use the names that their items use. -/
theorem does_lines (does : ∀ item ∈ items, Does (write item) ((names item).map .uses)) :
    Does (lines write items) ((items.flatMap names).map .uses) := by
  induction items with
  | nil => exact .nil
  | cons item rest ih =>
    obtain ⟨doesItem, doesRest⟩ := List.forall_mem_cons.1 does
    have isGap : (separator rest.isEmpty).all isGap = true := by
      cases rest.isEmpty <;> decide
    rw [List.flatMap_cons, List.map_append, lines]
    exact doesItem.append (.behind_gap isGap (ih doesRest)) (stops_separator _ _)

/-- An indentation is passed over. -/
theorem isGap_indentation (width depth : Nat) : (indentation width depth).all isGap = true :=
  List.all_eq_true.2 fun c member => by
    rw [List.eq_of_mem_replicate member]
    decide

/-- Items between brackets use the names that they use. -/
theorem does_block {opening closing : Char} {width depth : Nat}
    (brackets : isGap opening = true ∧ isGap closing = true)
    (does : ∀ item ∈ items, Does (write item) ((names item).map .uses)) :
    Does (block opening closing (indentation width depth)
      (fun item => indentation width (depth + 1) ++ write item) items)
      ((items.flatMap names).map .uses) := by
  have isBreak : isGap '\n' = true := by decide
  have opens : [opening, '\n'].all isGap = true := by simp [isBreak, brackets]
  have closes : (indentation width depth ++ [closing]).all isGap = true := by
    simp [isGap_indentation, brackets]
  have stops : Stops (indentation width depth ++ [closing]) := by
    intro c isFirst
    have passed := List.all_eq_true.1 closes c (List.mem_of_mem_head? isFirst)
    rw [isGap, Bool.and_eq_true] at passed
    simpa using passed.1
  rw [block]
  split
  next empty =>
    rw [List.isEmpty_iff.1 empty]
    exact .of_gap (by simp [brackets])
  next =>
    have listed : Does (lines (fun item => indentation width (depth + 1) ++ write item) items)
        ((items.flatMap names).map .uses) :=
      does_lines fun item member => .behind_gap (isGap_indentation _ _) (does item member)
    have whole := Does.behind_gap opens (listed.append (.of_gap closes) stops)
    rwa [List.append_nil] at whole

end Items

/-! ## Values, objects and properties -/

/-- The names in a list of routes are those of its objects. -/
theorem allNames_eq_flatMap (routes : List RouteObject) :
    RouteObject.allNames routes = routes.flatMap RouteObject.names := by
  induction routes with
  | nil => rfl
  | cons object rest ih => rw [RouteObject.allNames, List.flatMap_cons, ih]

/-- The names in an object are those of its properties. -/
theorem propertyNames_eq_flatMap (properties : List Property) :
    Property.allNames properties = properties.flatMap Property.names := by
  induction properties with
  | nil => rfl
  | cons property rest ih => rw [Property.allNames, List.flatMap_cons, ih]

mutual

/-- A value uses its names, from left to right. -/
theorem does_expression (width depth : Nat) (value : Value) (named : AreIdentifiers value.names) :
    Does (expression width depth value) (value.names.map .uses) := by
  match value with
  | .binding name =>
    rw [Value.names] at named ⊢
    exact .of_identifier (named name List.mem_cons_self)
  | .flag flag =>
    rw [Value.names, expression_of_word rfl]
    exact .of_flag flag
  | .text content =>
    rw [Value.names]
    exact .of_quote content
  | .routes routes =>
    rw [Value.names] at named ⊢
    rw [expression_routes, allNames_eq_flatMap]
    exact does_block (by decide)
      (does_elements width (depth + 1) routes (areIdentifiers_of_routes named))
  termination_by structural value

/-- Each route object uses its names. -/
theorem does_elements (width depth : Nat) (routes : List RouteObject)
    (named : ∀ object ∈ routes, AreIdentifiers object.names) :
    ∀ object ∈ routes, Does (literal width depth object) (object.names.map .uses) := by
  match routes with
  | [] => exact List.forall_mem_nil _
  | object :: rest =>
    rw [List.forall_mem_cons] at named
    exact List.forall_mem_cons.2
      ⟨does_literal width depth object named.1, does_elements width depth rest named.2⟩
  termination_by structural routes

/-- A route object uses the names of its properties. -/
theorem does_literal (width depth : Nat) (object : RouteObject)
    (named : AreIdentifiers object.names) :
    Does (literal width depth object) (object.names.map .uses) := by
  match object with
  | ⟨properties⟩ =>
    rw [RouteObject.names] at named ⊢
    rw [literal_eq_block, propertyNames_eq_flatMap]
    exact does_block (by decide)
      (does_members width (depth + 1) properties (areIdentifiers_of_properties named))
  termination_by structural object

/-- Each property uses its names. -/
theorem does_members (width depth : Nat) (properties : List Property)
    (named : ∀ property ∈ properties, AreIdentifiers property.names) :
    ∀ property ∈ properties, Does (member width depth property) (property.names.map .uses) := by
  match properties with
  | [] => exact List.forall_mem_nil _
  | property :: rest =>
    rw [List.forall_mem_cons] at named
    exact List.forall_mem_cons.2
      ⟨does_member width depth property named.1, does_members width depth rest named.2⟩
  termination_by structural properties

/-- A property uses the names of its value; its key is a literal. -/
theorem does_member (width depth : Nat) (property : Property)
    (named : AreIdentifiers property.names) :
    Does (member width depth property) (property.names.map .uses) := by
  match property with
  | ⟨key, value⟩ =>
    rw [Property.names] at named ⊢
    have colon : ": ".toList.all isGap = true := by decide
    exact .behind_quote key.text (.behind_gap colon (does_expression width depth value named))
  termination_by structural property

end

/-! ## The whole text -/

/-- A word with a space behind it. -/
theorem words_word_space {word : String} (isWord : word.toList.all isNameCharacter = true)
    (filled : word.toList ≠ []) (rest : List Char) :
    words (word.toList ++ ' ' :: rest) = word :: words rest := by
  have stops : Stops (' ' :: rest) := by
    rintro _ ⟨⟩
    decide
  have isGap : [' '].all isGap = true := by decide
  rw [words_word (List.all_eq_true.1 isWord) filled stops, ← words_gap isGap rest,
    String.ofList_toList]
  rfl

/-- Two words with spaces around them, apart from what stands between and behind them. -/
theorem append_words_apart {first second opening inner : List Char}
    (isOpening : opening = first ++ [' ']) (isInner : inner = [' '] ++ (second ++ [' ']))
    (name source ending rest : List Char) :
    opening ++ (name ++ (inner ++ (source ++ ending))) ++ rest =
      first ++ ' ' :: (name ++ ' ' :: (second ++ ' ' :: (source ++ (ending ++ rest)))) := by
  subst isOpening isInner
  simp only [List.append_assoc, List.cons_append, List.nil_append]

/-- The words of an import line. -/
theorem words_importLine {declaration : Import}
    (isIdentifier : IsIdentifier declaration.localName) (rest : List Char) :
    words (importLine declaration ++ rest) =
      "import" :: declaration.localName :: "from" :: words rest := by
  have opening : "import ".toList = "import".toList ++ [' '] := by simp
  have inner : " from ".toList = [' '] ++ ("from".toList ++ [' ']) := by simp
  have legal := List.all_eq_true.2 isIdentifier.legal
  have filled : declaration.localName.toList ≠ [] := by simpa using isIdentifier.nonempty
  have source : words (Text.quote declaration.source ++ (";\n".toList ++ rest)) = words rest :=
    (words_quote _ _).trans (words_gap (by decide) rest)
  calc words (importLine declaration ++ rest)
    _ = words ("import".toList ++ ' ' :: (declaration.localName.toList ++ ' ' ::
        ("from".toList ++ ' ' ::
          (Text.quote declaration.source ++ (";\n".toList ++ rest))))) :=
      congrArg words (append_words_apart opening inner _ _ _ rest)
    _ = "import" :: _ := words_word_space (by decide) (by decide) _
    _ = "import" :: declaration.localName :: _ :=
      congrArg (List.cons _) (words_word_space legal filled _)
    _ = "import" :: declaration.localName :: "from" :: _ :=
      congrArg (fun others => _ :: _ :: others) (words_word_space (by decide) (by decide) _)
    _ = "import" :: declaration.localName :: "from" :: words rest := by rw [source]

/-- Import lines declare their names, in order. -/
theorem mentions_importLines {imports : List Import}
    (named : ∀ item ∈ imports, IsIdentifier item.localName) (rest : List Char) :
    mentions (importLines imports ++ rest) =
      imports.map (fun item => .declares item.localName) ++ mentions rest := by
  have listed : ∀ behind, mentions (imports.flatMap importLine ++ behind) =
      imports.map (fun item => .declares item.localName) ++ mentions behind := by
    intro behind
    induction imports with
    | nil => rfl
    | cons declaration others ih =>
      obtain ⟨first, later⟩ := List.forall_mem_cons.1 named
      rw [List.flatMap_cons, List.append_assoc, mentions, words_importLine first,
        List.map_cons, List.cons_append, ← ih later]
      rfl
  have isGap : (if imports.isEmpty then [] else ['\n']).all isGap = true := by
    split <;> decide
  rw [importLines, List.append_assoc, listed, mentions, words_gap isGap]
  rfl

/-- The constant that a routes module declares. -/
theorem mentions_constant (rest : List Char) :
    mentions ("const routes = ".toList ++ rest) = .declares "routes" :: mentions rest := by
  have apart : "const routes = ".toList =
      "const".toList ++ ' ' :: ("routes".toList ++ ' ' :: ['=', ' ']) := by simp
  have said : words ("const routes = ".toList ++ rest) = "const" :: "routes" :: words rest := by
    calc words ("const routes = ".toList ++ rest)
      _ = words ("const".toList ++ ' ' :: ("routes".toList ++ ' ' :: (['=', ' '] ++ rest))) := by
        rw [apart, List.append_assoc, List.cons_append, List.append_assoc, List.cons_append]
      _ = "const" :: _ := words_word_space (by decide) (by decide) _
      _ = "const" :: "routes" :: _ :=
        congrArg (List.cons _) (words_word_space (by decide) (by decide) _)
      _ = "const" :: "routes" :: words rest := by rw [words_gap (by decide)]
  rw [mentions, said]
  rfl

/-- The name that a routes module exports. -/
theorem mentions_export :
    mentions ";\n\nexport default routes;\n".toList = [.uses "routes"] := by
  decide +kernel

end JavaScript

open JavaScript

/-- The text of a routes module declares the imported names and `routes`, and it uses the
names in its routes and then `routes`. -/
theorem RoutesModule.mentions_moduleText (width : Nat) {program : RoutesModule}
    (imported : ∀ item ∈ program.imports, Identifier.IsIdentifier item.localName)
    (used : Identifier.AreIdentifiers program.names) :
    mentions (program.moduleText width).toList =
      program.imports.map (fun item => .declares item.localName) ++
        .declares "routes" :: (program.names.map .uses ++ [.uses "routes"]) := by
  have stops : Stops ";\n\nexport default routes;\n".toList := by
    rintro _ ⟨⟩
    decide
  have routes := does_expression width 0 (.routes program.routes) used
  rw [moduleText, String.toList_ofList, moduleChars, mentions_importLines imported,
    mentions_constant, routes _ stops, mentions_export]
  rfl

end RouteAtlas
