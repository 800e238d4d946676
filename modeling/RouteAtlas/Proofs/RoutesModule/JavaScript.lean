import RouteAtlas.Proofs.Identifier
import RouteAtlas.Proofs.RoutesModule.Bindings
import RouteAtlas.Proofs.Text.StringLiteral
import RouteAtlas.RoutesModule.JavaScript

/-!
# The text of a routes module tells the module

Two routes modules with the same text are the same, whatever the indentation, as long as
the names in them are made from ids (`RoutesModule.moduleText_inj`). Strings, keys,
nesting and empty lists are arbitrary.

Each part of the text tells what it was written from and where it ends, whatever comes
behind it. Literals end at a quote, objects and lists at a bracket. A name alone does
not show its end: it has to be followed by something that does not go on with it
(`JavaScript.Stops`), and what follows a value always starts with a comma, a semicolon
or a line break. Names are no reserved words, so they are not taken for `true` or
`false`.
-/

set_option autoImplicit false

namespace RouteAtlas

/-- A key is told by its text. -/
theorem Key.text_injective {key other : Key} (same : key.text = other.text) : key = other := by
  cases key <;> cases other <;> first | rfl | exact absurd same (by decide)

namespace JavaScript

open Identifier (IsIdentifier AreIdentifiers isNameCharacter)

variable {width depth : Nat} {left right : List Char}

/-! ## Words -/

/-- A text that does not go on with a name character. -/
def Stops (text : List Char) : Prop := ∀ c ∈ text.head?, isNameCharacter c = false

/-- A word is told by its text, if what follows does not go on with it. -/
theorem word_append_inj {word other : List Char} (isWord : ∀ c ∈ word, isNameCharacter c = true)
    (isOther : ∀ c ∈ other, isNameCharacter c = true) (stops : Stops left)
    (stopsOther : Stops right) (same : word ++ left = other ++ right) :
    word = other ∧ left = right := by
  induction word generalizing other with
  | nil =>
    cases other with
    | nil => exact ⟨rfl, same⟩
    | cons d rest =>
      rw [List.nil_append] at same
      have ends := stops d (by simp [same])
      rw [isOther d List.mem_cons_self] at ends
      cases ends
  | cons c word ih =>
    cases other with
    | nil =>
      rw [List.nil_append] at same
      have ends := stopsOther c (by simp [← same])
      rw [isWord c List.mem_cons_self] at ends
      cases ends
    | cons d rest =>
      obtain ⟨rfl, sameRest⟩ := List.cons.inj same
      obtain ⟨rfl, sameEnd⟩ := ih (fun c member => isWord c (List.mem_cons_of_mem _ member))
        (fun c member => isOther c (List.mem_cons_of_mem _ member)) sameRest
      exact ⟨rfl, sameEnd⟩

/-! ## Lists -/

variable {α : Type} {allowed : α → Prop}

/-- Whether a thing is told by its text among the allowed ones, and with it where the text
ends, if what follows does not go on with it. -/
def Told (allowed : α → Prop) (write : α → List Char) (item : α) : Prop :=
  ∀ other, allowed other → ∀ left right, Stops left → Stops right →
    write item ++ left = write other ++ right → item = other ∧ left = right

/-- What is told by its text is told behind an indentation. -/
theorem Told.indented {write : α → List Char} {item : α} (told : Told allowed write item)
    (indent : List Char) : Told allowed (fun item => indent ++ write item) item := by
  intro other isAllowed left right stops stopsOther same
  rw [List.append_assoc, List.append_assoc] at same
  exact told other isAllowed left right stops stopsOther (List.append_cancel_left same)

/-- What stands behind an item of a list. -/
def separator (last : Bool) : List Char := if last then "\n".toList else ",\n".toList

/-- Whether an item is the last one is told by what follows it. -/
theorem separator_append_inj {last lastOther : Bool}
    (same : separator last ++ left = separator lastOther ++ right) :
    last = lastOther ∧ left = right := by
  cases last <;> cases lastOther <;> simp [separator] at same ⊢ <;> exact same

/-- No word goes on behind an item. -/
theorem stops_separator (last : Bool) (text : List Char) : Stops (separator last ++ text) := by
  intro c isFirst
  cases last <;> simp [separator] at isFirst <;> subst isFirst <;> decide

/-- The lines of some items, with a comma behind all but the last. -/
def lines (write : α → List Char) : List α → List Char
  | [] => []
  | item :: rest => write item ++ (separator rest.isEmpty ++ lines write rest)

/-- Items are told by their lines if each is told by its text. -/
theorem lines_append_inj {write : α → List Char} {items others : List α}
    (told : ∀ item ∈ items, Told allowed write item) (areAllowed : ∀ other ∈ others, allowed other)
    (filled : items ≠ []) (filledOther : others ≠ [])
    (same : lines write items ++ left = lines write others ++ right) :
    items = others ∧ left = right := by
  induction items generalizing others with
  | nil => exact absurd rfl filled
  | cons item rest ih =>
    cases others with
    | nil => exact absurd rfl filledOther
    | cons other more =>
      simp only [lines, List.append_assoc] at same
      obtain ⟨toldItem, toldRest⟩ := List.forall_mem_cons.1 told
      obtain ⟨isAllowed, areAllowedMore⟩ := List.forall_mem_cons.1 areAllowed
      obtain ⟨rfl, sameRest⟩ :=
        toldItem other isAllowed _ _ (stops_separator _ _) (stops_separator _ _) same
      obtain ⟨sameLast, sameBehind⟩ := separator_append_inj sameRest
      by_cases last : rest = []
      · subst last
        obtain rfl : more = [] := List.isEmpty_iff.1 sameLast.symm
        exact ⟨rfl, sameBehind⟩
      · have goesOn : more ≠ [] := by
          rintro rfl
          exact last (List.isEmpty_iff.1 sameLast)
        obtain ⟨rfl, sameEnd⟩ := ih toldRest areAllowedMore last goesOn sameBehind
        exact ⟨rfl, sameEnd⟩

/-- Items between brackets. -/
def block (opening closing : Char) (indent : List Char) (write : α → List Char)
    (items : List α) : List Char :=
  if items.isEmpty then [opening, closing]
  else opening :: '\n' :: (lines write items ++ (indent ++ [closing]))

/-- Items between brackets are told by their block if each is told by its text. -/
theorem block_append_inj {opening closing : Char} (closes : closing ≠ '\n') {indent : List Char}
    {write : α → List Char} {items others : List α}
    (told : ∀ item ∈ items, Told allowed write item) (areAllowed : ∀ other ∈ others, allowed other)
    (same : block opening closing indent write items ++ left =
      block opening closing indent write others ++ right) :
    items = others ∧ left = right := by
  unfold block at same
  by_cases empty : items = []
  · by_cases emptyOther : others = []
    · subst empty emptyOther
      simpa using same
    · rw [if_pos (by simpa using empty), if_neg (by simpa using emptyOther)] at same
      exact absurd (List.cons.inj (List.cons.inj same).2).1 closes
  · by_cases emptyOther : others = []
    · rw [if_neg (by simpa using empty), if_pos (by simpa using emptyOther)] at same
      exact absurd (List.cons.inj (List.cons.inj same).2).1 closes.symm
    · rw [if_neg (by simpa using empty), if_neg (by simpa using emptyOther)] at same
      simp only [List.cons_append, List.cons.injEq, true_and, List.append_assoc] at same
      obtain ⟨rfl, sameEnd⟩ := lines_append_inj told areAllowed empty emptyOther same
      simpa using sameEnd

/-! ## Kinds of values -/

/-- What the first character of a value shows. -/
inductive Shape where
  | word
  | literal
  | list
  deriving DecidableEq

/-- What a value is written as. -/
def shape : Value → Shape
  | .binding _ => .word
  | .flag _ => .word
  | .text _ => .literal
  | .routes _ => .list

/-- What a value is written as that starts with the given character. -/
def shapeOf (c : Char) : Shape :=
  if c = '"' then .literal else if c = '[' then .list else .word

/-- A name character begins a word. -/
theorem shapeOf_word {c : Char} (legal : isNameCharacter c = true) : shapeOf c = .word := by
  unfold shapeOf
  split_ifs with isQuote isBracket
  · subst isQuote
    cases legal
  · subst isBracket
    cases legal
  · rfl

/-- The word that a value is written as, if it is written as one. -/
def word : Value → String
  | .binding name => name
  | .flag flag => if flag then "true" else "false"
  | .text _ => ""
  | .routes _ => ""

variable {value other : Value}

/-- A value that is a word is written as the word. -/
theorem expression_of_word (isWord : shape value = .word) :
    expression width depth value = (word value).toList := by
  cases value with
  | binding name => rfl
  | flag flag => cases flag <;> rfl
  | text text => cases isWord
  | routes routes => cases isWord

/-- The word of a value is made of name characters. -/
theorem word_legal (named : AreIdentifiers value.names) :
    ∀ c ∈ (word value).toList, isNameCharacter c = true := by
  cases value with
  | binding name => exact (named name (by simp [Value.names])).legal
  | flag flag => cases flag <;> exact List.all_eq_true.1 (by decide)
  | text text => exact nofun
  | routes routes => exact nofun

/-- The word of a value is not empty. -/
theorem word_ne_empty (isWord : shape value = .word) (named : AreIdentifiers value.names) :
    (word value).toList ≠ [] := by
  cases value with
  | binding name => simpa [word] using (named name (by simp [Value.names])).nonempty
  | flag flag => cases flag <;> decide
  | text text => cases isWord
  | routes routes => cases isWord

/-- The words of flags are reserved. -/
theorem flag_reserved (flag : Bool) : word (.flag flag) ∈ Identifier.reservedWords := by
  cases flag <;> decide

/-- No name is the word of a flag. -/
theorem word_injective (isWord : shape value = .word) (isOther : shape other = .word)
    (named : AreIdentifiers value.names) (namedOther : AreIdentifiers other.names)
    (same : word value = word other) : value = other := by
  have notFlag : ∀ name flag, IsIdentifier name → name ≠ word (.flag flag) := by
    rintro _ flag isIdentifier rfl
    exact isIdentifier.notReserved (flag_reserved flag)
  cases value with
  | binding name =>
    have isIdentifier := named name (by simp [Value.names])
    cases other with
    | binding next => exact congrArg Value.binding same
    | flag flag => exact absurd same (notFlag name flag isIdentifier)
    | text text => cases isOther
    | routes routes => cases isOther
  | flag flag =>
    cases other with
    | binding next =>
      have isIdentifier := namedOther next (by simp [Value.names])
      exact absurd same.symm (notFlag next flag isIdentifier)
    | flag next => cases flag <;> cases next <;> first | rfl | exact absurd same (by decide)
    | text text => cases isOther
    | routes routes => cases isOther
  | text text => cases isWord
  | routes routes => cases isWord

/-- The first character of an expression shows the shape of its value. -/
theorem expression_eq_cons (width depth : Nat) (value : Value)
    (named : AreIdentifiers value.names) :
    ∃ c rest, expression width depth value = c :: rest ∧ shapeOf c = shape value := by
  have ofWord : shape value = .word →
      ∃ c rest, expression width depth value = c :: rest ∧ shapeOf c = .word := by
    intro isWord
    obtain ⟨c, rest, isCons⟩ := List.exists_cons_of_ne_nil (word_ne_empty isWord named)
    refine ⟨c, rest, by rw [expression_of_word isWord, isCons], shapeOf_word ?_⟩
    exact word_legal named c (by simp [isCons])
  cases value with
  | binding name => exact ofWord rfl
  | flag flag => exact ofWord rfl
  | text text => exact ⟨_, _, rfl, rfl⟩
  | routes routes =>
    rw [expression]
    split <;> exact ⟨_, _, rfl, rfl⟩

/-- Values that are written alike, whatever follows, have the same shape. -/
theorem shape_eq_of_append (named : AreIdentifiers value.names)
    (namedOther : AreIdentifiers other.names)
    (same : expression width depth value ++ left = expression width depth other ++ right) :
    shape value = shape other := by
  obtain ⟨c, rest, isValue, isShape⟩ := expression_eq_cons width depth value named
  obtain ⟨d, more, isOther, isOtherShape⟩ := expression_eq_cons width depth other namedOther
  rw [isValue, isOther] at same
  rw [← isShape, ← isOtherShape, (List.cons.inj same).1]

/-- A value that is a word is told by its text, if what follows does not go on with it. -/
theorem expression_append_inj_of_word (isWord : shape value = .word)
    (named : AreIdentifiers value.names) (namedOther : AreIdentifiers other.names)
    (stops : Stops left) (stopsOther : Stops right)
    (same : expression width depth value ++ left = expression width depth other ++ right) :
    value = other ∧ left = right := by
  have isOther : shape other = .word := (shape_eq_of_append named namedOther same).symm.trans isWord
  rw [expression_of_word isWord, expression_of_word isOther] at same
  obtain ⟨sameWord, sameEnd⟩ :=
    word_append_inj (word_legal named) (word_legal namedOther) stops stopsOther same
  exact ⟨word_injective isWord isOther named namedOther (String.toList_inj.1 sameWord), sameEnd⟩

/-! ## Values, objects and properties -/

/-- The elements of a list are lines. -/
theorem elements_eq_lines (width depth : Nat) (routes : List RouteObject) :
    elements width depth routes =
      lines (fun object => indentation width depth ++ literal width depth object) routes := by
  induction routes with
  | nil => rfl
  | cons object rest ih => rw [elements, lines, ih, List.append_assoc, separator]

/-- The members of an object are lines. -/
theorem members_eq_lines (width depth : Nat) (properties : List Property) :
    members width depth properties =
      lines (fun property => indentation width depth ++ member width depth property)
        properties := by
  induction properties with
  | nil => rfl
  | cons property rest ih => rw [members, lines, ih, List.append_assoc, separator]

/-- A list of routes is a block in square brackets. -/
theorem expression_routes (width depth : Nat) (routes : List RouteObject) :
    expression width depth (.routes routes) = block '[' ']' (indentation width depth)
      (fun object => indentation width (depth + 1) ++ literal width (depth + 1) object)
      routes := by
  rw [expression, elements_eq_lines]
  rfl

/-- A route object is a block in braces. -/
theorem literal_eq_block (width depth : Nat) (properties : List Property) :
    literal width depth ⟨properties⟩ = block '{' '}' (indentation width depth)
      (fun property => indentation width (depth + 1) ++ member width (depth + 1) property)
      properties := by
  rw [literal, members_eq_lines]
  rfl

/-- If the names in a list of routes are identifiers, so are those in each. -/
theorem areIdentifiers_of_routes {routes : List RouteObject}
    (named : AreIdentifiers (RouteObject.allNames routes)) :
    ∀ object ∈ routes, AreIdentifiers object.names := by
  induction routes with
  | nil => exact List.forall_mem_nil _
  | cons object rest ih =>
    unfold AreIdentifiers at named
    rw [RouteObject.allNames, List.forall_mem_append] at named
    exact List.forall_mem_cons.2 ⟨named.1, ih named.2⟩

/-- If the names in some properties are identifiers, so are those in each. -/
theorem areIdentifiers_of_properties {properties : List Property}
    (named : AreIdentifiers (Property.allNames properties)) :
    ∀ property ∈ properties, AreIdentifiers property.names := by
  induction properties with
  | nil => exact List.forall_mem_nil _
  | cons property rest ih =>
    unfold AreIdentifiers at named
    rw [Property.allNames, List.forall_mem_append] at named
    exact List.forall_mem_cons.2 ⟨named.1, ih named.2⟩

mutual

/-- A value is told by its text. -/
theorem told_expression (width depth : Nat) (value : Value) (named : AreIdentifiers value.names) :
    Told (fun other : Value => AreIdentifiers other.names) (expression width depth) value := by
  intro other namedOther left right stops stopsOther same
  have shapes := shape_eq_of_append named namedOther same
  match value, other with
  | .binding _, _ => exact expression_append_inj_of_word rfl named namedOther stops stopsOther same
  | .flag _, _ => exact expression_append_inj_of_word rfl named namedOther stops stopsOther same
  | .text _, .text _ =>
    obtain ⟨rfl, sameEnd⟩ := Text.quote_append_inj same
    exact ⟨rfl, sameEnd⟩
  | .routes routes, .routes others =>
    rw [Value.names] at named namedOther
    rw [expression_routes, expression_routes] at same
    have told := told_elements width (depth + 1) routes (areIdentifiers_of_routes named)
    obtain ⟨rfl, sameEnd⟩ := block_append_inj (by decide)
      (fun object member => (told object member).indented _)
      (areIdentifiers_of_routes namedOther) same
    exact ⟨rfl, sameEnd⟩
  | .text _, .binding _ | .text _, .flag _ | .text _, .routes _ => cases shapes
  | .routes _, .binding _ | .routes _, .flag _ | .routes _, .text _ => cases shapes
  termination_by structural value

/-- Route objects are told by their texts. -/
theorem told_elements (width depth : Nat) (routes : List RouteObject)
    (named : ∀ object ∈ routes, AreIdentifiers object.names) :
    ∀ object ∈ routes, Told (fun other : RouteObject => AreIdentifiers other.names)
      (literal width depth) object := by
  match routes with
  | [] => exact List.forall_mem_nil _
  | object :: rest =>
    rw [List.forall_mem_cons] at named
    exact List.forall_mem_cons.2
      ⟨told_literal width depth object named.1, told_elements width depth rest named.2⟩
  termination_by structural routes

/-- A route object is told by its text. -/
theorem told_literal (width depth : Nat) (object : RouteObject)
    (named : AreIdentifiers object.names) :
    Told (fun other : RouteObject => AreIdentifiers other.names) (literal width depth)
      object := by
  intro other namedOther left right _ _ same
  match object, other with
  | ⟨properties⟩, ⟨others⟩ =>
    rw [RouteObject.names] at named namedOther
    rw [literal_eq_block, literal_eq_block] at same
    have told := told_members width (depth + 1) properties (areIdentifiers_of_properties named)
    obtain ⟨rfl, sameEnd⟩ := block_append_inj (by decide)
      (fun property member => (told property member).indented _)
      (areIdentifiers_of_properties namedOther) same
    exact ⟨rfl, sameEnd⟩
  termination_by structural object

/-- Properties are told by their texts. -/
theorem told_members (width depth : Nat) (properties : List Property)
    (named : ∀ property ∈ properties, AreIdentifiers property.names) :
    ∀ property ∈ properties, Told (fun other : Property => AreIdentifiers other.names)
      (member width depth) property := by
  match properties with
  | [] => exact List.forall_mem_nil _
  | property :: rest =>
    rw [List.forall_mem_cons] at named
    exact List.forall_mem_cons.2
      ⟨told_member width depth property named.1, told_members width depth rest named.2⟩
  termination_by structural properties

/-- A property is told by its text. -/
theorem told_member (width depth : Nat) (property : Property)
    (named : AreIdentifiers property.names) :
    Told (fun other : Property => AreIdentifiers other.names) (member width depth)
      property := by
  intro other namedOther left right stops stopsOther same
  match property, other with
  | ⟨key, value⟩, ⟨keyOther, valueOther⟩ =>
    rw [Property.names] at named namedOther
    simp only [member, List.append_assoc] at same
    obtain ⟨sameKey, sameRest⟩ := Text.quote_append_inj same
    obtain ⟨rfl, sameEnd⟩ := told_expression width depth value named valueOther namedOther _ _
      stops stopsOther (List.append_cancel_left sameRest)
    rw [Key.text_injective sameKey]
    exact ⟨rfl, sameEnd⟩
  termination_by structural property

end

/-! ## Imports -/

/-- An import is told by its line, whatever follows. -/
theorem importLine_append_inj {declaration other : Import}
    (isIdentifier : IsIdentifier declaration.localName) (isOther : IsIdentifier other.localName)
    (same : importLine declaration ++ left = importLine other ++ right) :
    declaration = other ∧ left = right := by
  unfold importLine at same
  simp only [List.append_assoc, List.append_right_inj] at same
  have stops : ∀ text, Stops (" from ".toList ++ text) := by
    intro text c isFirst
    obtain rfl : ' ' = c := by simpa using isFirst
    decide
  obtain ⟨sameName, sameRest⟩ :=
    word_append_inj isIdentifier.legal isOther.legal (stops _) (stops _) same
  rw [List.append_right_inj] at sameRest
  obtain ⟨sameSource, sameEnd⟩ := Text.quote_append_inj sameRest
  obtain ⟨name, source⟩ := declaration
  obtain ⟨nameOther, sourceOther⟩ := other
  obtain rfl : name = nameOther := String.toList_inj.1 sameName
  obtain rfl : source = sourceOther := sameSource
  exact ⟨rfl, List.append_cancel_left sameEnd⟩

/-- An import line starts with the letter i. -/
theorem importLine_ne_cons {c : Char} (notImport : c ≠ 'i') (declaration : Import) :
    c :: left ≠ importLine declaration ++ right := by
  intro same
  unfold importLine at same
  exact notImport (Option.some.inj (congrArg List.head? same))

/-- Import lines are told by their text, up to the first line that is none. -/
theorem flatMap_importLine_append_inj {c : Char} (notImport : c ≠ 'i')
    {imports others : List Import} (named : ∀ item ∈ imports, IsIdentifier item.localName)
    (namedOther : ∀ item ∈ others, IsIdentifier item.localName)
    (same : imports.flatMap importLine ++ c :: left = others.flatMap importLine ++ c :: right) :
    imports = others ∧ left = right := by
  induction imports generalizing others with
  | nil =>
    cases others with
    | nil => exact ⟨rfl, (List.cons.inj same).2⟩
    | cons other more =>
      rw [List.flatMap_cons, List.append_assoc] at same
      exact absurd same (importLine_ne_cons notImport other)
  | cons declaration rest ih =>
    rw [List.flatMap_cons, List.append_assoc] at same
    cases others with
    | nil => exact absurd same.symm (importLine_ne_cons notImport declaration)
    | cons other more =>
      rw [List.flatMap_cons, List.append_assoc] at same
      obtain ⟨isFirst, areLater⟩ := List.forall_mem_cons.1 named
      obtain ⟨isFirstOther, areLaterOther⟩ := List.forall_mem_cons.1 namedOther
      obtain ⟨rfl, sameRest⟩ := importLine_append_inj isFirst isFirstOther same
      obtain ⟨rfl, sameEnd⟩ := ih areLater areLaterOther sameRest
      exact ⟨rfl, sameEnd⟩

/-- Behind import lines stands an empty line. -/
theorem importLines_of_ne_nil {imports : List Import} (some : imports ≠ []) (text : List Char) :
    importLines imports ++ text = imports.flatMap importLine ++ '\n' :: text := by
  rw [importLines, if_neg (by simpa using some), List.append_assoc, List.singleton_append]

/-- Imports are told by their lines in front of the route list. -/
theorem importLines_append_inj {imports others : List Import}
    (named : ∀ item ∈ imports, IsIdentifier item.localName)
    (namedOther : ∀ item ∈ others, IsIdentifier item.localName)
    (same : importLines imports ++ ("const routes = ".toList ++ left) =
      importLines others ++ ("const routes = ".toList ++ right)) :
    imports = others ∧ left = right := by
  have opens : ∀ text, "const routes = ".toList ++ text =
      'c' :: ("onst routes = ".toList ++ text) := fun _ => rfl
  by_cases none : imports = []
  · by_cases noneOther : others = []
    · subst none noneOther
      exact ⟨rfl, List.append_cancel_left same⟩
    · obtain ⟨other, more, rfl⟩ := List.exists_cons_of_ne_nil noneOther
      rw [none, importLines_of_ne_nil noneOther, List.flatMap_cons, List.append_assoc, opens left]
        at same
      exact absurd same (importLine_ne_cons (by decide) other)
  · by_cases noneOther : others = []
    · obtain ⟨declaration, rest, rfl⟩ := List.exists_cons_of_ne_nil none
      rw [noneOther, importLines_of_ne_nil none, List.flatMap_cons, List.append_assoc, opens right]
        at same
      exact absurd same.symm (importLine_ne_cons (by decide) declaration)
    · rw [importLines_of_ne_nil none, importLines_of_ne_nil noneOther] at same
      obtain ⟨rfl, sameEnd⟩ := flatMap_importLine_append_inj (by decide) named namedOther same
      exact ⟨rfl, List.append_cancel_left sameEnd⟩

end JavaScript

/-- Whether all names in a routes module, imported or used, are made from ids. -/
def RoutesModule.NamesFromIds (program : RoutesModule) : Prop :=
  ∀ name ∈ program.imports.map Import.localName ++ program.names, ∃ id, name = Identifier.ofId id

/-- Names that are made from ids are identifiers. -/
theorem RoutesModule.NamesFromIds.identifiers {program : RoutesModule}
    (named : program.NamesFromIds) :
    (∀ item ∈ program.imports, Identifier.IsIdentifier item.localName) ∧
      Identifier.AreIdentifiers (Value.routes program.routes).names := by
  have legal : ∀ name ∈ program.imports.map Import.localName ++ program.names,
      Identifier.IsIdentifier name := by
    intro name member
    obtain ⟨id, rfl⟩ := named name member
    exact Identifier.isIdentifier_ofId id
  rw [List.forall_mem_append, List.forall_mem_map] at legal
  exact legal

/-- Two routes modules whose names are made from ids have the same text exactly if they
are the same. -/
theorem RoutesModule.moduleText_inj (width : Nat) (program other : RoutesModule)
    (named : program.NamesFromIds) (namedOther : other.NamesFromIds) :
    program.moduleText width = other.moduleText width ↔ program = other := by
  obtain ⟨imported, used⟩ := named.identifiers
  obtain ⟨importedOther, usedOther⟩ := namedOther.identifiers
  constructor
  · intro same
    have sameChars := String.ofList_injective same
    obtain ⟨sameImports, sameRest⟩ :=
      JavaScript.importLines_append_inj imported importedOther sameChars
    have stops : JavaScript.Stops ";\n\nexport default routes;\n".toList := by
      intro c isFirst
      obtain rfl : ';' = c := by simpa using isFirst
      decide
    have told := JavaScript.told_expression width 0 (.routes program.routes) used
    obtain ⟨sameRoutes, -⟩ := told (.routes other.routes) usedOther _ _ stops stops sameRest
    obtain ⟨imports, routes⟩ := program
    obtain ⟨importsOther, routesOther⟩ := other
    obtain rfl : imports = importsOther := sameImports
    obtain rfl : routes = routesOther := Value.routes.inj sameRoutes
    rfl
  · rintro rfl
    rfl

/-- A path that reads like the end of one property and another one behind it is not taken
for two properties, not even without indentation. -/
theorem RoutesModule.moduleText_inj_path_like_code :
    let name := "about_entrypoint_tsx"
    let imports : List Import := [⟨name, "/app/about.entrypoint.tsx"⟩]
    let program : RoutesModule := ⟨imports, [⟨[⟨.entryPoint, .binding name⟩,
      ⟨.path, .text "a\",\n\"path\": \"b"⟩]⟩]⟩
    let other : RoutesModule := ⟨imports, [⟨[⟨.entryPoint, .binding name⟩,
      ⟨.path, .text "a"⟩, ⟨.path, .text "b"⟩]⟩]⟩
    program.NamesFromIds ∧ other.NamesFromIds ∧ program.moduleText 0 ≠ other.moduleText 0 := by
  intro name imports program other
  have fromId : name = Identifier.ofId "about.entrypoint.tsx" := by decide +kernel
  have named : program.NamesFromIds := by
    intro used member
    obtain rfl : used = name := by
      simpa [program, imports, RoutesModule.names, RouteObject.allNames, RouteObject.names,
        Property.allNames, Property.names, Value.names] using member
    exact ⟨_, fromId⟩
  have namedOther : other.NamesFromIds := by
    intro used member
    obtain rfl : used = name := by
      simpa [other, imports, RoutesModule.names, RouteObject.allNames, RouteObject.names,
        Property.allNames, Property.names, Value.names] using member
    exact ⟨_, fromId⟩
  refine ⟨named, namedOther, ?_⟩
  rw [Ne, moduleText_inj 0 program other named namedOther]
  simp [program, other]

end RouteAtlas
