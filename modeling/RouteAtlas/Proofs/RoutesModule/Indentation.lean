import RouteAtlas.Proofs.RoutesModule.JavaScript
import RouteAtlas.Proofs.RoutesModule.Layout

/-!
# Indentation is only layout

The width that a routes module is indented by shows in nothing but the spaces at the front
of its lines, and each line has the width as many times in front as brackets are open there
(`RoutesModule.indentation_is_layout`).

This is the layout of any text that is indented by its brackets (`JavaScript.Indented`), so
what is left is that the text of a width is the one of width zero indented. A part of it
fits (`JavaScript.Fits`) if it can be put in front of any text and the same one indented,
with the same number of open brackets before and after. Literals fit since line breaks and
quotes are escaped in them, names since they hold name characters only, and a list or an
object fits if its items do, one bracket deeper.
-/

set_option autoImplicit false

namespace RouteAtlas

namespace JavaScript

open Identifier (IsIdentifier AreIdentifiers isNameCharacter)

/-! ## Parts of a text -/

/-- Whether a part of a text, written without indentation and with it, can be put in front of
any text and the same one indented where the given number of brackets is open. -/
def Fits (width depth : Nat) (plain text : List Char) : Prop :=
  ∀ after afterText, Indented width ⟨depth, .code⟩ after afterText →
    Indented width ⟨depth, .code⟩ (plain ++ after) (text ++ afterText)

variable {width depth : Nat} {plain text left right : List Char}

/-- An indentation of width 0 is empty. -/
@[simp] theorem indentation_zero (depth : Nat) : indentation 0 depth = [] := by
  rw [indentation, Nat.zero_mul, List.replicate_zero]

/-- Two texts that fit may stand one behind the other. -/
theorem Fits.append {plainLeft plainRight : List Char} (first : Fits width depth plainLeft left)
    (second : Fits width depth plainRight right) :
    Fits width depth (plainLeft ++ plainRight) (left ++ right) := by
  intro after afterText indented
  rw [List.append_assoc, List.append_assoc]
  exact first _ _ (second _ _ indented)

/-- Whether a character changes nothing for a reader that stands in code. -/
def isSilent (c : Char) : Bool := c ∉ ['\n', '"', '[', ']', '{', '}']

/-- A silent character changes neither the line nor the depth. -/
theorem isSilent_next {c : Char} (silent : isSilent c = true) (depth : Nat) :
    c ≠ '\n' ∧ Reading.next ⟨depth, .code⟩ c = ⟨depth, .code⟩ := by
  simp only [isSilent, decide_eq_true_eq, List.mem_cons, List.not_mem_nil, or_false, not_or]
    at silent
  exact ⟨silent.1, by simp [Reading.next, silent]⟩

/-- A word that has no line breaks, quotes or brackets fits. -/
theorem fits_of_silent {word : List Char} (silent : word.all isSilent = true) :
    Fits width depth word word := by
  intro after afterText indented
  induction word with
  | nil => exact indented
  | cons c rest ih =>
    rw [List.all_cons, Bool.and_eq_true] at silent
    obtain ⟨noBreak, same⟩ := isSilent_next silent.1 depth
    refine .char noBreak ?_
    rw [same]
    exact ih silent.2

/-- A word of name characters fits. -/
theorem fits_of_legal {word : List Char} (legal : ∀ c ∈ word, isNameCharacter c = true) :
    Fits width depth word word := by
  have illegal : ['\n', '"', '[', ']', '{', '}'].all (!isNameCharacter ·) = true := by
    decide
  refine fits_of_silent (List.all_eq_true.2 fun c member => decide_eq_true fun loud => ?_)
  have noName := List.all_eq_true.1 illegal c loud
  rw [legal c member] at noName
  cases noName

/-! ## Literals -/

/-- Characters that stand for themselves are read within a literal. -/
theorem Indented.inLiteral {word : List Char} (stands : ∀ c ∈ word, c ∉ ['\n', '"', '\\'])
    (rest : Indented width ⟨depth, .literal⟩ plain text) :
    Indented width ⟨depth, .literal⟩ (word ++ plain) (word ++ text) := by
  induction word with
  | nil => exact rest
  | cons c word ih =>
    obtain ⟨first, later⟩ := List.forall_mem_cons.1 stands
    simp only [List.mem_cons, List.not_mem_nil, or_false, not_or] at first
    refine .char first.1 ?_
    simpa [Reading.next, first] using ih later

/-- What stands for a character in a literal is read within the literal. -/
theorem Indented.escapeChar (c : Char) (rest : Indented width ⟨depth, .literal⟩ plain text) :
    Indented width ⟨depth, .literal⟩ (Text.escapeChar c ++ plain) (Text.escapeChar c ++ text) := by
  obtain ⟨stands, itself⟩ | ⟨letter, word, escape, noBreak, stands⟩ := Text.escapeChar_cases c
  · rw [itself]
    exact rest.inLiteral (List.forall_mem_singleton.2 stands)
  · rw [escape]
    exact .char (by decide) (.char noBreak (rest.inLiteral stands))

/-- A literal fits whatever it holds. -/
theorem fits_quote (content : String) :
    Fits width depth (Text.quote content) (Text.quote content) := by
  intro after afterText indented
  have inside : Indented width ⟨depth, .literal⟩
      (content.toList.flatMap Text.escapeChar ++ '"' :: after)
      (content.toList.flatMap Text.escapeChar ++ '"' :: afterText) := by
    induction content.toList with
    | nil => exact .char (by decide) indented
    | cons c rest ih =>
      rw [List.flatMap_cons, List.append_assoc, List.append_assoc]
      exact ih.escapeChar c
  simpa [Text.quote] using Indented.char (by decide) inside

/-! ## Brackets -/

/-- A line break in code, in front of a line of known depth. -/
theorem Indented.lineBreak {deep : Nat} (flush : plain.head? ≠ some ' ')
    (isDeep : Reading.depthOf ⟨depth, .code⟩ plain = deep)
    (rest : Indented width ⟨depth, .code⟩ plain text) :
    Indented width ⟨depth, .code⟩ ('\n' :: plain) ('\n' :: (indentation width deep ++ text)) :=
  isDeep ▸ .line flush rest

/-- Whether an item starts like a literal or an object. -/
def Begins (text : List Char) : Prop := ∃ c rest, text = c :: rest ∧ (c = '"' ∨ c = '{')

/-- A line that starts with an item is as deep as brackets are open. -/
theorem Begins.depthOf (begins : Begins text) (more : List Char) (reading : Reading) :
    (text ++ more).head? ≠ some ' ' ∧ reading.depthOf (text ++ more) = reading.depth := by
  obtain ⟨c, rest, rfl, rfl | rfl⟩ := begins <;>
    exact ⟨by simp, by simp [Reading.depthOf, closes, trimmed]⟩

variable {opening closing : Char}

/-- An opening bracket with its closing one. -/
def IsPair (opening closing : Char) : Prop :=
  opening = '[' ∧ closing = ']' ∨ opening = '{' ∧ closing = '}'

/-- An opening bracket goes one level down. -/
theorem IsPair.opened (isPair : IsPair opening closing)
    (inside : Indented width ⟨depth + 1, .code⟩ plain text) :
    Indented width ⟨depth, .code⟩ (opening :: plain) (opening :: text) := by
  rcases isPair with ⟨rfl, -⟩ | ⟨rfl, -⟩ <;> exact .char (by decide) inside

/-- A closing bracket comes one level up. -/
theorem IsPair.closed (isPair : IsPair opening closing)
    (outside : Indented width ⟨depth, .code⟩ plain text) :
    Indented width ⟨depth + 1, .code⟩ (closing :: plain) (closing :: text) := by
  rcases isPair with ⟨-, rfl⟩ | ⟨-, rfl⟩ <;> exact .char (by decide) outside

/-- A line that starts with a closing bracket is one bracket less deep. -/
theorem IsPair.depthOf (isPair : IsPair opening closing) (more : List Char) (depth : Nat) :
    (closing :: more).head? ≠ some ' ' ∧
      Reading.depthOf ⟨depth + 1, .code⟩ (closing :: more) = depth := by
  rcases isPair with ⟨-, rfl⟩ | ⟨-, rfl⟩ <;>
    exact ⟨by simp, by simp [Reading.depthOf, closes, trimmed]⟩

variable {α : Type} {writePlain write : α → List Char} {items : List α}

/-- The lines between two brackets, from the line break behind the first one to the second
one, are the plain ones indented if the items fit. -/
theorem Indented.lines {after afterText : List Char} (isPair : IsPair opening closing)
    (fits : ∀ item ∈ items, Fits width (depth + 1) (writePlain item) (write item))
    (begin : ∀ item ∈ items, Begins (writePlain item))
    (indented : Indented width ⟨depth, .code⟩ after afterText) :
    Indented width ⟨depth + 1, .code⟩
      ('\n' :: (lines writePlain items ++ closing :: after))
      ('\n' :: (lines (fun item => indentation width (depth + 1) ++ write item) items ++
        (indentation width depth ++ closing :: afterText))) := by
  induction items with
  | nil =>
    obtain ⟨flush, shallow⟩ := isPair.depthOf after depth
    exact (isPair.closed indented).lineBreak flush shallow
  | cons item rest ih =>
    obtain ⟨fitsItem, fitsRest⟩ := List.forall_mem_cons.1 fits
    obtain ⟨begins, beginRest⟩ := List.forall_mem_cons.1 begin
    have separated : Indented width ⟨depth + 1, .code⟩
        (separator rest.isEmpty ++ (JavaScript.lines writePlain rest ++ closing :: after))
        (separator rest.isEmpty ++
          (JavaScript.lines (fun item => indentation width (depth + 1) ++ write item) rest ++
            (indentation width depth ++ closing :: afterText))) := by
      cases rest.isEmpty with
      | true => exact ih fitsRest beginRest
      | false => exact .char (by decide) (ih fitsRest beginRest)
    obtain ⟨flush, deep⟩ := begins.depthOf
      (separator rest.isEmpty ++ (JavaScript.lines writePlain rest ++ closing :: after))
      ⟨depth + 1, .code⟩
    simpa [JavaScript.lines] using (fitsItem _ _ separated).lineBreak flush deep

/-- Items between brackets fit if each of them does one bracket deeper. -/
theorem fits_block (isPair : IsPair opening closing)
    (fits : ∀ item ∈ items, Fits width (depth + 1) (writePlain item) (write item))
    (begin : ∀ item ∈ items, Begins (writePlain item)) :
    Fits width depth
      (block opening closing (indentation 0 depth)
        (fun item => indentation 0 (depth + 1) ++ writePlain item) items)
      (block opening closing (indentation width depth)
        (fun item => indentation width (depth + 1) ++ write item) items) := by
  intro after afterText indented
  rw [block, block]
  split
  next => exact isPair.opened (isPair.closed indented)
  next => simpa using isPair.opened (indented.lines isPair fits begin)

/-! ## Values, objects and properties -/

/-- A route object begins with a brace. -/
theorem begins_literal (width depth : Nat) (object : RouteObject) :
    Begins (literal width depth object) := by
  obtain ⟨properties⟩ := object
  rw [literal]
  split
  next => exact ⟨'{', ['}'], rfl, .inr rfl⟩
  next => exact ⟨'{', _, rfl, .inr rfl⟩

/-- A property begins with a quote. -/
theorem begins_member (width depth : Nat) (property : Property) :
    Begins (member width depth property) := by
  obtain ⟨key, value⟩ := property
  exact ⟨'"', _, rfl, .inl rfl⟩

/-- A value that is written as a word fits. -/
theorem fits_word {value : Value} (isWord : shape value = .word)
    (named : AreIdentifiers value.names) :
    Fits width depth (expression 0 depth value) (expression width depth value) := by
  rw [expression_of_word isWord, expression_of_word isWord]
  exact fits_of_legal (word_legal named)

mutual

/-- A value fits wherever it stands. -/
theorem fits_expression (width depth : Nat) (value : Value) (named : AreIdentifiers value.names) :
    Fits width depth (expression 0 depth value) (expression width depth value) := by
  match value with
  | .binding _ => exact fits_word rfl named
  | .flag _ => exact fits_word rfl named
  | .text content => exact fits_quote content
  | .routes routes =>
    rw [Value.names] at named
    rw [expression_routes, expression_routes]
    exact fits_block (.inl ⟨rfl, rfl⟩)
      (fits_elements width (depth + 1) routes (areIdentifiers_of_routes named))
      fun object _ => begins_literal 0 (depth + 1) object
  termination_by structural value

/-- Route objects fit at any depth. -/
theorem fits_elements (width depth : Nat) (routes : List RouteObject)
    (named : ∀ object ∈ routes, AreIdentifiers object.names) :
    ∀ object ∈ routes, Fits width depth (literal 0 depth object) (literal width depth object) := by
  match routes with
  | [] => exact List.forall_mem_nil _
  | object :: rest =>
    rw [List.forall_mem_cons] at named
    exact List.forall_mem_cons.2
      ⟨fits_literal width depth object named.1, fits_elements width depth rest named.2⟩
  termination_by structural routes

/-- A route object fits wherever it stands. -/
theorem fits_literal (width depth : Nat) (object : RouteObject)
    (named : AreIdentifiers object.names) :
    Fits width depth (literal 0 depth object) (literal width depth object) := by
  match object with
  | ⟨properties⟩ =>
    rw [RouteObject.names] at named
    rw [literal_eq_block, literal_eq_block]
    exact fits_block (.inr ⟨rfl, rfl⟩)
      (fits_members width (depth + 1) properties (areIdentifiers_of_properties named))
      fun property _ => begins_member 0 (depth + 1) property
  termination_by structural object

/-- Properties fit at any depth. -/
theorem fits_members (width depth : Nat) (properties : List Property)
    (named : ∀ property ∈ properties, AreIdentifiers property.names) :
    ∀ property ∈ properties,
      Fits width depth (member 0 depth property) (member width depth property) := by
  match properties with
  | [] => exact List.forall_mem_nil _
  | property :: rest =>
    rw [List.forall_mem_cons] at named
    exact List.forall_mem_cons.2
      ⟨fits_member width depth property named.1, fits_members width depth rest named.2⟩
  termination_by structural properties

/-- A property fits wherever it stands. -/
theorem fits_member (width depth : Nat) (property : Property)
    (named : AreIdentifiers property.names) :
    Fits width depth (member 0 depth property) (member width depth property) := by
  match property with
  | ⟨key, value⟩ =>
    rw [Property.names] at named
    rw [member, member]
    have colon : ": ".toList.all isSilent = true := by decide
    exact (fits_quote key.text).append
      ((fits_of_silent colon).append (fits_expression width depth value named))
  termination_by structural property

end

/-! ## The whole text -/

/-- Outside of brackets nothing is put in front of a line. -/
theorem Indented.lineBreak_zero (flush : plain.head? ≠ some ' ')
    (rest : Indented width ⟨0, .code⟩ plain text) :
    Indented width ⟨0, .code⟩ ('\n' :: plain) ('\n' :: text) := by
  have shallow : Reading.depthOf ⟨0, .code⟩ plain = 0 := Nat.zero_sub _
  simpa [indentation] using rest.lineBreak flush shallow

/-- An import line without the line break at its end. -/
def importStatement (declaration : Import) : List Char :=
  "import ".toList ++ (declaration.localName.toList ++
    (" from ".toList ++ (Text.quote declaration.source ++ [';'])))

/-- An import line is a statement and a line break. -/
theorem importLine_eq (declaration : Import) :
    importLine declaration = importStatement declaration ++ ['\n'] := by
  unfold importLine importStatement
  simp only [List.append_assoc]
  rfl

/-- An import statement does not start with a space. -/
theorem importStatement_flush (declaration : Import) (more : List Char) :
    (importStatement declaration ++ more).head? ≠ some ' ' := by
  unfold importStatement
  rw [List.append_assoc]
  exact fun isSpace => absurd (Option.some.inj isSpace) (by decide)

/-- An import statement fits at any depth. -/
theorem fits_importStatement {declaration : Import}
    (isIdentifier : IsIdentifier declaration.localName) :
    Fits width depth (importStatement declaration) (importStatement declaration) := by
  have words : "import ".toList.all isSilent = true ∧ " from ".toList.all isSilent = true ∧
      [';'].all isSilent = true := by
    decide
  unfold importStatement
  refine (fits_of_silent words.1).append ((fits_of_legal isIdentifier.legal).append ?_)
  exact (fits_of_silent words.2.1).append ((fits_quote _).append (fits_of_silent words.2.2))

/-- Import lines can be put in front of a text and the same one indented. -/
theorem indented_flatMap_importLine {imports : List Import}
    (named : ∀ item ∈ imports, IsIdentifier item.localName) (flush : plain.head? ≠ some ' ')
    (rest : Indented width ⟨0, .code⟩ plain text) :
    (imports.flatMap importLine ++ plain).head? ≠ some ' ' ∧
      Indented width ⟨0, .code⟩ (imports.flatMap importLine ++ plain)
        (imports.flatMap importLine ++ text) := by
  induction imports with
  | nil => exact ⟨flush, rest⟩
  | cons declaration others ih =>
    obtain ⟨first, later⟩ := List.forall_mem_cons.1 named
    obtain ⟨flushLater, indented⟩ := ih later
    rw [List.flatMap_cons, importLine_eq, List.append_assoc, List.append_assoc, List.append_assoc,
      List.append_assoc]
    exact ⟨importStatement_flush declaration _,
      fits_importStatement first _ _ (indented.lineBreak_zero flushLater)⟩

/-- Import lines in front of a text leave its layout as it is. -/
theorem indented_importLines {imports : List Import}
    (named : ∀ item ∈ imports, IsIdentifier item.localName) (flush : plain.head? ≠ some ' ')
    (rest : Indented width ⟨0, .code⟩ plain text) :
    (importLines imports ++ plain).head? ≠ some ' ' ∧
      Indented width ⟨0, .code⟩ (importLines imports ++ plain) (importLines imports ++ text) := by
  by_cases none : imports = []
  · subst none
    exact ⟨flush, rest⟩
  · rw [importLines_of_ne_nil none, importLines_of_ne_nil none]
    exact indented_flatMap_importLine named (by simp) (rest.lineBreak_zero flush)

/-- The text of a routes module is its text of width zero indented. -/
theorem indented_moduleChars (width : Nat) {program : RoutesModule}
    (named : program.NamesFromIds) :
    (program.moduleChars 0).head? ≠ some ' ' ∧
      Indented width .start (program.moduleChars 0) (program.moduleChars width) := by
  obtain ⟨imported, used⟩ := named.identifiers
  have words : "const routes = ".toList.all isSilent = true ∧
      "export default routes;".toList.all isSilent = true ∧ [';'].all isSilent = true := by
    decide
  have ending : Indented width ⟨0, .code⟩ "\n\nexport default routes;\n".toList
      "\n\nexport default routes;\n".toList := by
    have last : Indented width ⟨0, .code⟩ ['\n'] ['\n'] :=
      Indented.lineBreak_zero (by decide) (.nil _)
    exact Indented.lineBreak_zero (by decide) (Indented.lineBreak_zero (by decide)
      (fits_of_silent words.2.1 _ _ last))
  have list := (fits_expression width 0 (.routes program.routes) used).append
    (fits_of_silent words.2.2)
  have definition := fits_of_silent words.1 _ _ (list _ _ ending)
  rw [List.append_assoc, List.append_assoc] at definition
  unfold RoutesModule.moduleChars
  exact indented_importLines imported
    (fun isSpace => absurd (Option.some.inj isSpace) (by decide)) definition

/-! ## Import lines -/

/-- An import statement has no line break. -/
theorem lineBreak_not_mem_importStatement {declaration : Import}
    (isIdentifier : IsIdentifier declaration.localName) :
    '\n' ∉ importStatement declaration := by
  have name : '\n' ∉ declaration.localName.toList := fun member =>
    absurd (isIdentifier.legal _ member) (by decide)
  have words : '\n' ∉ "import ".toList ∧ '\n' ∉ " from ".toList ∧ '\n' ∉ [';'] := by
    decide
  unfold importStatement
  simp only [List.mem_append, not_or]
  exact ⟨words.1, name, words.2.1, Text.lineBreak_not_mem_quote _, words.2.2⟩

/-- Each import has a line of its own. -/
theorem take_linesOf_importLines {imports : List Import}
    (named : ∀ item ∈ imports, IsIdentifier item.localName) (text : List Char) :
    (linesOf (importLines imports ++ text)).take imports.length =
      imports.map importStatement := by
  have split : ∀ text, linesOf (imports.flatMap importLine ++ text) =
      imports.map importStatement ++ linesOf text := by
    intro text
    induction imports with
    | nil => rfl
    | cons declaration others ih =>
      obtain ⟨first, later⟩ := List.forall_mem_cons.1 named
      rw [List.flatMap_cons, importLine_eq, List.append_assoc, List.append_assoc,
        List.singleton_append, linesOf_line (lineBreak_not_mem_importStatement first), ih later]
      rfl
  rw [importLines, List.append_assoc, split]
  exact List.take_left' (List.length_map _)

end JavaScript

open JavaScript

/-- The text of a routes module whose names are made from ids is the one of width zero up
to the spaces in front of its lines. These are the width as many times as brackets are open
outside of literals, without one that the line starts with closing. Each import takes one
line. -/
theorem RoutesModule.indentation_is_layout (width : Nat) (program : RoutesModule)
    (named : program.NamesFromIds) :
    let lines := linesOf (program.moduleText width).toList
    lines.map trimmed = linesOf (program.moduleText 0).toList ∧
      lines.map leadingSpaces = (Reading.start.depths lines).map (width * ·) ∧
      (lines.take program.imports.length).map (· ++ ['\n']) = program.imports.map importLine := by
  intro lines
  obtain ⟨flush, indented⟩ := indented_moduleChars width named
  have isText : lines = linesOf (program.moduleChars width) :=
    congrArg linesOf String.toList_ofList
  have isPlain : linesOf (program.moduleText 0).toList = linesOf (program.moduleChars 0) :=
    congrArg linesOf String.toList_ofList
  obtain ⟨sameLines, spaces⟩ := indented.layout flush
  refine ⟨?_, ?_, ?_⟩
  · rw [isText, isPlain, sameLines]
  · rw [isText, spaces]
  · unfold RoutesModule.moduleChars at isText
    rw [isText, take_linesOf_importLines named.identifiers.1, List.map_map]
    exact List.map_congr_left fun declaration _ => (importLine_eq declaration).symm

/-- A path with line breaks and brackets in it changes no line, and neither do empty lists
and empty objects. -/
theorem RoutesModule.indentation_is_layout_nested :
    let name := "about_entrypoint_tsx"
    let program : RoutesModule := ⟨[⟨name, "/app/\n  about.entrypoint.tsx"⟩],
      [⟨[⟨.children, .routes [⟨[⟨.entryPoint, .binding name⟩, ⟨.path, .text "a\n  ]\"["⟩]⟩, ⟨[]⟩]⟩,
        ⟨.children, .routes []⟩]⟩]⟩
    let lines := linesOf (program.moduleText 4).toList
    program.NamesFromIds ∧
      lines.map leadingSpaces = [0, 0, 0, 4, 8, 12, 16, 16, 12, 12, 8, 8, 4, 0, 0, 0, 0] ∧
      lines.map trimmed = linesOf (program.moduleText 0).toList ∧
      lines.map leadingSpaces = (Reading.start.depths lines).map (4 * ·) ∧
      (lines.take program.imports.length).map (· ++ ['\n']) = program.imports.map importLine := by
  intro name program lines
  have named : program.NamesFromIds := by
    intro used member
    obtain rfl : used = name := by
      simpa [program, RoutesModule.names, RouteObject.allNames, RouteObject.names,
        Property.allNames, Property.names, Value.names] using member
    exact ⟨"about.entrypoint.tsx", by decide +kernel⟩
  have isText : lines = linesOf (program.moduleChars 4) := congrArg linesOf String.toList_ofList
  have spaces : lines.map leadingSpaces =
      [0, 0, 0, 4, 8, 12, 16, 16, 12, 12, 8, 8, 4, 0, 0, 0, 0] := by
    rw [isText]
    decide +kernel
  exact ⟨named, spaces, indentation_is_layout 4 program named⟩

end RouteAtlas
