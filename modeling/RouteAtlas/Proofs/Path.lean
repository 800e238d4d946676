import Mathlib.Algebra.GroupWithZero.Nat
import RouteAtlas.FileSystem.Resolution

/-!
# Components and steps of paths

A path is read in two ways: by its components, which decide what lies below a
root, and by its steps, which the file system takes. Up to the steps that stay,
the components decide the steps (`Path.texts_filter`), so that paths which are
spelled differently but have the same components lead to the same place.

Putting a name behind a path adds one component and one step
(`Path.components_child`, `Path.texts_child`).
-/

set_option autoImplicit false

namespace RouteAtlas

namespace Path

/-! ## Pieces -/

/-- A text has at least one piece. -/
theorem pieces_ne_nil (text : List Char) : pieces text ≠ [] := by
  cases text with
  | nil => exact List.cons_ne_nil _ _
  | cons c rest =>
    rw [pieces]
    split
    · exact List.cons_ne_nil _ _
    · split <;> exact List.cons_ne_nil _ _

/-- A slash ends a piece. -/
theorem pieces_append_slash (text rest : List Char) :
    pieces (text ++ '/' :: rest) = pieces text ++ pieces rest := by
  induction text with
  | nil => simp [pieces]
  | cons c text ih =>
    rw [List.cons_append, pieces, pieces, ih]
    split
    next => rfl
    next =>
      obtain ⟨piece, others, isPieces⟩ := List.exists_cons_of_ne_nil (pieces_ne_nil text)
      rw [isPieces]
      rfl

/-- A text without slashes is its only piece. -/
theorem pieces_of_not_mem {text : List Char} (plain : '/' ∉ text) : pieces text = [text] := by
  induction text with
  | nil => rfl
  | cons c rest ih =>
    have others : '/' ∉ rest := fun member => plain (List.mem_cons_of_mem _ member)
    have different : c ≠ '/' := by
      rintro rfl
      exact plain List.mem_cons_self
    rw [pieces, if_neg different, ih others]

/-- A piece has no slash. -/
theorem not_mem_of_mem_pieces {text piece : List Char} (member : piece ∈ pieces text) :
    '/' ∉ piece := by
  induction text generalizing piece with
  | nil =>
    rw [pieces, List.mem_singleton] at member
    subst member
    exact List.not_mem_nil
  | cons c rest ih =>
    rw [pieces] at member
    split at member
    next =>
      rcases List.mem_cons.1 member with rfl | later
      · exact List.not_mem_nil
      · exact ih later
    next different =>
      obtain ⟨first, others, isPieces⟩ := List.exists_cons_of_ne_nil (pieces_ne_nil rest)
      rw [isPieces] at member ih
      rcases List.mem_cons.1 member with rfl | later
      · intro slash
        rcases List.mem_cons.1 slash with same | inFirst
        · exact different same.symm
        · exact ih List.mem_cons_self inFirst
      · exact ih (List.mem_cons_of_mem _ later)

/-! ## Steps of components -/

end Path

/-- The step that a component asks for. The front of a path asks for none. -/
def Component.step? : Component → Option String
  | .root => none
  | .current => none
  | .parent => some ".."
  | .name step => some step

/-- Whether a step leads anywhere else. -/
def isMove (step : String) : Bool := step != "" && step != "."

namespace Path

/-- The front of a path is no step. -/
theorem step?_lead (path : Path) : path.lead.filterMap Component.step? = [] := by
  rw [lead]
  split
  · simp [Component.step?]
  · split <;> simp [Component.step?]

/-- A piece gives a step exactly if its text is a move, and then that text. -/
theorem step?_componentOf? (piece : List Char) :
    (componentOf? piece).bind Component.step? =
      if isMove (String.ofList piece) then some (String.ofList piece) else none := by
  have isEmpty : String.ofList piece = "" ↔ piece = [] := String.ofList_eq_empty_iff
  have isCurrent : String.ofList piece = "." ↔ piece = ['.'] := by
    rw [← String.toList_inj, String.toList_ofList]
    rfl
  rw [componentOf?]
  split
  next stays =>
    have noMove : isMove (String.ofList piece) = false := by
      simp only [isMove, Bool.and_eq_false_iff, bne_eq_false_iff_eq, isEmpty, isCurrent]
      exact stays
    rw [noMove]
    rfl
  next moves =>
    have isAMove : isMove (String.ofList piece) = true := by
      simp only [isMove, Bool.and_eq_true, bne_iff_ne, ne_eq, isEmpty, isCurrent]
      exact not_or.1 moves
    rw [isAMove]
    split
    next isParent =>
      subst isParent
      rfl
    next => rfl

/-- The moves among the texts of a path are the steps of its components. -/
theorem texts_filter (path : Path) :
    path.texts.filter isMove = path.components.filterMap Component.step? := by
  rw [components, List.filterMap_append, step?_lead, List.nil_append, texts,
    List.filterMap_filterMap]
  generalize pieces path.text.toList = all
  induction all with
  | nil => rfl
  | cons piece others ih =>
    rw [List.filterMap_cons, step?_componentOf?, ← ih]
    cases piece with
    | nil => rfl
    | cons c rest =>
      rw [List.filter_cons_of_pos rfl, List.map_cons]
      cases moves : isMove (String.ofList (c :: rest)) with
      | true => rw [List.filter_cons_of_pos moves, if_pos rfl]
      | false =>
        rw [List.filter_cons_of_neg (by rw [moves]; exact Bool.false_ne_true),
          if_neg Bool.false_ne_true]

/-! ## Children -/

end Path

/-- A name that is one step down and nothing else. -/
structure IsName (name : String) : Prop where
  nonempty : name ≠ ""
  notCurrent : name ≠ "."
  notParent : name ≠ ".."
  plain : '/' ∉ name.toList

instance (name : String) : Decidable (IsName name) :=
  decidable_of_iff (name ≠ "" ∧ name ≠ "." ∧ name ≠ ".." ∧ '/' ∉ name.toList)
    ⟨fun ⟨nonempty, notCurrent, notParent, plain⟩ => ⟨nonempty, notCurrent, notParent, plain⟩,
      fun isName => ⟨isName.nonempty, isName.notCurrent, isName.notParent, isName.plain⟩⟩

/-- A name does not start with a slash. -/
theorem IsName.relative {name : String} (isName : IsName name) :
    name.toList.head? ≠ some '/' :=
  fun slash => isName.plain (List.mem_of_mem_head? slash)

namespace Path

variable {name : String}

/-- A name adds one piece in the place of what follows the last slash. -/
theorem pieces_child (path : Path) (isName : IsName name) :
    ∃ front rest, pieces path.text.toList = front ++ rest ∧ (rest = [] ∨ rest = [[]]) ∧
      pieces (path.child name).text.toList = front ++ [name.toList] ∧
        (front = [] → path.text = "") := by
  have onePiece := pieces_of_not_mem isName.plain
  rw [child, if_neg isName.relative]
  split
  next empty =>
    have none : path.text.toList = [] := List.getLast?_eq_none_iff.1 empty
    exact ⟨[], [[]], by rw [none]; rfl, .inr rfl, onePiece,
      fun _ => String.toList_eq_nil_iff.1 none⟩
  next slash =>
    obtain ⟨front, isFront⟩ := List.getLast?_eq_some_iff.1 slash
    refine ⟨pieces front, [[]], ?_, .inr rfl, ?_, fun none => absurd none (pieces_ne_nil front)⟩
    · rw [isFront, pieces_append_slash]
      rfl
    · rw [String.toList_append, isFront, List.append_assoc, List.singleton_append,
        pieces_append_slash, onePiece]
  next =>
    refine ⟨pieces path.text.toList, [], (List.append_nil _).symm, .inl rfl, ?_,
      fun none => absurd none (pieces_ne_nil _)⟩
    have slash : "/".toList = ['/'] := rfl
    rw [String.toList_append, String.toList_append, slash, List.append_assoc,
      List.singleton_append, pieces_append_slash, onePiece]

/-- The path of a child is absolute if that of its parent is. -/
theorem isAbsolute_child (path : Path) (isName : IsName name) :
    (path.child name).isAbsolute = path.isAbsolute := by
  rw [child, if_neg isName.relative, isAbsolute]
  split
  next empty =>
    have none : path.text.toList = [] := List.getLast?_eq_none_iff.1 empty
    rw [isAbsolute, none]
    exact decide_eq_false isName.relative
  next slash =>
    obtain ⟨front, isFront⟩ := List.getLast?_eq_some_iff.1 slash
    rw [isAbsolute, String.toList_append, isFront]
    cases front <;> rfl
  next c _ last =>
    obtain ⟨front, isFront⟩ := List.getLast?_eq_some_iff.1 last
    rw [isAbsolute, String.toList_append, String.toList_append, isFront]
    cases front <;> rfl

/-- A name is a component of its own. -/
theorem componentOf?_toList (isName : IsName name) :
    componentOf? name.toList = some (.name name) := by
  have notEmpty : name.toList ≠ [] := fun none => isName.nonempty (String.toList_eq_nil_iff.1 none)
  have notCurrent : name.toList ≠ ['.'] := fun same =>
    isName.notCurrent (String.toList_inj.1 (same.trans rfl))
  have notParent : name.toList ≠ ['.', '.'] := fun same =>
    isName.notParent (String.toList_inj.1 (same.trans rfl))
  rw [componentOf?, if_neg (not_or.2 ⟨notEmpty, notCurrent⟩), if_neg notParent,
    String.ofList_toList]

/-- A path and that of a child have the same front. -/
theorem lead_child (path : Path) (isName : IsName name) :
    (path.child name).lead = path.lead := by
  obtain ⟨front, rest, old, fewer, new, filled⟩ := path.pieces_child isName
  rw [lead, lead, isAbsolute_child path isName, new, old]
  cases front with
  | cons => rfl
  | nil =>
    have notCurrent : ([] ++ [name.toList]).head? ≠ some ['.'] := by
      intro same
      exact isName.notCurrent (String.toList_inj.1 ((Option.some.inj same).trans rfl))
    have stays : ([] ++ rest).head? ≠ some ['.'] := by
      rcases fewer with rfl | rfl <;> simp
    rw [if_neg notCurrent, if_neg stays]

/-- A name behind a path adds one component. -/
theorem components_child (path : Path) (isName : IsName name) :
    (path.child name).components = path.components ++ [.name name] := by
  obtain ⟨front, rest, old, fewer, new, -⟩ := path.pieces_child isName
  have none : rest.filterMap componentOf? = [] := by
    rcases fewer with rfl | rfl <;> simp [componentOf?]
  rw [components, components, lead_child path isName, new, old, List.filterMap_append,
    List.filterMap_append, none, List.append_nil, List.append_assoc,
    List.filterMap_cons_some (componentOf?_toList isName), List.filterMap_nil]

/-- The texts of a child's path are those of its parent and the name. -/
theorem texts_child (path : Path) (isName : IsName name) :
    (path.child name).texts = path.texts ++ [name] := by
  obtain ⟨front, rest, old, fewer, new, -⟩ := path.pieces_child isName
  have none : (rest.filter fun piece => !piece.isEmpty) = [] := by
    rcases fewer with rfl | rfl <;> rfl
  have filled : ([name.toList].filter fun piece => !piece.isEmpty) = [name.toList] := by
    refine List.filter_cons_of_pos ?_
    rw [Bool.not_eq_true', List.isEmpty_eq_false_iff]
    exact fun none => isName.nonempty (String.toList_eq_nil_iff.1 none)
  rw [texts, texts, new, old, List.filter_append, List.filter_append, none, filled,
    List.append_nil, List.map_append, List.map_cons, List.map_nil, String.ofList_toList]

/-- The path of a child does not end in a slash. -/
theorem endsInSlash_child (path : Path) (isName : IsName name) :
    (path.child name).endsInSlash = false := by
  obtain ⟨front, rest, -, -, new, -⟩ := path.pieces_child isName
  refine decide_eq_false fun slash => ?_
  obtain ⟨before, isBefore⟩ := List.getLast?_eq_some_iff.1 slash
  rw [isBefore, pieces_append_slash] at new
  have last : name.toList = [] := (List.append_inj_right' new rfl |> List.cons.inj).1.symm
  exact isName.nonempty (String.toList_eq_nil_iff.1 last)

/-- A path that ends in a slash takes a name as it is. -/
theorem text_child_of_endsInSlash {path : Path} (isName : IsName name)
    (slash : path.endsInSlash = true) : (path.child name).text = path.text ++ name := by
  rw [child, if_neg isName.relative, of_decide_eq_true slash]
  rfl

/-- Any other path that has a text takes a slash and a name. -/
theorem text_child_of_not_endsInSlash {path : Path} (isName : IsName name)
    (filled : path.text ≠ "") (noSlash : path.endsInSlash = false) :
    (path.child name).text = path.text ++ "/" ++ name := by
  rw [child, if_neg isName.relative]
  split
  next empty =>
    exact absurd (String.toList_eq_nil_iff.1 (List.getLast?_eq_none_iff.1 empty)) filled
  next slash => exact absurd slash (of_decide_eq_false noSlash)
  next => rfl

/-- The path of a child has a text. -/
theorem text_child_ne_empty (path : Path) (isName : IsName name) :
    (path.child name).text ≠ "" := by
  intro empty
  have isTexts := path.texts_child isName
  rw [texts, empty] at isTexts
  exact List.append_ne_nil_of_right_ne_nil _ (List.cons_ne_nil _ _) isTexts.symm

/-- The path of a child is longer than that of its parent. -/
theorem utf8ByteSize_lt_child {path : Path} (isName : IsName name) (filled : path.text ≠ "") :
    path.text.utf8ByteSize < (path.child name).text.utf8ByteSize := by
  have nameFilled : 0 < name.utf8ByteSize := by
    rw [Nat.pos_iff_ne_zero, ne_eq, String.utf8ByteSize_eq_zero_iff]
    exact isName.nonempty
  cases slash : path.endsInSlash with
  | true =>
    rw [text_child_of_endsInSlash isName slash, String.utf8ByteSize_append]
    omega
  | false =>
    rw [text_child_of_not_endsInSlash isName filled slash, String.utf8ByteSize_append,
      String.utf8ByteSize_append]
    omega

/-! ## Descendants -/

/-- The path of a path's descendant: some names behind it, one after the
other. -/
def descendant (path : Path) (names : List String) : Path := names.foldl child path

/-- A path is its own descendant along no names. -/
@[simp] theorem descendant_nil (path : Path) : path.descendant [] = path := rfl

/-- The descendant along a first name is one of that child. -/
theorem descendant_cons (path : Path) (name : String) (names : List String) :
    path.descendant (name :: names) = (path.child name).descendant names := rfl

/-- The descendant along two lists of names is one of a descendant. -/
theorem descendant_append (path : Path) (names others : List String) :
    path.descendant (names ++ others) = (path.descendant names).descendant others :=
  List.foldl_append

/-- Names behind a path add as many components. -/
theorem components_descendant (path : Path) {names : List String}
    (areNames : ∀ name ∈ names, IsName name) :
    (path.descendant names).components = path.components ++ names.map .name := by
  induction names generalizing path with
  | nil => rw [descendant_nil, List.map_nil, List.append_nil]
  | cons name rest ih =>
    rw [descendant_cons, ih _ fun other member => areNames other (List.mem_cons_of_mem _ member),
      components_child path (areNames name List.mem_cons_self), List.append_assoc]
    rfl

/-- The texts of a descendant's path are those of the path and the names. -/
theorem texts_descendant (path : Path) {names : List String}
    (areNames : ∀ name ∈ names, IsName name) :
    (path.descendant names).texts = path.texts ++ names := by
  induction names generalizing path with
  | nil => rw [descendant_nil, List.append_nil]
  | cons name rest ih =>
    rw [descendant_cons, ih _ fun other member => areNames other (List.mem_cons_of_mem _ member),
      texts_child path (areNames name List.mem_cons_self), List.append_assoc]
    rfl

/-- The path of a descendant is absolute if the path is. -/
theorem isAbsolute_descendant (path : Path) {names : List String}
    (areNames : ∀ name ∈ names, IsName name) :
    (path.descendant names).isAbsolute = path.isAbsolute := by
  induction names generalizing path with
  | nil => rfl
  | cons name rest ih =>
    rw [descendant_cons, ih _ fun other member => areNames other (List.mem_cons_of_mem _ member),
      isAbsolute_child path (areNames name List.mem_cons_self)]

/-- The steps to a proper descendant are the texts of the path and the names. -/
theorem steps_descendant (path : Path) {names : List String} (more : names ≠ [])
    (areNames : ∀ name ∈ names, IsName name) :
    (path.descendant names).steps = path.texts ++ names := by
  obtain ⟨parent, name, rfl⟩ := (List.eq_nil_or_concat names).resolve_left more
  rw [List.concat_eq_append] at areNames ⊢
  have isLast : IsName name := areNames name (List.mem_append_right _ List.mem_cons_self)
  rw [steps, texts_descendant path areNames, descendant_append]
  exact if_neg (by rw [descendant_cons, descendant_nil, endsInSlash_child _ isLast]; simp)

/-- Behind a path that does not end in a slash, each name follows a slash. -/
theorem text_descendant {path : Path} (filled : path.text ≠ "")
    (noSlash : path.endsInSlash = false) {names : List String}
    (areNames : ∀ name ∈ names, IsName name) :
    (path.descendant names).text = "/".intercalate (path.text :: names) := by
  induction names generalizing path with
  | nil => simp
  | cons name rest ih =>
    have isName := areNames name List.mem_cons_self
    rw [descendant_cons, ih (text_child_ne_empty path isName) (endsInSlash_child path isName)
      fun other member => areNames other (List.mem_cons_of_mem _ member),
      text_child_of_not_endsInSlash isName filled noSlash]
    cases rest <;> simp [String.append_assoc]

/-- Behind a path that does not end in a slash, each name adds a slash and its bytes. -/
theorem utf8ByteSize_descendant {path : Path} (filled : path.text ≠ "")
    (noSlash : path.endsInSlash = false) {names : List String}
    (areNames : ∀ name ∈ names, IsName name) :
    (path.descendant names).text.utf8ByteSize =
      path.text.utf8ByteSize + (names.map fun name => 1 + name.utf8ByteSize).sum := by
  induction names generalizing path with
  | nil => rfl
  | cons name rest ih =>
    have isName := areNames name List.mem_cons_self
    have isText := text_child_of_not_endsInSlash isName filled noSlash
    rw [descendant_cons, ih (text_child_ne_empty path isName) (endsInSlash_child path isName)
      fun other member => areNames other (List.mem_cons_of_mem _ member), isText,
      String.utf8ByteSize_append, String.utf8ByteSize_append, List.map_cons, List.sum_cons,
      Nat.add_assoc, Nat.add_assoc, Nat.add_assoc]
    rfl

/-- Behind a path that ends in a slash, the first name adds its bytes only. -/
theorem utf8ByteSize_descendant_of_endsInSlash {path : Path} (slash : path.endsInSlash = true)
    {name : String} {rest : List String} (areNames : ∀ step ∈ name :: rest, IsName step) :
    (path.descendant (name :: rest)).text.utf8ByteSize = path.text.utf8ByteSize +
      name.utf8ByteSize + (rest.map fun name => 1 + name.utf8ByteSize).sum := by
  have isName := areNames name List.mem_cons_self
  have areRest := fun other member => areNames other (List.mem_cons_of_mem name member)
  rw [descendant_cons, utf8ByteSize_descendant (text_child_ne_empty path isName)
    (endsInSlash_child path isName) areRest, text_child_of_endsInSlash isName slash,
    String.utf8ByteSize_append]

/-! ## Slashes at the end -/

/-- A path with slashes behind it. -/
def slashed (path : Path) (count : Nat) : Path :=
  ⟨path.text ++ String.ofList (List.replicate count '/')⟩

/-- Slashes at the end add empty pieces. -/
theorem pieces_slashed (path : Path) (count : Nat) :
    pieces (path.slashed count).text.toList =
      pieces path.text.toList ++ List.replicate count [] := by
  have slashes : ∀ count, pieces (List.replicate count '/') = List.replicate (count + 1) [] := by
    intro count
    induction count with
    | zero => rfl
    | succ count ih =>
      rw [List.replicate_succ, pieces, if_pos rfl, ih]
      rfl
  rw [slashed, String.toList_append, String.toList_ofList]
  cases count with
  | zero => rw [List.replicate_zero, List.append_nil, List.replicate_zero, List.append_nil]
  | succ count => rw [List.replicate_succ, pieces_append_slash, slashes]

/-- Slashes at the end add no texts. -/
theorem texts_slashed (path : Path) (count : Nat) : (path.slashed count).texts = path.texts := by
  have none : (List.replicate count []).filter (fun piece : List Char => !piece.isEmpty) = [] := by
    rw [List.filter_replicate_of_neg (by simp)]
  rw [texts, texts, pieces_slashed, List.filter_append, none, List.append_nil]

/-- Each slash at the end adds a byte. -/
theorem utf8ByteSize_slashed (path : Path) (count : Nat) :
    (path.slashed count).text.utf8ByteSize = path.text.utf8ByteSize + count := by
  have slashes : (String.ofList (List.replicate count '/')).utf8ByteSize = count := by
    induction count with
    | zero => rfl
    | succ count ih =>
      rw [List.replicate_succ', String.ofList_append, String.utf8ByteSize_append, ih]
      rfl
  rw [slashed, String.utf8ByteSize_append, slashes]

/-- Slashes at the end add no components. -/
theorem components_slashed {path : Path} (filled : path.text ≠ "") (count : Nat) :
    (path.slashed count).components = path.components := by
  have none : (List.replicate count []).filterMap componentOf? = [] :=
    List.filterMap_eq_nil_iff.2 fun piece member => by
      rw [List.eq_of_mem_replicate member]
      rfl
  obtain ⟨c, rest, isText⟩ := List.exists_cons_of_ne_nil
    fun empty => filled (String.toList_eq_nil_iff.1 empty)
  obtain ⟨piece, others, isPieces⟩ := List.exists_cons_of_ne_nil (pieces_ne_nil path.text.toList)
  have sameLead : (path.slashed count).lead = path.lead := by
    rw [lead, lead, isAbsolute, isAbsolute, pieces_slashed, isPieces, slashed,
      String.toList_append, isText]
    rfl
  rw [components, components, sameLead, pieces_slashed, List.filterMap_append, none,
    List.append_nil]

/-- With a slash at the end, a path ends in a slash. -/
theorem endsInSlash_slashed (path : Path) (count : Nat) :
    (path.slashed (count + 1)).endsInSlash = true := by
  rw [slashed, List.replicate_succ', endsInSlash, String.toList_append, String.toList_ofList,
    ← List.append_assoc, List.getLast?_concat]
  rfl

end Path

end RouteAtlas
