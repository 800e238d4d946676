import RouteAtlas.Json
import RouteAtlas.Proofs.RoutesModule.JavaScript

/-!
# JSON texts tell their values

Two JSON values with the same text over several lines are the same, in front of anything
that does not go on with a name (`Json.told_pretty`).

Lists and objects are laid out as in an ES module: a line break in front of every member
and a comma behind all but the last one make the same text as lines that end in a comma
or not (`Json.broken_append_newLine`). So members are told from one another as lines are.
The first character of a value shows its kind (`Json.opening`).
-/

set_option autoImplicit false

namespace RouteAtlas.Json

open JavaScript (Told indentation lines separator block block_append_inj)

variable {depth : Nat} {left right : List Char}

/-! ## Layout -/

section Layout

variable {α : Type}

/-- Items that stand on new lines, with a comma behind all but the last. -/
def broken (depth : Nat) (write : α → List Char) : List α → List Char
  | [] => []
  | item :: rest =>
    newLine depth ++ write item ++ (if rest.isEmpty then [] else [',']) ++ broken depth write rest

/-- A new line is a line break and an indentation. -/
theorem newLine_eq (depth : Nat) : newLine depth = '\n' :: indentation 2 depth := rfl

/-- A comma, if one is due, and a line break separate two items. -/
theorem comma_newLine (last : Bool) (text : List Char) :
    (if last then [] else [',']) ++ '\n' :: text = separator last ++ text := by
  cases last <;> rfl

/-- A line break behind items that stand on new lines can as well stand in front of
their lines. -/
theorem broken_append_newLine (depth : Nat) (write : α → List Char) (items : List α)
    (text : List Char) :
    broken depth write items ++ '\n' :: text =
      '\n' :: (lines (fun item => indentation 2 depth ++ write item) items ++ text) := by
  induction items with
  | nil => rfl
  | cons item rest ih =>
    simp only [broken, lines, List.append_assoc, ih, comma_newLine, newLine_eq, List.cons_append]

/-- The layout of brackets with items on lines of their own, in the words of the printer. -/
theorem block_eq_broken (opening closing : Char) (depth : Nat) (write : α → List Char)
    (items : List α) :
    block opening closing (indentation 2 depth)
        (fun item => indentation 2 (depth + 1) ++ write item) items =
      if items.isEmpty then [opening, closing]
      else opening :: (broken (depth + 1) write items ++ newLine depth ++ [closing]) := by
  rw [newLine_eq, List.append_assoc, List.cons_append, broken_append_newLine]
  rfl

end Layout

/-- The members of a list stand on lines of their own. -/
theorem prettyMembers_eq_broken (depth : Nat) (members : List Json) :
    prettyMembers depth members = broken depth (pretty depth) members := by
  induction members with
  | nil => rfl
  | cons member rest ih => rw [prettyMembers, broken, ih]

/-- The fields of an object stand on lines of their own. -/
theorem prettyFields_eq_broken (depth : Nat) (fields : List JsonField) :
    prettyFields depth fields = broken depth (prettyField depth) fields := by
  induction fields with
  | nil => rfl
  | cons field rest ih => rw [prettyFields, broken, ih]

/-- A list is printed as a block in square brackets. -/
theorem pretty_list (depth : Nat) (members : List Json) :
    pretty depth (.list members) = block '[' ']' (indentation 2 depth)
      (fun member => indentation 2 (depth + 1) ++ pretty (depth + 1) member) members := by
  rw [pretty, prettyMembers_eq_broken, block_eq_broken]

/-- An object is printed as a block in braces. -/
theorem pretty_object (depth : Nat) (fields : List JsonField) :
    pretty depth (.object fields) = block '{' '}' (indentation 2 depth)
      (fun field => indentation 2 (depth + 1) ++ prettyField (depth + 1) field) fields := by
  rw [pretty, prettyFields_eq_broken, block_eq_broken]

/-! ## Reading back -/

/-- The character that a value starts with. -/
def opening : Json → Char
  | .text _ => '"'
  | .flag true => 't'
  | .flag false => 'f'
  | .list _ => '['
  | .object _ => '{'

/-- The first character of a printed value is the one that its kind opens with. -/
theorem head?_pretty (depth : Nat) (value : Json) :
    (pretty depth value).head? = some value.opening := by
  match value with
  | .text _ | .flag true | .flag false => rfl
  | .list [] | .object [] => rfl
  | .list (_ :: _) | .object (_ :: _) => rfl

/-- Values that are printed alike, whatever follows, are of kinds that open alike. -/
theorem opening_eq_of_append {value other : Json}
    (same : pretty depth value ++ left = pretty depth other ++ right) :
    value.opening = other.opening := by
  have heads := congrArg List.head? same
  rw [List.head?_append, List.head?_append, head?_pretty, head?_pretty] at heads
  exact Option.some.inj heads

/-- A flag is told by its text, whatever follows. -/
theorem flagText_append_inj {truth other : Bool}
    (same : flagText truth ++ left = flagText other ++ right) : truth = other ∧ left = right := by
  cases truth <;> cases other <;> simp [flagText] at same ⊢ <;> exact same

mutual

/-- A value is told by its text. -/
theorem told_pretty (depth : Nat) (value : Json) :
    Told (fun _ => True) (pretty depth) value := by
  intro other _ left right _ _ same
  have openings := opening_eq_of_append same
  match value, other with
  | .text _, .text _ =>
    obtain ⟨rfl, sameEnd⟩ := Text.quote_append_inj same
    exact ⟨rfl, sameEnd⟩
  | .flag _, .flag _ =>
    obtain ⟨rfl, sameEnd⟩ := flagText_append_inj same
    exact ⟨rfl, sameEnd⟩
  | .list members, .list others =>
    rw [pretty_list, pretty_list] at same
    have told := told_members (depth + 1) members
    obtain ⟨rfl, sameEnd⟩ := block_append_inj (by decide)
      (fun member isMember => (told member isMember).indented _) (fun _ _ => trivial) same
    exact ⟨rfl, sameEnd⟩
  | .object fields, .object others =>
    rw [pretty_object, pretty_object] at same
    have told := told_fields (depth + 1) fields
    obtain ⟨rfl, sameEnd⟩ := block_append_inj (by decide)
      (fun field isField => (told field isField).indented _) (fun _ _ => trivial) same
    exact ⟨rfl, sameEnd⟩
  | .flag truth, .text _ | .flag truth, .list _ | .flag truth, .object _
  | .text _, .flag truth | .list _, .flag truth | .object _, .flag truth =>
    cases truth <;> simp [opening] at openings
  | .text _, .list _ | .text _, .object _ | .list _, .text _ | .list _, .object _
  | .object _, .text _ | .object _, .list _ => simp [opening] at openings
  termination_by structural value

/-- The members of a list are told by their text. -/
theorem told_members (depth : Nat) (members : List Json) :
    ∀ member ∈ members, Told (fun _ => True) (pretty depth) member := by
  match members with
  | [] => exact List.forall_mem_nil _
  | member :: rest =>
    exact List.forall_mem_cons.2 ⟨told_pretty depth member, told_members depth rest⟩
  termination_by structural members

/-- The fields of an object are told by their text. -/
theorem told_fields (depth : Nat) (fields : List JsonField) :
    ∀ field ∈ fields, Told (fun _ => True) (prettyField depth) field := by
  match fields with
  | [] => exact List.forall_mem_nil _
  | field :: rest =>
    exact List.forall_mem_cons.2 ⟨told_field depth field, told_fields depth rest⟩
  termination_by structural fields

/-- A field is told by its text. -/
theorem told_field (depth : Nat) (field : JsonField) :
    Told (fun _ => True) (prettyField depth) field := by
  intro other _ left right stops stopsOther same
  match field, other with
  | ⟨key, value⟩, ⟨keyOther, valueOther⟩ =>
    simp only [prettyField, List.append_assoc, List.cons_append] at same
    obtain ⟨rfl, sameRest⟩ := Text.quote_append_inj same
    obtain ⟨rfl, sameEnd⟩ := told_pretty depth value valueOther trivial _ _ stops stopsOther
      (List.cons.inj (List.cons.inj sameRest).2).2
    exact ⟨rfl, sameEnd⟩
  termination_by structural field

end

/-- Different values are printed differently. -/
theorem pretty_injective (depth : Nat) : Function.Injective (pretty depth) := by
  intro value other same
  have stops : JavaScript.Stops [] := nofun
  exact (told_pretty depth value other trivial [] [] stops stops (by rw [same])).1

end RouteAtlas.Json
