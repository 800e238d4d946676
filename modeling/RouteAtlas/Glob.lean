/-!
# Glob patterns

A pattern is read into a list of tokens and matched against the whole of a text.
`?` stands for one character, `*` for any run of characters, `[...]` for one
character of a set and `[!...]` for one outside it. `**` must fill the space
between two slashes; together with the slash behind it, it stands for any number
of leading folders, or for everything that is left.

Matching works on all suffixes of a text at once: `suffixMatches tokens text`
tells for each suffix, from the whole text down to the empty one, whether the
tokens match it. Every token needs one pass over the answers for the tokens
behind it.
-/

set_option autoImplicit false

namespace RouteAtlas.Glob

/-- A member of a character set: the characters from `first` to `last`. -/
structure CharRange where
  first : Char
  last : Char
  deriving DecidableEq, Repr

/-- One element of a pattern. -/
inductive Token where
  | literal (c : Char)
  | anyChar
  | within (set : List CharRange)
  | outside (set : List CharRange)
  | anyRun
  | anyFolders
  deriving DecidableEq, Repr

/-- The members of a set. A dash between two characters makes a range; anywhere
else it stands for itself. -/
def setMembers : List Char → List CharRange
  | first :: '-' :: last :: rest => ⟨first, last⟩ :: setMembers rest
  | c :: rest => ⟨c, c⟩ :: setMembers rest
  | [] => []

/-- The text before the first closing bracket and the text behind it. -/
def closeBracket? : List Char → Option (List Char × List Char)
  | [] => none
  | ']' :: rest => some ([], rest)
  | c :: rest => (closeBracket? rest).map fun (before, behind) => (c :: before, behind)

/-- What stands behind a bracket is shorter than what it opens. -/
theorem closeBracket?_length {text before behind : List Char}
    (h : closeBracket? text = some (before, behind)) : behind.length < text.length := by
  induction text generalizing before behind with
  | nil => cases h
  | cons c rest ih =>
    unfold closeBracket? at h
    split at h
    · cases h
    · rename_i heq
      cases heq
      cases h
      simp
    · rename_i heq
      cases heq
      obtain ⟨⟨inner, after⟩, found, same⟩ := Option.map_eq_some_iff.1 h
      cases same
      exact Nat.lt_succ_of_lt (ih found)

/-- The set behind an opening bracket and the rest of the pattern. The first
character of a set belongs to it even if it is a closing bracket. -/
def bracket? : List Char → Option (Token × List Char)
  | '!' :: first :: rest =>
    (closeBracket? rest).map fun (before, behind) =>
      (.outside (setMembers (first :: before)), behind)
  | first :: rest =>
    if first = '!' then none
    else (closeBracket? rest).map fun (before, behind) =>
      (.within (setMembers (first :: before)), behind)
  | [] => none

/-- What stands behind a character class is shorter than the class and it. -/
theorem bracket?_length {text rest : List Char} {token : Token}
    (h : bracket? text = some (token, rest)) : rest.length < text.length := by
  unfold bracket? at h
  split at h
  · obtain ⟨⟨before, behind⟩, found, same⟩ := Option.map_eq_some_iff.1 h
    cases same
    have := closeBracket?_length found
    simp only [List.length_cons]
    omega
  · split at h
    · cases h
    · obtain ⟨⟨before, behind⟩, found, same⟩ := Option.map_eq_some_iff.1 h
      cases same
      have := closeBracket?_length found
      simp only [List.length_cons]
      omega
  · cases h

/-- Reads a pattern; `folderStart` tells whether the characters read so far end
in a slash or are none. Three stars in a row, `**` beside anything but slashes,
and a bracket that is not closed make no pattern. -/
def tokensFrom? (folderStart : Bool) : List Char → Option (List Token)
  | [] => some []
  | '?' :: rest => (tokensFrom? false rest).map (.anyChar :: ·)
  | '*' :: '*' :: '*' :: _ => none
  | '*' :: '*' :: '/' :: rest =>
    if folderStart then (tokensFrom? true rest).map (.anyFolders :: ·) else none
  | ['*', '*'] => if folderStart then some [.anyFolders] else none
  | '*' :: '*' :: _ :: _ => none
  | '*' :: rest => (tokensFrom? false rest).map (.anyRun :: ·)
  | '[' :: rest =>
    match _h : bracket? rest with
    | some (token, behind) => (tokensFrom? false behind).map (token :: ·)
    | none => none
  | c :: rest => (tokensFrom? (c == '/') rest).map (.literal c :: ·)
termination_by pattern => pattern.length
decreasing_by
  all_goals simp only [List.length_cons]
  all_goals first
    | omega
    | exact Nat.lt_succ_of_lt (bracket?_length _h)

/-- The tokens of a pattern, if it is one. -/
def tokens? (pattern : List Char) : Option (List Token) :=
  tokensFrom? true pattern

/-- Whether a set holds a character. -/
def inSet (set : List CharRange) (c : Char) : Bool :=
  set.any fun range => range.first ≤ c && c ≤ range.last

/-- Adds a token that takes exactly one character. -/
def thenOne (accepts : Char → Bool) : List Char → List Bool → List Bool
  | c :: rest, _ :: later :: others =>
    (accepts c && later) :: thenOne accepts rest (later :: others)
  | _, _ => [false]

/-- Adds a token that takes any run of characters. -/
def thenRun : List Char → List Bool → List Bool
  | _ :: rest, here :: others =>
    let below := thenRun rest others
    (here || below.headD false) :: below
  | _, others => others

/-- For each suffix of a text, whether the answers admit a shorter suffix that
starts behind a slash or is empty. -/
def reachable : List Char → List Bool → List Bool
  | c :: rest, _ :: later :: others =>
    let below := reachable rest (later :: others)
    (((c == '/' || rest.isEmpty) && later) || below.headD false) :: below
  | _, _ => [false]

/-- Puts one token in front of tokens whose answers are known. -/
def Token.extend (text : List Char) (answers : List Bool) : Token → List Bool
  | .literal c => thenOne (· == c) text answers
  | .anyChar => thenOne (fun _ => true) text answers
  | .within set => thenOne (inSet set) text answers
  | .outside set => thenOne (fun c => !inSet set c) text answers
  | .anyRun => thenRun text answers
  | .anyFolders => List.zipWith (· || ·) answers (reachable text answers)

/-- For each suffix of a text, whether no tokens at all match it. -/
def emptySuffix : List Char → List Bool
  | [] => [true]
  | _ :: rest => false :: emptySuffix rest

/-- For each suffix of a text, whether the tokens match it. -/
def suffixMatches : List Token → List Char → List Bool
  | [], text => emptySuffix text
  | token :: others, text => token.extend text (suffixMatches others text)

/-- Whether a pattern matches the whole of a name; what is no pattern matches
nothing. -/
def isMatch (pattern name : String) : Bool :=
  match tokens? pattern.toList with
  | some tokens => (suffixMatches tokens name.toList).headD false
  | none => false

end RouteAtlas.Glob

namespace RouteAtlas

/-- Whether entries of this name are passed over: the folders of version control
and of dependencies always, others by their very name or as a pattern. -/
def isIgnored (patterns : List String) (name : String) : Bool :=
  name == ".git" || name == "node_modules" ||
    patterns.any fun pattern => name == pattern || Glob.isMatch pattern name

end RouteAtlas
