import Mathlib.Data.List.Basic
import RouteAtlas.Naming

/-!
# Names in closed form

What a name comes to, without the steps that take it apart
(`ParsedName.closed_form`). A file name loses one ending, that of an entry point
or else that of a script, and nothing more. A base name is a core in so many
groups, in exactly one way if the core is no group itself; the core alone decides
whether the name is reserved, and each group adds a question mark.

No ending of a list ends another one of it (`Endings.Apart`), so it does not
matter which is tried first. Groups are taken off one by one, and what is left is
the core at the largest depth (`le_of_grouped_eq`).
-/

set_option autoImplicit false

namespace RouteAtlas

/-! ## Endings -/

/-- Whether a name ends in one of the given endings. -/
def HasEnding (endings : List String) (name : String) : Prop :=
  ∃ ending ∈ endings, ∃ base, name = base ++ ending

namespace Endings

/-- The endings of entry points. -/
def entryPoints : List String :=
  [".entrypoint.js", ".entrypoint.jsx", ".entrypoint.ts", ".entrypoint.tsx"]

/-- The endings of scripts. -/
def scripts : List String := [".js", ".jsx", ".ts", ".tsx"]

/-- No ending ends another one. -/
def Apart (endings : List String) : Prop :=
  ∀ ending ∈ endings, ∀ other ∈ endings, ending.toList <:+ other.toList → ending = other

instance (endings : List String) : Decidable (Apart endings) :=
  inferInstanceAs (Decidable (∀ ending ∈ endings, ∀ other ∈ endings,
    ending.toList <:+ other.toList → ending = other))

/-- The endings that mark an entry point, as texts. -/
theorem suffixes_entryPoints : entryPointSuffixes = entryPoints.map String.toList := by decide

/-- The extensions of a script, as texts. -/
theorem extensions_scripts : scriptExtensions = scripts.map String.toList := by decide

/-- No ending of an entry point ends in another one. -/
theorem apart_entryPoints : Apart entryPoints := by decide

/-- No extension of a script ends in another one. -/
theorem apart_scripts : Apart scripts := by decide

/-- The ending of an entry point ends in that of a script. -/
theorem hasEnding_scripts {name : String} (ends : HasEnding entryPoints name) :
    HasEnding scripts name := by
  obtain ⟨ending, isEnding, base, rfl⟩ := ends
  have inside : ∀ ending ∈ entryPoints, ∃ script ∈ scripts, ending = ".entrypoint" ++ script := by
    decide
  obtain ⟨script, isScript, rfl⟩ := inside ending isEnding
  exact ⟨script, isScript, base ++ ".entrypoint", String.append_assoc.symm⟩

variable {endings : List String} {name : String}

/-- Nothing precedes an ending if the name has none of them. -/
theorem beforeSuffix?_eq_none_iff :
    beforeSuffix? (endings.map String.toList) name.toList = none ↔ ¬ HasEnding endings name := by
  rw [beforeSuffix?, List.findSome?_eq_none_iff, List.forall_mem_map]
  constructor
  · rintro nowhere ⟨ending, isEnding, base, rfl⟩
    have found : ending.toList.isSuffixOf? (base ++ ending).toList = some base.toList :=
      List.isSuffixOf?_eq_some_iff_append_eq.2 String.toList_append.symm
    rw [nowhere ending isEnding] at found
    cases found
  · intro noEnding ending isEnding
    rw [Option.eq_none_iff_forall_not_mem]
    intro base isBase
    refine noEnding ⟨ending, isEnding, String.ofList base, ?_⟩
    rw [← String.toList_inj, String.toList_append, String.toList_ofList]
    exact (List.append_eq_of_isSuffixOf?_eq_some isBase).symm

/-- Where no ending ends another one, what precedes an ending is found. -/
theorem Apart.beforeSuffix?_append (apart : Apart endings) {ending : String}
    (isEnding : ending ∈ endings) (base : String) :
    beforeSuffix? (endings.map String.toList) (base ++ ending).toList = some base.toList := by
  cases found : beforeSuffix? (endings.map String.toList) (base ++ ending).toList with
  | none => exact absurd ⟨ending, isEnding, base, rfl⟩ (beforeSuffix?_eq_none_iff.1 found)
  | some front =>
    obtain ⟨suffix, isSuffix, isFront⟩ := List.exists_of_findSome?_eq_some found
    obtain ⟨other, isOther, rfl⟩ := List.mem_map.1 isSuffix
    have parts : front ++ other.toList = base.toList ++ ending.toList := by
      rw [← String.toList_append]
      exact List.append_eq_of_isSuffixOf?_eq_some isFront
    have same : other = ending := by
      rcases List.suffix_or_suffix_of_suffix ⟨front, parts⟩
        (List.suffix_append base.toList ending.toList) with inside | inside
      · exact apart other isOther ending isEnding inside
      · exact (apart ending isEnding other isOther inside).symm
    rw [same] at parts
    rw [List.append_cancel_right parts]

end Endings

open Endings

/-- An entry point is a file whose name has one of the endings. -/
theorem isEntryPointName_iff {name : String} :
    isEntryPointName name = true ↔ HasEnding entryPoints name := by
  rw [isEntryPointName, suffixes_entryPoints, ← Option.ne_none_iff_isSome, Ne,
    beforeSuffix?_eq_none_iff, not_not]

namespace ParsedName

variable {name ending : String}

/-- The name of an entry point is its base name and an ending. -/
theorem ofName_entryPoint (isEnding : ending ∈ entryPoints) (base : String) :
    ofName (base ++ ending) = ofBase base true := by
  rw [ofName, suffixes_entryPoints, apart_entryPoints.beforeSuffix?_append isEnding]
  exact congrArg (ofBase · true) String.ofList_toList

/-- The name of any other script is its base name and an extension. -/
theorem ofName_script (noEntryPoint : ¬ HasEnding entryPoints name) (isEnding : ending ∈ scripts)
    {base : String} (isName : name = base ++ ending) : ofName name = ofBase base false := by
  have found := apart_scripts.beforeSuffix?_append isEnding base
  rw [← isName] at found
  rw [ofName, suffixes_entryPoints, beforeSuffix?_eq_none_iff.2 noEntryPoint, extensions_scripts,
    found]
  exact congrArg (ofBase · false) String.ofList_toList

/-- Any other name is its own base name. -/
theorem ofName_other (noScript : ¬ HasEnding scripts name) : ofName name = ofBase name false := by
  have noEntryPoint : ¬ HasEnding entryPoints name := fun ends => noScript (hasEnding_scripts ends)
  rw [ofName, suffixes_entryPoints, beforeSuffix?_eq_none_iff.2 noEntryPoint, extensions_scripts,
    beforeSuffix?_eq_none_iff.2 noScript]

/-- A name is read as that of an entry point if it has one of the endings. -/
theorem isEntryPoint_ofName_iff :
    (ofName name).isEntryPoint = true ↔ HasEnding entryPoints name := by
  by_cases isEntry : HasEnding entryPoints name
  · refine iff_of_true ?_ isEntry
    obtain ⟨ending, isEnding, base, rfl⟩ := isEntry
    rw [ofName_entryPoint isEnding]
    rfl
  · refine iff_of_false ?_ isEntry
    by_cases ends : HasEnding scripts name
    · obtain ⟨ending, isEnding, base, isName⟩ := ends
      rw [ofName_script isEntry isEnding isName]
      exact Bool.false_ne_true
    · rw [ofName_other ends]
      exact Bool.false_ne_true

end ParsedName

/-! ## Groups -/

/-- Whether a text is a group. -/
def IsGroup (text : String) : Prop := ∃ inner, text = "(" ++ inner ++ ")"

/-- A core in so many groups. -/
def grouped : Nat → String → String
  | 0, core => core
  | depth + 1, core => "(" ++ grouped depth core ++ ")"

/-- So many question marks. -/
def optionalMarks : Nat → String
  | 0 => ""
  | depth + 1 => optionalMarks depth ++ "?"

/-- An optional group is a text between parentheses. -/
theorem ungroup?_eq_some_iff {name inner : List Char} :
    ungroup? name = some inner ↔ name = '(' :: (inner ++ [')']) := by
  rw [ungroup?.eq_def]
  split
  next rest =>
    rw [Option.ite_none_right_eq_some, List.cons.injEq, and_iff_right rfl,
      List.getLast?_eq_some_iff]
    constructor
    · rintro ⟨⟨front, rfl⟩, same⟩
      rw [List.dropLast_concat] at same
      rw [Option.some.inj same]
    · rintro rfl
      exact ⟨⟨inner, rfl⟩, by rw [List.dropLast_concat]⟩
  next noGroup =>
    refine iff_of_false nofun ?_
    rintro rfl
    exact noGroup _ rfl

/-- The characters of a text between parentheses. -/
theorem toList_group (inner : String) :
    ("(" ++ inner ++ ")").toList = '(' :: (inner.toList ++ [')']) := by
  rw [String.toList_append, String.toList_append]
  rfl

/-- A text that is no group has nothing to take out of parentheses. -/
theorem ungroup?_eq_none_iff {text : String} : ungroup? text.toList = none ↔ ¬ IsGroup text := by
  rw [Option.eq_none_iff_forall_not_mem]
  constructor
  · rintro none ⟨inner, rfl⟩
    exact none inner.toList (ungroup?_eq_some_iff.2 (toList_group inner))
  · intro noGroup inner isInner
    refine noGroup ⟨String.ofList inner, ?_⟩
    rw [← String.toList_inj, toList_group, String.toList_ofList]
    exact ungroup?_eq_some_iff.1 isInner

/-- An optional group spells what it holds, with a question mark behind it. -/
theorem routeSegment_group (inner : String) :
    routeSegment ("(" ++ inner ++ ")") = (routeSegment inner).map (· ++ "?") := by
  have isGroup : ungroup? ("(" ++ inner ++ ")").toList = some inner.toList :=
    ungroup?_eq_some_iff.2 (toList_group inner)
  rw [routeSegment, segmentChars]
  split
  next other isOther =>
    cases isGroup.symm.trans isOther
    rw [routeSegment, Option.map_map, Option.map_map]
    exact Option.map_congr fun segment _ => String.ofList_append
  next none =>
    rw [isGroup] at none
    cases none

/-- Nested groups spell what the innermost one holds, with a question mark for each. -/
theorem routeSegment_grouped (depth : Nat) (core : String) :
    routeSegment (grouped depth core) = (routeSegment core).map (· ++ optionalMarks depth) := by
  induction depth with
  | zero =>
    rw [grouped]
    simp [optionalMarks]
  | succ depth ih =>
    rw [grouped, routeSegment_group, ih, Option.map_map]
    exact Option.map_congr fun segment _ => String.append_assoc

/-- A base name that is no group is a plain one. -/
theorem routeSegment_core {core : String} (noGroup : ¬ IsGroup core) :
    routeSegment core = (plainSegment core.toList).map String.ofList := by
  have none := ungroup?_eq_none_iff.2 noGroup
  rw [routeSegment, segmentChars]
  split
  next isGroup =>
    rw [none] at isGroup
    cases isGroup
  next => rfl

/-! ## Cores -/

/-- The characters of a name behind an underscore. -/
theorem toList_underscore (rest : String) : ("_" ++ rest).toList = '_' :: rest.toList :=
  String.toList_append

/-- The characters of a name behind a dollar sign. -/
theorem toList_dollar (rest : String) : ("$" ++ rest).toList = '$' :: rest.toList :=
  String.toList_append

/-- A plain base name spells nothing if an underscore stands in front. -/
theorem plainSegment_eq_none_iff {core : String} :
    plainSegment core.toList = none ↔ ∃ rest, core = "_" ++ rest := by
  constructor
  · intro none
    rw [plainSegment.eq_def] at none
    split at none
    next rest isCore =>
      refine ⟨String.ofList rest, ?_⟩
      rw [← String.toList_inj, toList_underscore, String.toList_ofList, isCore]
    all_goals cases none
  · rintro ⟨rest, rfl⟩
    rw [toList_underscore, plainSegment]

/-- A name behind a dollar sign spells a parameter. -/
theorem plainSegment_parameter {parameter : String} (filled : parameter ≠ "") :
    plainSegment ("$" ++ parameter).toList = some (":" ++ parameter).toList := by
  have more : parameter.toList ≠ [] := fun none => filled (String.toList_eq_nil_iff.1 none)
  rw [toList_dollar, plainSegment, String.toList_append]
  · rfl
  · exact more

/-- Any other plain base name spells itself. -/
theorem plainSegment_other {core : String} (notReserved : ∀ rest, core ≠ "_" ++ rest)
    (noParameter : ∀ rest, core ≠ "$" ++ rest) : plainSegment core.toList = some core.toList := by
  have starts : ∀ {first : Char} {rest : List Char}, core.toList = first :: rest →
      first ≠ '_' ∧ first ≠ '$' := by
    intro first rest isCore
    constructor <;> rintro rfl
    · refine notReserved (String.ofList rest) ?_
      rw [← String.toList_inj, toList_underscore, String.toList_ofList, isCore]
    · refine noParameter (String.ofList rest) ?_
      rw [← String.toList_inj, toList_dollar, String.toList_ofList, isCore]
  rw [plainSegment.eq_def]
  split
  next isCore => exact absurd rfl (starts isCore).1
  next isCore => exact absurd rfl (starts isCore).2
  next isCore => exact absurd rfl (starts isCore).2
  next => rfl

/-! ## Closed forms -/

/-- A core that is no group stands at the largest depth. -/
theorem le_of_grouped_eq {depth other : Nat} {core inner : String} (noGroup : ¬ IsGroup core)
    (same : grouped depth core = grouped other inner) : other ≤ depth := by
  induction other generalizing depth with
  | zero => exact Nat.zero_le depth
  | succ other ih =>
    cases depth with
    | zero => exact absurd ⟨_, same⟩ noGroup
    | succ depth =>
      rw [grouped, grouped, String.append_left_inj, String.append_right_inj] at same
      exact Nat.succ_le_succ (ih same)

/-- Texts that are alike in equally many parentheses are alike. -/
theorem grouped_injective (depth : Nat) {core inner : String}
    (same : grouped depth core = grouped depth inner) : core = inner := by
  induction depth with
  | zero => exact same
  | succ depth ih =>
    rw [grouped, grouped, String.append_left_inj, String.append_right_inj] at same
    exact ih same

/-- Every base name is a text that is no group in some number of parentheses. -/
theorem exists_grouped (base : String) :
    ∃ depth core, base = grouped depth core ∧ ¬ IsGroup core := by
  induction isLength : base.length using Nat.strongRecOn generalizing base with
  | ind length ih =>
    by_cases isGroup : IsGroup base
    · obtain ⟨inner, rfl⟩ := isGroup
      rw [String.length_append, String.length_append] at isLength
      have shorter : inner.length < length := by
        rw [← isLength]
        exact Nat.lt_succ_of_lt (Nat.lt_add_of_pos_left (by decide))
      obtain ⟨depth, core, rfl, noGroup⟩ := ih _ shorter inner rfl
      exact ⟨depth + 1, core, rfl, noGroup⟩
    · exact ⟨0, base, rfl, isGroup⟩

/-- Each base name is a core, which is no group, in so many groups, and that in one way
only. -/
theorem existsUnique_grouped (base : String) :
    ∃! form : Nat × String, base = grouped form.1 form.2 ∧ ¬ IsGroup form.2 := by
  obtain ⟨depth, core, rfl, noGroup⟩ := exists_grouped base
  refine ⟨(depth, core), ⟨rfl, noGroup⟩, ?_⟩
  rintro ⟨other, inner⟩ ⟨same, noGroupInner⟩
  obtain rfl : other = depth :=
    Nat.le_antisymm (le_of_grouped_eq noGroup same) (le_of_grouped_eq noGroupInner same.symm)
  rw [grouped_injective other same]

/-- A name is an entry point exactly if it ends like one. Taken apart it loses the ending of
an entry point, or else that of a script, and nothing more. A base name is, in exactly one
way, a core in so many groups that is no group itself, and no other number of groups is
larger. It is reserved exactly if the core starts with an underscore. Otherwise its segment
is `*` for the core `$`, `:x` for a core `$x`, and any other core itself, with a question
mark for each group. -/
theorem ParsedName.closed_form :
    (∀ name : String,
      (isEntryPointName name = true ↔ HasEnding entryPoints name) ∧
      ((ofName name).isEntryPoint = true ↔ HasEnding entryPoints name) ∧
      (∀ base, ∀ ending ∈ entryPoints, name = base ++ ending →
        ofName name = ⟨base, routeSegment base, true⟩) ∧
      (¬ HasEnding entryPoints name → ∀ base, ∀ ending ∈ scripts, name = base ++ ending →
        ofName name = ⟨base, routeSegment base, false⟩) ∧
      (¬ HasEnding scripts name → ofName name = ⟨name, routeSegment name, false⟩)) ∧
    ∀ base : String,
      (∃! form : Nat × String, base = grouped form.1 form.2 ∧ ¬ IsGroup form.2) ∧
      ∀ depth core, base = grouped depth core → ¬ IsGroup core →
        (∀ other inner, base = grouped other inner → other ≤ depth) ∧
        (routeSegment base = none ↔ ∃ rest, core = "_" ++ rest) ∧
        (core = "$" → routeSegment base = some ("*" ++ optionalMarks depth)) ∧
        (∀ parameter, parameter ≠ "" → core = "$" ++ parameter →
          routeSegment base = some (":" ++ parameter ++ optionalMarks depth)) ∧
        ((∀ rest, core ≠ "_" ++ rest) → (∀ rest, core ≠ "$" ++ rest) →
          routeSegment base = some (core ++ optionalMarks depth)) := by
  constructor
  · intro name
    refine ⟨isEntryPointName_iff, isEntryPoint_ofName_iff, ?_, ?_, ofName_other⟩
    · rintro base ending isEnding rfl
      exact ofName_entryPoint isEnding base
    · intro noEntryPoint base ending isEnding isName
      exact ofName_script noEntryPoint isEnding isName
  · intro base
    refine ⟨existsUnique_grouped base, ?_⟩
    rintro depth core rfl noGroup
    have isSegment : ∀ {segment : String}, plainSegment core.toList = some segment.toList →
        routeSegment (grouped depth core) = some (segment ++ optionalMarks depth) := by
      intro segment isPlain
      rw [routeSegment_grouped, routeSegment_core noGroup, isPlain, Option.map_some,
        Option.map_some, String.ofList_toList]
    refine ⟨fun other inner same => le_of_grouped_eq noGroup same, ?_, ?_, ?_, ?_⟩
    · rw [routeSegment_grouped, routeSegment_core noGroup, Option.map_eq_none_iff,
        Option.map_eq_none_iff, plainSegment_eq_none_iff]
    · rintro rfl
      exact isSegment rfl
    · rintro parameter filled rfl
      exact isSegment (plainSegment_parameter filled)
    · exact fun notReserved noParameter => isSegment (plainSegment_other notReserved noParameter)

/-- Only one of two endings is stripped, the marker in front of a script's ending does not
count, and a parameter stands in two groups and a half. -/
theorem ParsedName.closed_form_nested :
    ofName "a.ts.entrypoint.jsx" = ⟨"a.ts", routeSegment "a.ts", true⟩ ∧
      ¬ HasEnding entryPoints "a.entrypoint.ts.js" ∧
      ofName "a.entrypoint.ts.js" = ⟨"a.entrypoint.ts", routeSegment "a.entrypoint.ts", false⟩ ∧
      ¬ HasEnding scripts "a.ts.css" ∧
      ofName "a.ts.css" = ⟨"a.ts.css", routeSegment "a.ts.css", false⟩ ∧
      "(($id)))" = grouped 2 "$id)" ∧ ¬ IsGroup "$id)" ∧
      routeSegment "(($id)))" = some ":id)??" := by
  obtain ⟨names, bases⟩ := closed_form
  have markedScript : ¬ HasEnding entryPoints "a.entrypoint.ts.js" :=
    beforeSuffix?_eq_none_iff.1 (by decide)
  have noScript : ¬ HasEnding scripts "a.ts.css" := beforeSuffix?_eq_none_iff.1 (by decide)
  have noGroup : ¬ IsGroup "$id)" := ungroup?_eq_none_iff.1 (by decide)
  have inGroups : "(($id)))" = grouped 2 "$id)" := by decide
  obtain ⟨-, -, entryPoint, -⟩ := names "a.ts.entrypoint.jsx"
  obtain ⟨-, -, -, script, -⟩ := names "a.entrypoint.ts.js"
  obtain ⟨-, -, -, -, other⟩ := names "a.ts.css"
  obtain ⟨-, -, -, parameter, -⟩ := (bases "(($id)))").2 2 "$id)" inGroups noGroup
  exact ⟨entryPoint "a.ts" ".entrypoint.jsx" (by decide) (by decide), markedScript,
    script markedScript "a.entrypoint.ts" ".js" (by decide) (by decide), noScript,
    other noScript, inGroups, noGroup, parameter "id)" (by decide) (by decide)⟩

end RouteAtlas
