import RouteAtlas.FileSystem.Resolution
import RouteAtlas.Proofs.FileSystem.Items

/-!
# Walks

How a walk goes on at each kind of step (`FileSystem.walk_name` at a name), and the ways
in which one can succeed (`FileSystem.Walks`): it ends where the steps end, at a file, at a
free name that is to be created or at a link that is kept, and it goes on in directories
and behind links. What is proved of walks that succeed is proved by induction on these
ways, which follows links and steps at the same time.
-/

set_option autoImplicit false

namespace RouteAtlas

namespace FileSystem

variable {fs : FileSystem}

/-- Whether a step is looked up by its name. -/
def LooksUp (step : String) : Prop := step ≠ "" ∧ step ≠ "." ∧ step ≠ ".."

/-! ## Single steps -/

/-- What follows a link in a walk that may follow so many. -/
def followLink (fs : FileSystem) (last : LastStep) :
    Nat → Location → Path → List String → Except OsError Location
  | 0, _, _, _ => .error .tooManyLinks
  | links + 1, here, target, rest =>
    if target.text.isEmpty then .error .notFound
    else fs.walk last links (start target here) (target.steps ++ rest)

/-- A walk hands links on to one with fewer links left. -/
theorem walk_eq_walkWith (fs : FileSystem) (last : LastStep) (links : Nat) :
    fs.walk last links = fs.walkWith last (fs.followLink last links) := by
  cases links <;> rfl

/-- A walk without steps stays. -/
@[simp] theorem walk_nil (fs : FileSystem) (last : LastStep) (links : Nat) (here : Location) :
    fs.walk last links here [] = .ok here := by
  rw [walk_eq_walkWith, walkWith]

/-- A step that does not move is passed over. -/
theorem walk_stay {step : String} (stays : step = "" ∨ step = ".") (last : LastStep)
    (links : Nat) (here : Location) (rest : List String) :
    fs.walk last links here (step :: rest) = fs.walk last links here rest := by
  rw [walk_eq_walkWith, walkWith, if_pos stays]

/-- A step up leaves the directory. -/
theorem walk_up (last : LastStep) (links : Nat) (here : Location) (rest : List String) :
    fs.walk last links here (".." :: rest) = fs.walk last links here.dropLast rest := by
  rw [walk_eq_walkWith, walkWith, if_neg (by decide), if_pos rfl]

/-- How a walk goes on at a name. -/
theorem walk_name {step : String} (looksUp : LooksUp step) (last : LastStep) (links : Nat)
    (here : Location) (rest : List String) :
    fs.walk last links here (step :: rest) =
      if last = .create ∧ rest = [""] then .error .isADirectory
      else if isTooLong last here step then .error .nameTooLong
      else
        match fs.kind? (here ++ [step]) with
        | none =>
          if last = .create ∧ rest = [] then .ok (here ++ [step]) else .error .notFound
        | some .directory => fs.walk last links (here ++ [step]) rest
        | some .file => if rest = [] then .ok (here ++ [step]) else .error .notADirectory
        | some (.link target) =>
          if last = .keepLink ∧ rest = [] then .ok (here ++ [step])
          else fs.followLink last links here target rest := by
  rw [walk_eq_walkWith, walkWith, if_neg (not_or.2 ⟨looksUp.1, looksUp.2.1⟩),
    if_neg looksUp.2.2, kind?]
  rcases fs.item? (here ++ [step]) with _ | (_ | _ | _) <;> rfl

/-- A name within the limit can be looked up, unless a canonical path is asked for. -/
theorem isTooLong_eq_false {step : String} (short : step.utf8ByteSize ≤ nameLimit)
    {last : LastStep} (notCanonical : last ≠ .canonical) (here : Location) :
    isTooLong last here step = false := by
  rw [isTooLong, Bool.or_eq_false_iff, Bool.and_eq_false_iff]
  exact ⟨decide_eq_false (Nat.not_lt.2 short), .inl (beq_eq_false_iff_ne.2 notCanonical)⟩

/-! ## Walks that succeed -/

/-- The steps of a walk that succeeds, for what it is made and with as many links to
follow. -/
inductive Walks (fs : FileSystem) (last : LastStep) :
    Nat → Location → List String → Location → Prop
  | done (links : Nat) (here : Location) : Walks fs last links here [] here
  | stay {links : Nat} {here out : Location} {step : String} {rest : List String}
      (stays : step = "" ∨ step = ".") (walks : Walks fs last links here rest out) :
      Walks fs last links here (step :: rest) out
  | up {links : Nat} {here out : Location} {rest : List String}
      (walks : Walks fs last links here.dropLast rest out) :
      Walks fs last links here (".." :: rest) out
  | down {links : Nat} {here out : Location} {step : String} {rest : List String}
      (looksUp : LooksUp step) (noSlash : ¬ (last = .create ∧ rest = [""]))
      (short : isTooLong last here step = false)
      (isDirectory : fs.kind? (here ++ [step]) = some .directory)
      (walks : Walks fs last links (here ++ [step]) rest out) :
      Walks fs last links here (step :: rest) out
  | file {links : Nat} {here : Location} {step : String} (looksUp : LooksUp step)
      (short : isTooLong last here step = false)
      (isFile : fs.kind? (here ++ [step]) = some .file) :
      Walks fs last links here [step] (here ++ [step])
  | free {links : Nat} {here : Location} {step : String} (creates : last = .create)
      (looksUp : LooksUp step) (short : isTooLong last here step = false)
      (isFree : fs.kind? (here ++ [step]) = none) :
      Walks fs last links here [step] (here ++ [step])
  | keep {links : Nat} {here : Location} {step : String} {target : Path}
      (keeps : last = .keepLink) (looksUp : LooksUp step)
      (short : isTooLong last here step = false)
      (isLink : fs.kind? (here ++ [step]) = some (.link target)) :
      Walks fs last links here [step] (here ++ [step])
  | jump {links : Nat} {here out : Location} {step : String} {rest : List String} {target : Path}
      (looksUp : LooksUp step) (noSlash : ¬ (last = .create ∧ rest = [""]))
      (follows : ¬ (last = .keepLink ∧ rest = [])) (short : isTooLong last here step = false)
      (isLink : fs.kind? (here ++ [step]) = some (.link target)) (filled : target.text ≠ "")
      (walks : Walks fs last links (start target here) (target.steps ++ rest) out) :
      Walks fs last (links + 1) here (step :: rest) out

variable {last : LastStep} {links : Nat} {here out : Location} {steps : List String}

/-- A walk that ends has gone step by step. -/
theorem Walks.of_walk (walked : fs.walk last links here steps = .ok out) :
    Walks fs last links here steps out := by
  induction links using Nat.strongRecOn generalizing here steps with
  | ind links ihLinks =>
    induction steps generalizing here with
    | nil =>
      rw [walk_nil] at walked
      cases walked
      exact .done links _
    | cons step rest ih =>
      by_cases stays : step = "" ∨ step = "."
      · rw [walk_stay stays] at walked
        exact .stay stays (ih walked)
      by_cases goesUp : step = ".."
      · subst goesUp
        rw [walk_up] at walked
        exact .up (ih walked)
      have looksUp : LooksUp step := ⟨(not_or.1 stays).1, (not_or.1 stays).2, goesUp⟩
      rw [walk_name looksUp] at walked
      split at walked
      next => cases walked
      next noSlash =>
        split at walked
        next => cases walked
        next notLong =>
          have short := Bool.eq_false_iff.2 notLong
          split at walked
          next isFree =>
            split at walked
            next isLast =>
              obtain ⟨creates, rfl⟩ := isLast
              cases walked
              exact .free creates looksUp short isFree
            next => cases walked
          next isDirectory => exact .down looksUp noSlash short isDirectory (ih walked)
          next isFile =>
            split at walked
            next isLast =>
              subst isLast
              cases walked
              exact .file looksUp short isFile
            next => cases walked
          next target isLink =>
            split at walked
            next isLast =>
              obtain ⟨keeps, rfl⟩ := isLast
              cases walked
              exact .keep keeps looksUp short isLink
            next follows =>
              cases links with
              | zero => cases walked
              | succ links =>
                rw [followLink] at walked
                split at walked
                next => cases walked
                next filled =>
                  refine .jump looksUp noSlash follows short isLink ?_
                    (ihLinks links (Nat.lt_succ_self links) walked)
                  exact fun empty => filled (String.isEmpty_iff.2 empty)

/-- A walk succeeds in these ways and in no other. -/
theorem walk_eq_ok_iff :
    fs.walk last links here steps = .ok out ↔ Walks fs last links here steps out := by
  refine ⟨.of_walk, fun walks => ?_⟩
  induction walks with
  | done => exact walk_nil _ _ _ _
  | stay stays _ ih => rw [walk_stay stays, ih]
  | up _ ih => rw [walk_up, ih]
  | down looksUp noSlash short isDirectory _ ih =>
    rw [walk_name looksUp, if_neg noSlash, short, isDirectory]
    exact ih
  | file looksUp short isFile =>
    rw [walk_name looksUp, if_neg (by simp), short, isFile]
    rfl
  | free creates looksUp short isFree =>
    rw [walk_name looksUp, if_neg (by simp), short, isFree]
    simp [creates]
  | keep keeps looksUp short isLink =>
    rw [walk_name looksUp, if_neg (by simp), short, isLink]
    simp [keeps]
  | jump looksUp noSlash follows short isLink filled _ ih =>
    have notEmpty := String.isEmpty_eq_false_iff.2 filled
    rw [walk_name looksUp, if_neg noSlash, short, isLink]
    simp only [Bool.false_eq_true, if_false, if_neg follows, followLink, notEmpty]
    exact ih

end FileSystem

end RouteAtlas
