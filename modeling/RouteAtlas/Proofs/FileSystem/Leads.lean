import RouteAtlas.Proofs.FileSystem.Walks
import RouteAtlas.Proofs.Path

/-!
# Where steps lead

`FileSystem.Leads` says that some steps lead from one directory to another and
how many links are followed on the way. It is what a walk does as long as it
stays in directories, whatever the walk is for: `FileSystem.Leads.walk` cuts such
steps off the front of a walk, and every walk that ends in a directory consists
of them (`FileSystem.leads_of_walk`).

Unlike a walk, the relation does not look at steps that stay
(`FileSystem.Leads.of_filter_eq`), can be cut anywhere
(`FileSystem.leads_append_iff`), and holds in every file system that has the same
directories and links (`FileSystem.Leads.mono`).
-/

set_option autoImplicit false

namespace RouteAtlas

namespace FileSystem

variable {fs : FileSystem}

/-- The given steps lead from one directory to another through as many links. -/
inductive Leads (fs : FileSystem) : Nat → Location → List String → Location → Prop
  | done (here : Location) : Leads fs 0 here [] here
  | stay {links : Nat} {here out : Location} {step : String} {rest : List String}
      (stays : step = "" ∨ step = ".") (leads : Leads fs links here rest out) :
      Leads fs links here (step :: rest) out
  | up {links : Nat} {here out : Location} {rest : List String}
      (leads : Leads fs links here.dropLast rest out) : Leads fs links here (".." :: rest) out
  | down {links : Nat} {here out : Location} {step : String} {rest : List String}
      (looksUp : LooksUp step) (short : step.utf8ByteSize ≤ nameLimit)
      (isDirectory : fs.kind? (here ++ [step]) = some .directory)
      (leads : Leads fs links (here ++ [step]) rest out) : Leads fs links here (step :: rest) out
  | jump {links : Nat} {here out : Location} {step : String} {rest : List String} {target : Path}
      (looksUp : LooksUp step) (short : step.utf8ByteSize ≤ nameLimit)
      (isLink : fs.kind? (here ++ [step]) = some (.link target)) (filled : target.text ≠ "")
      (leads : Leads fs links (start target here) (target.steps ++ rest) out) :
      Leads fs (links + 1) here (step :: rest) out

/-! ## Walks between directories -/

/-- Steps in front of steps that go on go on as well. -/
theorem append_goesOn {rest : List String} (filled : rest ≠ [] ∧ rest ≠ [""])
    (steps : List String) : steps ++ rest ≠ [] ∧ steps ++ rest ≠ [""] := by
  refine ⟨fun none => filled.1 (List.append_eq_nil_iff.1 none).2, fun one => ?_⟩
  rcases List.append_eq_singleton_iff.1 one with ⟨_, isRest⟩ | ⟨_, isRest⟩
  · exact filled.2 isRest
  · exact filled.1 isRest

/-- Steps that lead to a directory can be cut off the front of a walk, unless the
walk is not for following links and ends there. -/
theorem Leads.walk {links : Nat} {here out : Location} {steps : List String}
    (leads : Leads fs links here steps out) {last : LastStep} {allowed : Nat}
    (enough : links ≤ allowed) (notCanonical : last ≠ .canonical) {rest : List String}
    (goesOn : last = .follow ∨ rest ≠ [] ∧ rest ≠ [""]) :
    fs.walk last allowed here (steps ++ rest) = fs.walk last (allowed - links) out rest := by
  have notCreate : ∀ steps, ¬ (last = .create ∧ steps ++ rest = [""]) := by
    rintro steps ⟨rfl, one⟩
    rcases goesOn with impossible | filled
    · cases impossible
    · exact (append_goesOn filled steps).2 one
  have notKeep : ∀ steps, ¬ (last = .keepLink ∧ steps ++ rest = []) := by
    rintro steps ⟨rfl, none⟩
    rcases goesOn with impossible | filled
    · cases impossible
    · exact (append_goesOn filled steps).1 none
  induction leads generalizing allowed with
  | done => rfl
  | stay stays _ ih => rw [List.cons_append, walk_stay stays, ih enough]
  | up _ ih => rw [List.cons_append, walk_up, ih enough]
  | @down links here out step steps looksUp short isDirectory _ ih =>
    rw [List.cons_append, walk_name looksUp, if_neg (notCreate steps),
      isTooLong_eq_false short notCanonical, isDirectory]
    exact ih enough
  | @jump links here out step steps target looksUp short isLink filled _ ih =>
    obtain ⟨allowed, rfl⟩ := Nat.exists_eq_add_of_le' (Nat.le_of_add_left_le enough)
    have notEmpty : target.text.isEmpty = false := by
      rwa [String.isEmpty_eq_false_iff]
    rw [List.cons_append, walk_name looksUp, if_neg (notCreate steps),
      isTooLong_eq_false short notCanonical, isLink]
    simp only [Bool.false_eq_true, if_false, if_neg (notKeep steps), followLink, notEmpty]
    rw [← List.append_assoc, ih (Nat.le_of_add_le_add_right enough), Nat.add_sub_add_right]

/-- Steps that lead somewhere are walked, if no fewer links are allowed than they meet. -/
theorem Leads.walk_follow {links allowed : Nat} {here out : Location} {steps : List String}
    (leads : Leads fs links here steps out) (enough : links ≤ allowed) :
    fs.walk .follow allowed here steps = .ok out := by
  have walked : fs.walk .follow allowed here (steps ++ []) = _ :=
    leads.walk enough (by decide) (.inl rfl)
  rwa [List.append_nil, walk_nil] at walked

/-- Every walk that follows links to a directory takes steps that lead there. -/
theorem leads_of_walk {allowed : Nat} {here out : Location} {steps : List String}
    (walked : fs.walk .follow allowed here steps = .ok out)
    (isDirectory : fs.kind? out = some .directory) :
    ∃ links, links ≤ allowed ∧ Leads fs links here steps out := by
  have shortName : ∀ {here : Location} {step : String}, isTooLong .follow here step = false →
      step.utf8ByteSize ≤ nameLimit := by
    intro here step short
    simpa [isTooLong] using short
  have walks := Walks.of_walk walked
  clear walked
  induction walks with
  | done => exact ⟨0, Nat.zero_le _, .done _⟩
  | stay stays _ ih =>
    obtain ⟨links, enough, leads⟩ := ih isDirectory
    exact ⟨links, enough, .stay stays leads⟩
  | up _ ih =>
    obtain ⟨links, enough, leads⟩ := ih isDirectory
    exact ⟨links, enough, .up leads⟩
  | down looksUp _ short isHere _ ih =>
    obtain ⟨links, enough, leads⟩ := ih isDirectory
    exact ⟨links, enough, .down looksUp (shortName short) isHere leads⟩
  | file _ _ isFile =>
    rw [isFile] at isDirectory
    cases isDirectory
  | free creates => cases creates
  | keep keeps => cases keeps
  | jump looksUp _ _ short isLink filled _ ih =>
    obtain ⟨links, enough, leads⟩ := ih isDirectory
    exact ⟨links + 1, Nat.succ_le_succ enough, .jump looksUp (shortName short) isLink filled leads⟩

/-! ## The relation -/

/-- Steps lead to one location only. -/
theorem Leads.unique {links others : Nat} {here out other : Location} {steps : List String}
    (leads : Leads fs links here steps out) (leadsOther : Leads fs others here steps other) :
    out = other := by
  have walked := leads.walk_follow (Nat.le_add_right links others)
  have walkedOther := leadsOther.walk_follow (Nat.le_add_left others links)
  exact Except.ok.inj (walked.symm.trans walkedOther)

/-- Steps can be cut anywhere. -/
theorem leads_append_iff {links : Nat} {here out : Location} {steps rest : List String} :
    Leads fs links here (steps ++ rest) out ↔
      ∃ first second mid, links = first + second ∧ Leads fs first here steps mid ∧
        Leads fs second mid rest out := by
  constructor
  · intro leads
    have atOnce : ∀ {links : Nat} {here : Location} {rest : List String},
        Leads fs links here rest out → ∃ first second mid, links = first + second ∧
          Leads fs first here [] mid ∧ Leads fs second mid rest out :=
      fun leads => ⟨0, _, _, (Nat.zero_add _).symm, .done _, leads⟩
    generalize isAll : steps ++ rest = all at leads
    induction leads generalizing steps with
    | done here =>
      obtain ⟨rfl, rfl⟩ := List.append_eq_nil_iff.1 isAll
      exact atOnce (.done here)
    | stay stays leads ih =>
      rcases steps with _ | ⟨step, steps⟩
      · cases isAll
        exact atOnce (.stay stays leads)
      · cases isAll
        obtain ⟨first, second, mid, rfl, before, after⟩ := ih atOnce rfl
        exact ⟨first, second, mid, rfl, .stay stays before, after⟩
    | up leads ih =>
      rcases steps with _ | ⟨step, steps⟩
      · cases isAll
        exact atOnce (.up leads)
      · cases isAll
        obtain ⟨first, second, mid, rfl, before, after⟩ := ih atOnce rfl
        exact ⟨first, second, mid, rfl, .up before, after⟩
    | down looksUp short isDirectory leads ih =>
      rcases steps with _ | ⟨step, steps⟩
      · cases isAll
        exact atOnce (.down looksUp short isDirectory leads)
      · cases isAll
        obtain ⟨first, second, mid, rfl, before, after⟩ := ih atOnce rfl
        exact ⟨first, second, mid, rfl, .down looksUp short isDirectory before, after⟩
    | @jump links here out step others target looksUp short isLink filled leads ih =>
      rcases steps with _ | ⟨step, steps⟩
      · cases isAll
        exact atOnce (.jump looksUp short isLink filled leads)
      · cases isAll
        obtain ⟨first, second, mid, rfl, before, after⟩ :=
          ih atOnce (List.append_assoc target.steps steps rest)
        exact ⟨first + 1, second, mid, Nat.add_right_comm _ _ _,
          .jump looksUp short isLink filled before, after⟩
  · rintro ⟨first, second, mid, rfl, leads, leadsOn⟩
    induction leads with
    | done => rwa [Nat.zero_add]
    | stay stays _ ih => exact .stay stays (ih leadsOn)
    | up _ ih => exact .up (ih leadsOn)
    | down looksUp short isDirectory _ ih => exact .down looksUp short isDirectory (ih leadsOn)
    | jump looksUp short isLink filled _ ih =>
      rw [Nat.add_right_comm]
      refine .jump looksUp short isLink filled ?_
      rw [List.append_eq, ← List.append_assoc]
      exact ih leadsOn

/-- Steps that do not move may come behind. -/
theorem Leads.stays {links : Nat} {here out : Location} {steps rest : List String}
    (stays : ∀ step ∈ steps, isMove step ≠ true) (leads : Leads fs links here rest out) :
    Leads fs links here (steps ++ rest) out := by
  induction steps with
  | nil => exact leads
  | cons step steps ih =>
    have first : step = "" ∨ step = "." := by
      simpa [isMove, Decidable.or_iff_not_imp_left] using stays step List.mem_cons_self
    exact .stay first (ih fun other member => stays other (List.mem_cons_of_mem _ member))

/-- A name moves. -/
theorem LooksUp.isMove {step : String} (looksUp : LooksUp step) : isMove step = true := by
  simp [RouteAtlas.isMove, looksUp.1, looksUp.2.1]

/-- Steps with the same moves lead to the same directory. -/
theorem Leads.of_filter_eq {links : Nat} {here out : Location} {steps others : List String}
    (leads : Leads fs links here steps out)
    (same : others.filter isMove = steps.filter isMove) : Leads fs links here others out := by
  induction leads generalizing others with
  | done here =>
    rw [List.filter_nil, List.filter_eq_nil_iff] at same
    rw [← List.append_nil others]
    exact .stays same (.done here)
  | stay stays _ ih =>
    refine ih (same.trans (List.filter_cons_of_neg ?_))
    rcases stays with rfl | rfl <;> decide
  | up _ ih =>
    rw [List.filter_cons_of_pos (by decide), List.filter_eq_cons_iff] at same
    obtain ⟨before, after, rfl, stays, -, sameAfter⟩ := same
    exact .stays stays (.up (ih sameAfter))
  | down looksUp short isDirectory _ ih =>
    rw [List.filter_cons_of_pos looksUp.isMove, List.filter_eq_cons_iff] at same
    obtain ⟨before, after, rfl, stays, -, sameAfter⟩ := same
    exact .stays stays (.down looksUp short isDirectory (ih sameAfter))
  | jump looksUp short isLink filled _ ih =>
    rw [List.filter_cons_of_pos looksUp.isMove, List.filter_eq_cons_iff] at same
    obtain ⟨before, after, rfl, stays, -, sameAfter⟩ := same
    refine .stays stays (.jump looksUp short isLink filled (ih ?_))
    rw [List.filter_append, List.filter_append, sameAfter]

/-- Steps lead to the same directory in any file system with the same directories
and links. -/
theorem Leads.mono {other : FileSystem} {links : Nat} {here out : Location}
    {steps : List String} (leads : Leads fs links here steps out)
    (kept : ∀ location kind, kind ≠ .file → fs.kind? location = some kind →
      other.kind? location = some kind) : Leads other links here steps out := by
  induction leads with
  | done here => exact .done here
  | stay stays _ ih => exact .stay stays ih
  | up _ ih => exact .up ih
  | down looksUp short isDirectory _ ih =>
    exact .down looksUp short (kept _ _ nofun isDirectory) ih
  | jump looksUp short isLink filled _ ih =>
    exact .jump looksUp short (kept _ _ nofun isLink) filled ih

/-- Names lead down through directories, without a link. -/
theorem leads_down {here : Location} {names : List String}
    (looksUp : ∀ name ∈ names, LooksUp name ∧ name.utf8ByteSize ≤ nameLimit)
    (directories : ∀ before, before ≠ [] → before <+: names →
      fs.kind? (here ++ before) = some .directory) :
    Leads fs 0 here names (here ++ names) := by
  induction names generalizing here with
  | nil =>
    rw [List.append_nil]
    exact .done here
  | cons name rest ih =>
    obtain ⟨isName, short⟩ := looksUp name List.mem_cons_self
    have first := directories [name] (List.cons_ne_nil _ _) ⟨rest, rfl⟩
    refine .down isName short first ?_
    rw [List.append_cons here name rest]
    refine ih (fun other member => looksUp other (List.mem_cons_of_mem _ member)) ?_
    intro before more isBefore
    rw [← List.append_cons]
    exact directories (name :: before) (List.cons_ne_nil _ _)
      (List.cons_prefix_cons.2 ⟨rfl, isBefore⟩)

end FileSystem

end RouteAtlas
