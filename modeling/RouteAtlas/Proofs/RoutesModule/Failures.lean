import RouteAtlas.Proofs.FileTree.Names
import RouteAtlas.Proofs.RouteTable.Passes
import RouteAtlas.Proofs.RoutesModule.Visits

/-!
# When a file tree has no routes module

Only two things can keep an app from having a routes module: two files of one folder
that claim the same role (`Folder.Rivals`), and two files that make routes and would be
imported under the same name (`Folder.Namesakes`).

A branch is read from the entries of a folder one by one (`Branch.readsFile`). If all
folders are read, then no folder has rivals, no node is out of place, and the entry
points are the files that make routes (`Branch.Made`). If one is not, the failure is
about rivals in it (`Branch.rivals_of_ofFolder`). The passes keep the entry points, so
binding them fails exactly for namesakes.
-/

set_option autoImplicit false

namespace RouteAtlas

/-! ## Clashes -/

/-- The base name that claims a role. -/
def Role.base : Role → String
  | .layout => "_layout"
  | .index => "_index"

/-- The base name of a file. -/
def Label.base (label : Label) : String := (ParsedName.ofName label.name).base

/-- A file claims a role if its base name is that of the role. -/
theorem Label.claims_eq (label : Label) (role : Role) :
    label.claims role = decide (label.base = role.base) := by
  unfold Label.claims Role.ofBase? Label.base
  generalize (ParsedName.ofName label.name).base = base
  by_cases isLayout : base = "_layout"
  · subst isLayout
    cases role <;> rfl
  · by_cases isIndex : base = "_index" <;> cases role <;> simp [Role.base, isLayout, isIndex]

/-- Whether a file makes a route: as a layout, as an index, or at the segment that its
name spells. -/
def Label.makesRoute (label : Label) : Bool :=
  label.base = Role.base .layout || label.base = Role.base .index || label.segment.isSome

/-- Two files of a folder claim the same role. -/
structure Folder.Rivals (holder : Folder) (role : Role) (first second : Label) : Prop where
  isFile : .file first ∈ holder.entries
  isOther : .file second ∈ holder.entries
  different : first ≠ second
  claims : first.base = role.base
  otherClaims : second.base = role.base

/-- Some folder of a tree, at any depth, holds two files that claim the same role. -/
def Folder.HasRivals (tree : Folder) : Prop :=
  ∃ holder ∈ tree.folders, ∃ role first second, holder.Rivals role first second

/-- Two files of a tree make routes and would be imported under the same name. -/
structure Folder.Namesakes (tree : Folder) (first second : Label) : Prop where
  isFile : first ∈ tree.files
  isOther : second ∈ tree.files
  different : first ≠ second
  makesRoute : first.makesRoute = true
  otherMakesRoute : second.makesRoute = true
  sameName : Identifier.ofId first.id = Identifier.ofId second.id

/-- The entry points of those files that make routes. -/
def routed (labels : List Label) : List EntryPoint :=
  (labels.filter Label.makesRoute).map EntryPoint.ofLabel

/-- The entry points of two lists of files come one after the other. -/
theorem routed_append (labels others : List Label) :
    routed (labels ++ others) = routed labels ++ routed others := by
  simp [routed]

/-- A file that makes a route adds an entry point. -/
theorem routed_cons_of_makesRoute {label : Label} (makesRoute : label.makesRoute = true)
    (labels : List Label) : routed (label :: labels) = .ofLabel label :: routed labels := by
  simp [routed, makesRoute]

/-- Any other file adds none. -/
theorem routed_cons_of_noRoute {label : Label} (noRoute : label.makesRoute = false)
    (labels : List Label) : routed (label :: labels) = routed labels := by
  simp [routed, noRoute]

/-! ## Reading one entry -/

namespace Branch

variable {seen read : Branch} {entries rest : List Entry} {label : Label} {failure : Failure}
  {folder : Folder} {α : Type} {view : Label → α} {step : α → String → α}

/-- What comes of reading a file and the entries after it. -/
inductive ReadsFile (seen : Branch) (label : Label) (rest : List Entry) :
    Except Failure Branch → Prop where
  | taken (role : Role) (first : EntryPoint) (claims : label.claims role = true)
      (isTaken : seen.role? role = some first) : ReadsFile seen label rest
        (.error (.roleClaimedTwice role (folderTitle seen.id) first.id label.id))
  | role (role : Role) (claims : ∀ other, label.claims other = decide (other = role))
      (makesRoute : label.makesRoute = true) (free : seen.role? role = none) :
      ReadsFile seen label rest (ofEntries (seen.withRole role (.ofLabel label)) rest)
  | leaf (path : String) (claims : ∀ other, label.claims other = false)
      (makesRoute : label.makesRoute = true) : ReadsFile seen label rest
        ((ofEntries seen rest).map (cons (.leaf (.ofLabel label) path)))
  | none (claims : ∀ other, label.claims other = false) (noRoute : label.makesRoute = false) :
      ReadsFile seen label rest (ofEntries seen rest)

/-- What the reading of a file does is one of the cases of `ReadsFile`. -/
theorem readsFile (seen : Branch) (label : Label) (rest : List Entry) :
    ReadsFile seen label rest (ofEntries seen (.file label :: rest)) := by
  have cases := RouteNode.ofFile?_cases label
  rw [ofEntries]
  generalize RouteNode.ofFile? label = made at cases
  cases cases with
  | role role claims noSegment =>
    dsimp only
    split
    next first isTaken => exact .taken role first (by simp [claims]) isTaken
    next free =>
      refine .role role claims ?_ free
      cases role <;> simp [Label.makesRoute, ← Label.claims_eq, claims]
  | leaf segment claims isSegment =>
    exact .leaf segment claims (by simp [Label.makesRoute, isSegment])
  | none claims noSegment =>
    exact .none claims (by simp [Label.makesRoute, ← Label.claims_eq, claims, noSegment])

/-- A folder in front of other entries is read if it is and they are. -/
theorem ofEntries_folder_eq_ok_iff {inner : Folder} :
    ofEntries seen (.folder inner :: rest) = .ok read ↔
      ∃ branch others, ofFolder inner = .ok branch ∧ ofEntries seen rest = .ok others ∧
        read = others.cons (.branch branch) := by
  rw [ofEntries]
  cases ofFolder inner with
  | error => simp
  | ok branch =>
    dsimp only
    rw [map_eq_ok_iff]
    simp [eq_comm]

/-- A folder in front of other entries fails first. -/
theorem ofEntries_folder_eq_error_iff {inner : Folder} :
    ofEntries seen (.folder inner :: rest) = .error failure ↔
      ofFolder inner = .error failure ∨
        (∃ branch, ofFolder inner = .ok branch) ∧ ofEntries seen rest = .error failure := by
  rw [ofEntries]
  cases ofFolder inner with
  | error => simp
  | ok branch => simp [map_eq_error_iff]

/-! ## What is read -/

/-- A child more adds its entry points, in some order. -/
theorem entryPoints_cons (node : RouteNode) (branch : Branch) :
    (branch.cons node).entryPoints.Perm (RouteNode.entryPoints [node] ++ branch.entryPoints) := by
  have children : ∀ nodes, RouteNode.entryPoints (node :: nodes) =
      RouteNode.entryPoints [node] ++ RouteNode.entryPoints nodes := by
    intro nodes
    cases node <;> simp [RouteNode.entryPoints]
  cases branch
  rw [Branch.cons, Branch.entryPoints, Branch.entryPoints, children, List.append_assoc]
  exact List.perm_append_comm_assoc _ _ _

/-- A role adds an entry point, in some order. -/
theorem entryPoints_withRole {role : Role} (free : seen.role? role = none) (entry : EntryPoint) :
    (seen.withRole role entry).entryPoints.Perm (entry :: seen.entryPoints) := by
  obtain ⟨id, path, layout, index, children⟩ := seen
  cases role with
  | layout =>
    obtain rfl : layout = none := free
    simp [withRole, entryPoints]
  | index =>
    obtain rfl : index = none := free
    have last := @List.perm_middle _ entry (layout.toList ++ RouteNode.entryPoints children) []
    simpa [withRole, entryPoints] using last

/-- The branch read from a folder has no node out of place, and its entry points are the
files of the folder that make routes. -/
structure Made (folder : Folder) (branch : Branch) : Prop where
  clean : Visit.AllEntries branch.visits
  entryPoints : branch.entryPoints.Perm (routed folder.files)

/-- What reading entries adds to a branch, as long as the folders among them are read
well. -/
theorem made_of_ofEntries (isRead : ofEntries seen entries = .ok read)
    (inside : ∀ inner branch, .folder inner ∈ entries → ofFolder inner = .ok branch →
      Made inner branch) (clean : Visit.AllEntries seen.visits) :
    Visit.AllEntries read.visits ∧
      read.entryPoints.Perm (routed (Entry.files entries) ++ seen.entryPoints) := by
  induction entries generalizing seen read with
  | nil =>
    cases isRead
    exact ⟨clean, .refl _⟩
  | cons entry rest ih =>
    have later : ∀ inner branch, .folder inner ∈ rest → ofFolder inner = .ok branch →
        Made inner branch :=
      fun inner branch member => inside inner branch (List.mem_cons_of_mem _ member)
    cases entry with
    | file label =>
      have reads := readsFile seen label rest
      generalize ofEntries seen (.file label :: rest) = outcome at reads isRead
      cases reads with
      | taken => cases isRead
      | role role claims makesRoute free =>
        have cleanNext : Visit.AllEntries (seen.withRole role (.ofLabel label)).visits := by
          rw [allEntries_visits_iff] at clean ⊢
          cases role <;> exact clean
        obtain ⟨cleanRead, added⟩ := ih isRead later cleanNext
        refine ⟨cleanRead, added.trans ?_⟩
        rw [Entry.files, routed_cons_of_makesRoute makesRoute]
        exact ((entryPoints_withRole free _).append_left _).trans List.perm_middle
      | leaf path claims makesRoute =>
        obtain ⟨others, isRest, rfl⟩ := map_eq_ok_iff.1 isRead
        obtain ⟨cleanRest, added⟩ := ih isRest later clean
        constructor
        · rw [allEntries_visits_iff] at cleanRest ⊢
          simpa [cons, RouteNode.visits] using cleanRest
        · rw [Entry.files, routed_cons_of_makesRoute makesRoute]
          exact (entryPoints_cons _ others).trans (added.cons _)
      | none claims noRoute =>
        rw [Entry.files, routed_cons_of_noRoute noRoute]
        exact ih isRead later clean
    | folder inner =>
      obtain ⟨branch, others, isBranch, isRest, rfl⟩ := ofEntries_folder_eq_ok_iff.1 isRead
      obtain ⟨cleanInner, isInner⟩ := inside inner branch List.mem_cons_self isBranch
      obtain ⟨cleanRest, added⟩ := ih isRest later clean
      constructor
      · rw [allEntries_visits_iff] at cleanRest ⊢
        simpa [cons, RouteNode.visits] using ⟨cleanInner, cleanRest⟩
      · rw [Entry.files, routed_append, List.append_assoc]
        refine (entryPoints_cons _ others).trans ?_
        simpa [RouteNode.entryPoints] using isInner.append added

/-- A folder that can be read makes its branch. -/
theorem made_of_ofFolder (derived : folder.Derived view step) {branch : Branch}
    (isRead : ofFolder folder = .ok branch) : Made folder branch := by
  induction derived generalizing branch with
  | intro label entries _ _ ih =>
    have inside : ∀ inner branch, .folder inner ∈ entries → ofFolder inner = .ok branch →
        Made inner branch := fun inner branch member isBranch => ih inner member isBranch
    obtain ⟨clean, added⟩ :=
      made_of_ofEntries isRead inside (by simp [Branch.visits, RouteNode.visits])
    exact ⟨clean, by simpa [Folder.files, Branch.entryPoints, RouteNode.entryPoints] using added⟩

/-! ## Roles -/

/-- Whether an entry is a file that claims a role. -/
def isClaim (role : Role) : Entry → Bool
  | .file label => label.claims role
  | .folder _ => false

/-- Where entries can be read, each role is claimed at most once, earlier claims
included. -/
theorem claims_of_ofEntries (isRead : ofEntries seen entries = .ok read) (role : Role) :
    (seen.role? role).toList.length + entries.countP (isClaim role) ≤ 1 := by
  induction entries generalizing seen read with
  | nil => cases seen.role? role <;> simp
  | cons entry rest ih =>
    rw [List.countP_cons]
    cases entry with
    | file label =>
      have reads := readsFile seen label rest
      generalize ofEntries seen (.file label :: rest) = outcome at reads isRead
      simp only [isClaim]
      cases reads with
      | taken => cases isRead
      | role own claims _ free =>
        have later := ih isRead
        rw [role?_withRole] at later
        simp only [claims, decide_eq_true_eq]
        by_cases same : role = own
        · subst same
          simp only [if_true, Option.toList_some, List.length_singleton] at later
          simp only [free, if_true, Option.toList_none, List.length_nil]
          omega
        · simpa only [if_neg same, Nat.add_zero] using later
      | leaf path claims =>
        obtain ⟨others, isRest, -⟩ := map_eq_ok_iff.1 isRead
        simpa [claims] using ih isRest
      | none claims => simpa [claims] using ih isRead
    | folder inner =>
      obtain ⟨branch, others, -, isRest, -⟩ := ofEntries_folder_eq_ok_iff.1 isRead
      simpa [isClaim] using ih isRest

/-- Where entries can be read, every folder among them can. -/
theorem below_of_ofEntries (isRead : ofEntries seen entries = .ok read) {inner : Folder}
    (member : .folder inner ∈ entries) : ∃ branch, ofFolder inner = .ok branch := by
  induction entries generalizing seen read with
  | nil => cases member
  | cons entry rest ih =>
    cases entry with
    | file label =>
      have isLater : Entry.folder inner ∈ rest := by simpa using member
      have reads := readsFile seen label rest
      generalize ofEntries seen (.file label :: rest) = outcome at reads isRead
      cases reads with
      | taken => cases isRead
      | role => exact ih isRead isLater
      | leaf =>
        obtain ⟨others, isRest, -⟩ := map_eq_ok_iff.1 isRead
        exact ih isRest isLater
      | none => exact ih isRead isLater
    | folder first =>
      obtain ⟨branch, others, isBranch, isRest, -⟩ := ofEntries_folder_eq_ok_iff.1 isRead
      rcases List.mem_cons.1 member with same | isLater
      · cases same
        exact ⟨branch, isBranch⟩
      · exact ih isRest isLater

/-- A folder that can be read holds no rivals, at no depth. -/
theorem no_rivals_of_ofFolder {folder : Folder} (named : folder.Named) {branch : Branch}
    (isRead : ofFolder folder = .ok branch) : ¬ folder.HasRivals := by
  induction named generalizing branch with
  | intro label entries _ _ _ _ ih =>
    rintro ⟨holder, below, role, first, second, rivals⟩
    rw [Folder.folders, List.mem_cons] at below
    rcases below with rfl | below
    · have claims := claims_of_ofEntries isRead role
      have both : [Entry.file first, .file second].Nodup := by simpa using rivals.different
      have listed : [Entry.file first, .file second] ⊆ entries.filter (isClaim role) := by
        simp [isClaim, Label.claims_eq, rivals.isFile, rivals.isOther, rivals.claims,
          rivals.otherClaims]
      have two := both.length_le_of_subset listed
      rw [← List.countP_eq_length_filter, List.length_cons, List.length_singleton] at two
      omega
    · obtain ⟨inner, member, isBelow⟩ := Entry.mem_folders_iff.1 below
      obtain ⟨innerBranch, isInner⟩ := below_of_ofEntries isRead member
      exact ih inner member isInner ⟨holder, isBelow, role, first, second, rivals⟩

/-- Why entries cannot be read after a branch: a file claims a role that is taken, two
files claim the same role, or a folder cannot be read. -/
inductive Clash (seen : Branch) (entries : List Entry) : Failure → Prop where
  | taken (role : Role) (first : EntryPoint) (label : Label) (member : .file label ∈ entries)
      (claims : label.claims role = true) (isTaken : seen.role? role = some first) :
      Clash seen entries (.roleClaimedTwice role (folderTitle seen.id) first.id label.id)
  | rivals (role : Role) (first second : Label)
      (both : [Entry.file first, .file second].Sublist entries)
      (claims : first.claims role = true) (otherClaims : second.claims role = true) :
      Clash seen entries (.roleClaimedTwice role (folderTitle seen.id) first.id second.id)
  | below (inner : Folder) (member : .folder inner ∈ entries) (failure : Failure)
      (failed : ofFolder inner = .error failure) : Clash seen entries failure

/-- A clash among entries is one among more of them. -/
theorem Clash.cons (clash : Clash seen rest failure) (entry : Entry) :
    Clash seen (entry :: rest) failure := by
  cases clash with
  | taken role first label member claims isTaken =>
    exact .taken role first label (List.mem_cons_of_mem _ member) claims isTaken
  | rivals role first second both claims otherClaims =>
    exact .rivals role first second (both.cons entry) claims otherClaims
  | below inner member failure failed =>
    exact .below inner (List.mem_cons_of_mem _ member) failure failed

/-- A clash after a file has taken a role is one of the file with a later one, or one
without it. -/
theorem Clash.of_withRole {role : Role} (claims : label.claims role = true)
    (clash : Clash (seen.withRole role (.ofLabel label)) rest failure) :
    Clash seen (.file label :: rest) failure := by
  have sameId : (seen.withRole role (.ofLabel label)).id = seen.id := by
    cases role <;> rfl
  cases clash with
  | taken other first later member claimsLater isTaken =>
    rw [sameId]
    rw [role?_withRole] at isTaken
    split at isTaken
    next same =>
      cases isTaken
      subst same
      have both := (List.singleton_sublist.2 member).cons_cons (Entry.file label)
      exact .rivals other label later both claims claimsLater
    next => exact .taken other first later (List.mem_cons_of_mem _ member) claimsLater isTaken
  | rivals other first second both claimsFirst claimsSecond =>
    rw [sameId]
    exact .rivals other first second (both.cons _) claimsFirst claimsSecond
  | below inner member failure failed =>
    exact .below inner (List.mem_cons_of_mem _ member) failure failed

/-- Entries that cannot be read clash. -/
theorem clash_of_ofEntries (failed : ofEntries seen entries = .error failure) :
    Clash seen entries failure := by
  induction entries generalizing seen with
  | nil => cases failed
  | cons entry rest ih =>
    cases entry with
    | file label =>
      have reads := readsFile seen label rest
      generalize ofEntries seen (.file label :: rest) = outcome at reads failed
      cases reads with
      | taken role first claims isTaken =>
        cases failed
        exact .taken role first label List.mem_cons_self claims isTaken
      | role role claims => exact .of_withRole (by simp [claims]) (ih failed)
      | leaf => exact (ih (map_eq_error_iff.1 failed)).cons _
      | none => exact (ih failed).cons _
    | folder inner =>
      rcases ofEntries_folder_eq_error_iff.1 failed with failedBelow | ⟨-, failedLater⟩
      · exact .below inner List.mem_cons_self failure failedBelow
      · exact (ih failedLater).cons _

/-- If a folder cannot be read, the failure names two rivals in it or below. -/
theorem rivals_of_ofFolder {folder : Folder} (named : folder.Named)
    (failed : ofFolder folder = .error failure) :
    ∃ holder ∈ folder.folders, ∃ role first second, holder.Rivals role first second ∧
      failure = .roleClaimedTwice role (folderTitle holder.label.id) first.id second.id := by
  induction named with
  | intro label entries sorted _ _ _ ih =>
    cases clash_of_ofEntries failed with
    | taken role first later member claims isTaken => cases role <;> cases isTaken
    | rivals role first second both claims otherClaims =>
      refine ⟨⟨label, entries⟩, by simp [Folder.folders], role, first, second, ?_, rfl⟩
      have different : first ≠ second := by
        rintro rfl
        exact absurd (sorted.nodup.sublist both) (by simp)
      rw [Label.claims_eq, decide_eq_true_eq] at claims otherClaims
      exact ⟨both.subset (by simp), both.subset (by simp), different, claims, otherClaims⟩
    | below inner member failure failedBelow =>
      obtain ⟨holder, isBelow, facts⟩ := ih inner member failedBelow
      refine ⟨holder, ?_, facts⟩
      rw [Folder.folders]
      exact List.mem_cons_of_mem _ (Entry.mem_folders_iff.2 ⟨inner, member, isBelow⟩)

/-! ## Normal forms -/

/-- The normalized route tree of a tree that can be read has the entry points of its
files and no node out of place, and is empty exactly if there is no entry point. -/
theorem made_of_normalizedOf (derived : folder.Derived view step) {branch : Branch}
    (isRead : ofFolder folder = .ok branch) :
    ∃ root, normalizedOf folder = .ok root ∧ Made folder root ∧
      (root.isEmpty = true ↔ root.entryPoints = []) := by
  obtain ⟨clean, entryPoints⟩ := made_of_ofFolder derived isRead
  let raw : Branch := { branch with id := "", path := none }
  have cleanRaw : Visit.AllEntries raw.visits := by
    rwa [visits_relabel branch clean]
  have kept : raw.normalize.visits = branch.visits := by
    rw [visits_normalize raw cleanRaw, visits_relabel branch clean]
  have same : raw.normalize.entryPoints = branch.entryPoints := by
    rw [← entries_visits, kept, entries_visits]
  refine ⟨raw.normalize, ?_, ⟨by rwa [kept], by rwa [same]⟩, ?_⟩
  · rw [normalizedOf, ofFileTree, isRead]
    rfl
  · rw [isEmpty_normalize_iff raw cleanRaw, visits_relabel branch clean, same, ← entries_visits,
      Visit.entries_eq_nil_iff clean]

end Branch

/-- The names that the files of a tree are imported under are all different exactly if no
two of them are namesakes. -/
theorem nodup_localNames_iff {tree : Folder} (named : tree.Named) :
    ((routed tree.files).map EntryPoint.localName).Nodup ↔
      ∀ first second, ¬ tree.Namesakes first second := by
  have nodup : (tree.files.filter Label.makesRoute).Nodup :=
    (List.Nodup.of_map _ named.nodup_ids).filter _
  rw [routed, List.map_map, List.nodup_map_iff_inj_on nodup]
  simp only [List.mem_filter]
  constructor
  · intro unique first second namesakes
    exact namesakes.different (unique first ⟨namesakes.isFile, namesakes.makesRoute⟩ second
      ⟨namesakes.isOther, namesakes.otherMakesRoute⟩ namesakes.sameName)
  · rintro none first ⟨isFile, makesRoute⟩ second ⟨isOther, otherMakesRoute⟩ same
    by_contra different
    exact none first second ⟨isFile, isOther, different, makesRoute, otherMakesRoute, same⟩

/-- Namesakes have different ids. -/
theorem Folder.Namesakes.ids_ne {tree : Folder} (named : tree.Named) {first second : Label}
    (namesakes : tree.Namesakes first second) : first.id ≠ second.id := fun same =>
  namesakes.different
    (List.inj_on_of_nodup_map named.nodup_ids namesakes.isFile namesakes.isOther same)

/-- No file makes two entry points. -/
theorem nodup_routed {tree : Folder} (named : tree.Named) : (routed tree.files).Nodup := by
  have ids : ((tree.files.filter Label.makesRoute).map (·.id)).Nodup :=
    named.nodup_ids.sublist (List.filter_sublist.map _)
  refine List.Nodup.of_map EntryPoint.id ?_
  rwa [routed, List.map_map]

/-- The entry points are those of the files that make a route. -/
theorem mem_routed_iff {labels : List Label} {entry : EntryPoint} :
    entry ∈ routed labels ↔ ∃ label ∈ labels, label.makesRoute = true ∧ .ofLabel label = entry := by
  simp [routed, and_assoc]

/-- There are no entry points if no file makes a route. -/
theorem routed_eq_nil_iff {labels : List Label} :
    routed labels = [] ↔ ∀ label ∈ labels, label.makesRoute = false := by
  simp [routed]

namespace RoutesModule

variable {tree : Folder} {root : Branch} {written : RoutesModule} {failure : Failure}

/-- A tree that cannot be read fails as its reading does. -/
theorem ofFileTree_of_unread (failed : Branch.ofFolder tree = .error failure) :
    ofFileTree tree = .error failure := by
  rw [ofFileTree, Branch.normalizedOf, Branch.ofFileTree, failed]
  rfl

/-- In a module that is written no name is taken twice. -/
theorem distinct_of_made (made : Branch.Made tree root)
    (isEmpty : root.isEmpty = true ↔ root.entryPoints = [])
    (isWritten : ofRoutes root = .ok written) :
    ((routed tree.files).map EntryPoint.localName).Nodup := by
  rw [← (made.entryPoints.map _).nodup_iff]
  cases empty : root.isEmpty with
  | true =>
    rw [isEmpty.1 empty]
    exact List.nodup_nil
  | false => exact ((ofRoutes_eq_ok_iff root empty written).1 isWritten).2.1

/-- A module that is written is the fallback exactly if no file makes a route, and the
fallback alone has no imports. -/
theorem fallback_iff_of_made (made : Branch.Made tree root)
    (isEmpty : root.isEmpty = true ↔ root.entryPoints = [])
    (isWritten : ofRoutes root = .ok written) :
    (written = fallback ↔ ∀ label ∈ tree.files, label.makesRoute = false) ∧
      (written ≠ fallback → written.imports ≠ []) := by
  have noRoute : root.entryPoints = [] ↔ routed tree.files = [] := by
    rw [← List.length_eq_zero_iff, made.entryPoints.length_eq, List.length_eq_zero_iff]
  rw [← routed_eq_nil_iff, ← noRoute, ← isEmpty]
  cases empty : root.isEmpty with
  | true =>
    rw [ofRoutes_of_isEmpty empty] at isWritten
    cases isWritten
    simp
  | false =>
    obtain ⟨-, -, rfl⟩ := (ofRoutes_eq_ok_iff root empty written).1 isWritten
    have some : root.entryPoints ≠ [] := by
      simp [← isEmpty, empty]
    simp [fallback, some]

/-- The only failure of entry points is about namesakes. -/
theorem namesakes_of_made (named : tree.Named) (made : Branch.Made tree root)
    (failed : ofRoutes root = .error failure) :
    ∃ first second, tree.Namesakes first second ∧
      failure = .nameBoundTwice (Identifier.ofId second.id) first.id second.id := by
  cases empty : root.isEmpty with
  | true =>
    rw [ofRoutes_of_isEmpty empty] at failed
    cases failed
  | false =>
    rw [ofRoutes_eq empty] at failed
    have first := (bindVisits_eq_error_iff [] root.visits failure List.nodup_nil).1
      (map_eq_error_iff.1 failed)
    obtain ⟨before, visit, after, split, -, -, offence⟩ := first
    have entries := root.entries_visits
    rw [split] at entries
    cases offence with
    | stray role id directory =>
      refine absurd made.clean fun clean => clean role id directory ?_
      rw [split]
      simp
    | collision earlier later isBound same =>
      rw [Visit.entries_append, Visit.entries_cons_entry] at entries
      have listed : (Visit.entries before ++ later :: Visit.entries after).Perm
          (routed tree.files) := entries ▸ made.entryPoints
      have apart := (List.nodup_append.1 (listed.nodup_iff.2 (nodup_routed named))).2.2
      have isEarlier : earlier ∈ routed tree.files :=
        listed.subset (List.mem_append_left _ isBound)
      have isLater : later ∈ routed tree.files := listed.subset (by simp)
      obtain ⟨first, isFile, makesRoute, rfl⟩ := mem_routed_iff.1 isEarlier
      obtain ⟨second, isOther, otherMakesRoute, rfl⟩ := mem_routed_iff.1 isLater
      refine ⟨first, second, ⟨isFile, isOther, ?_, makesRoute, otherMakesRoute, same⟩, rfl⟩
      rintro rfl
      exact apart _ isBound _ List.mem_cons_self rfl

/-- What becomes of a tree: its folders hold rivals and the failure names two of them, or
it can be read and only namesakes keep it from having a module. -/
theorem ofFileTree_cases (named : tree.Named) :
    (∃ holder ∈ tree.folders, ∃ role first second, holder.Rivals role first second ∧
      ofFileTree tree =
        .error (.roleClaimedTwice role (folderTitle holder.label.id) first.id second.id)) ∨
    ¬ tree.HasRivals ∧
      ((∃ first second, tree.Namesakes first second ∧
        ofFileTree tree = .error (.nameBoundTwice (Identifier.ofId second.id) first.id second.id)) ∨
      (∀ first second, ¬ tree.Namesakes first second) ∧
        ∃ written, ofFileTree tree = .ok written ∧
          (written = fallback ↔ ∀ label ∈ tree.files, label.makesRoute = false) ∧
          (written ≠ fallback → written.imports ≠ [])) := by
  cases isRead : Branch.ofFolder tree with
  | error failure =>
    left
    obtain ⟨holder, isFolder, role, first, second, rivals, rfl⟩ :=
      Branch.rivals_of_ofFolder named isRead
    exact ⟨holder, isFolder, role, first, second, rivals, ofFileTree_of_unread isRead⟩
  | ok branch =>
    right
    refine ⟨Branch.no_rivals_of_ofFolder named isRead, ?_⟩
    obtain ⟨root, isRoot, made, isEmpty⟩ := Branch.made_of_normalizedOf named.derived isRead
    have same : ofFileTree tree = ofRoutes root := by
      rw [ofFileTree, isRoot]
    rw [same]
    cases isWritten : ofRoutes root with
    | error failure =>
      left
      obtain ⟨first, second, namesakes, rfl⟩ := namesakes_of_made named made isWritten
      exact ⟨first, second, namesakes, rfl⟩
    | ok written =>
      right
      have distinct := distinct_of_made made isEmpty isWritten
      exact ⟨(nodup_localNames_iff named).1 distinct, written, rfl,
        fallback_iff_of_made made isEmpty isWritten⟩

/-- An app has no routes module exactly if its configuration is wrong. The failure is about
a role exactly if some folder holds rivals, and then names two of them and their folder.
Otherwise it is about a name exactly if there are namesakes, and then names two files
that would be imported under that name. Otherwise there is a module, which is the
fallback exactly if no file makes a route. No node is ever found out of place, and only
the fallback has no imports. -/
theorem ofFileTree_fails_exactly_for_clashes (tree : Folder) (named : tree.Named) :
    ((∃ role directory first second,
      ofFileTree tree = .error (.roleClaimedTwice role directory first second)) ↔
        tree.HasRivals) ∧
    (∀ role directory first second,
      ofFileTree tree = .error (.roleClaimedTwice role directory first second) →
        ∃ holder ∈ tree.folders, directory = folderTitle holder.label.id ∧
          ∃ file other, holder.Rivals role file other ∧ file.id = first ∧ other.id = second) ∧
    (¬ tree.HasRivals →
      ((∃ name first second, ofFileTree tree = .error (.nameBoundTwice name first second)) ↔
        ∃ file other, tree.Namesakes file other)) ∧
    (∀ name first second, ofFileTree tree = .error (.nameBoundTwice name first second) →
      first ≠ second ∧ Identifier.ofId first = name ∧ Identifier.ofId second = name ∧
        ∃ file other, tree.Namesakes file other ∧ file.id = first ∧ other.id = second) ∧
    (¬ tree.HasRivals → (∀ file other, ¬ tree.Namesakes file other) →
      ∃ written, ofFileTree tree = .ok written ∧
        (written = fallback ↔ ∀ label ∈ tree.files, label.makesRoute = false)) ∧
    (∀ role id directory, ofFileTree tree ≠ .error (.strayRole role id directory)) ∧
    (∀ written, ofFileTree tree = .ok written → written ≠ fallback → written.imports ≠ []) := by
  rcases ofFileTree_cases named with ⟨holder, isFolder, role, file, other, rivals, failed⟩ |
    ⟨noRivals, ⟨file, other, namesakes, failed⟩ | ⟨noNamesakes, written, isWritten, facts⟩⟩
  · have hasRivals : tree.HasRivals := ⟨holder, isFolder, role, file, other, rivals⟩
    rw [failed]
    refine ⟨⟨fun _ => hasRivals, fun _ => ⟨_, _, _, _, rfl⟩⟩, ?_, absurd hasRivals, nofun,
      absurd hasRivals, nofun, nofun⟩
    rintro _ _ _ _ ⟨⟩
    exact ⟨holder, isFolder, rfl, file, other, rivals, rfl, rfl⟩
  · rw [failed]
    refine ⟨⟨nofun, (absurd · noRivals)⟩, nofun, ?_, ?_, ?_, nofun, nofun⟩
    · intro _
      exact ⟨fun _ => ⟨file, other, namesakes⟩, fun _ => ⟨_, _, _, rfl⟩⟩
    · rintro _ _ _ ⟨⟩
      exact ⟨namesakes.ids_ne named, namesakes.sameName, rfl, file, other, namesakes, rfl, rfl⟩
    · intro _ noNamesakes
      exact absurd namesakes (noNamesakes file other)
  · rw [isWritten]
    refine ⟨⟨nofun, (absurd · noRivals)⟩, nofun, ?_, nofun, ?_, nofun, ?_⟩
    · intro _
      exact ⟨nofun, fun ⟨file, other, namesakes⟩ => absurd namesakes (noNamesakes file other)⟩
    · intro _ _
      exact ⟨written, rfl, facts.1⟩
    · rintro _ ⟨⟩
      exact facts.2

/-- A file of the root and one in a folder would have the same name, and no folder holds
rivals, although two folders have a layout. -/
theorem ofFileTree_fails_exactly_for_clashes_one_name :
    let root : Label := ⟨"", ⟨"/app"⟩, "app"⟩
    let below : Label := root.child "a"
    let tree : Folder := ⟨root, [.file (root.child "_layout.entrypoint.ts"),
      .folder ⟨below, [.file (below.child "_layout.entrypoint.ts"),
        .file (below.child "b.entrypoint.ts")]⟩,
      .file (root.child "a_b.entrypoint.ts")]⟩
    tree.Named ∧ ¬ tree.HasRivals ∧ (∃ file other, tree.Namesakes file other) ∧
      ofFileTree tree =
        .error (.nameBoundTwice "a_b_entrypoint_ts" "a/b.entrypoint.ts" "a_b.entrypoint.ts") := by
  intro root below tree
  have named : tree.Named := by
    refine .intro _ _ (by decide) (by decide) (by decide) ?_
    intro inner member
    obtain rfl : inner = _ := by simpa using member
    exact .intro _ _ (by decide) (by decide) (by decide) (by simp)
  obtain ⟨rivals, -, namesakes, -⟩ := ofFileTree_fails_exactly_for_clashes tree named
  have failed : ofFileTree tree =
      .error (.nameBoundTwice "a_b_entrypoint_ts" "a/b.entrypoint.ts" "a_b.entrypoint.ts") :=
    map_eq_error_iff.1 (by decide +kernel : (ofFileTree tree).map (fun _ => ()) = _)
  have noRivals : ¬ tree.HasRivals := by
    rw [← rivals, failed]
    exact nofun
  exact ⟨named, noRivals, (namesakes noRivals).1 ⟨_, _, _, failed⟩, failed⟩

end RoutesModule

end RouteAtlas
