import RouteAtlas.Proofs.Identifier
import RouteAtlas.Proofs.RoutesModule.Failures
import RouteAtlas.Proofs.RoutesModule.Mentions

/-!
# The names of a routes module

A routes module declares the names of its imports and the constant `routes`. If it is
made from a tree of entry points, these are different identifiers, and the routes use
imported names only; and a reader of the words of its text finds these names declared and
used there, and no others (`RoutesModule.wellScoped_ofFileTree`).

The constant is no reserved word, so nothing in the making of a name looks out for it. But
the ending that marks an entry point outlives the making: its dots become underscores and
its letters stay (`Identifier.ofId_ends`), whatever precedes it. So each imported name has
an underscore, and `routes` has none.
-/

set_option autoImplicit false

namespace RouteAtlas

/-! ## Endings -/

/-- The name of an entry point ends in one of the endings that mark it. -/
theorem exists_ending_of_isEntryPointName {name : String} (isEntry : isEntryPointName name = true) :
    ∃ suffix ∈ entryPointSuffixes, suffix <:+ name.toList := by
  obtain ⟨suffix, isEnding, found⟩ := List.findSome?_isSome_iff.1 isEntry
  obtain ⟨base, isBase⟩ := Option.isSome_iff_exists.1 found
  exact ⟨suffix, isEnding, base, List.append_eq_of_isSuffixOf?_eq_some isBase⟩

/-- The id of a child ends in its name. -/
theorem suffix_childId (parent name : String) : name.toList <:+ (childId parent name).toList := by
  unfold childId
  split
  · exact List.suffix_refl _
  · rw [String.toList_append]
    exact List.suffix_append _ _

/-- The id of a file ends in its name. -/
theorem Folder.Derived.suffix_id {tree : Folder} (derived : tree.Derived (·.id) childId)
    {label : Label} (isFile : label ∈ tree.files) : label.name.toList <:+ label.id.toList := by
  induction derived with
  | intro parent entries here _ ih =>
    rw [Folder.files, Entry.mem_files_iff] at isFile
    rcases isFile with isEntry | ⟨inner, isFolder, below⟩
    · have isId : label.id = childId parent.id label.name := here _ isEntry
      rw [isId]
      exact suffix_childId _ _
    · exact ih inner isFolder below

/-- No entry point is imported as `routes`. -/
theorem Folder.Derived.ofId_ne_routes {tree : Folder} (derived : tree.Derived (·.id) childId)
    {label : Label} (isFile : label ∈ tree.files) (isEntry : isEntryPointName label.name = true) :
    Identifier.ofId label.id ≠ "routes" := by
  obtain ⟨suffix, isEnding, endsName⟩ := exists_ending_of_isEntryPointName isEntry
  obtain ⟨front, ends⟩ := endsName.trans (derived.suffix_id isFile)
  obtain ⟨start, isName⟩ := Identifier.ofId_ends isEnding ends.symm
  have underscored : ∀ suffix ∈ entryPointSuffixes, '_' ∈ Identifier.legalize suffix := by
    decide
  intro same
  have inName : '_' ∈ (Identifier.ofId label.id).toList := by
    rw [isName]
    exact List.mem_append_right _ (underscored suffix isEnding)
  rw [same] at inName
  exact absurd inName (by decide)

/-! ## Scopes -/

namespace RoutesModule

/-- Whether the imports of a module declare different identifiers, none of them that of
the route list, and the routes use no other names. -/
structure WellScoped (program : RoutesModule) : Prop where
  identifiers : ∀ item ∈ program.imports, Identifier.IsIdentifier item.localName
  notRoutes : ∀ item ∈ program.imports, item.localName ≠ "routes"
  distinct : (program.imports.map Import.localName).Nodup
  imported : ∀ name ∈ program.names, name ∈ program.imports.map Import.localName

/-- The module without routes is well scoped. -/
theorem wellScoped_fallback : fallback.WellScoped where
  identifiers := nofun
  notRoutes := nofun
  distinct := List.nodup_nil
  imported := by simp [fallback, names, RouteObject.allNames, RouteObject.names,
    Property.allNames, Property.names, Value.names]

/-- A module of entry points that are imported under other names than `routes` is well
scoped. -/
theorem wellScoped_ofRoutes {root : Branch} {written : RoutesModule}
    (notRoutes : ∀ entry ∈ root.entryPoints, entry.localName ≠ "routes")
    (isWritten : ofRoutes root = .ok written) : written.WellScoped := by
  cases empty : root.isEmpty with
  | true =>
    rw [ofRoutes_of_isEmpty empty] at isWritten
    cases isWritten
    exact wellScoped_fallback
  | false =>
    obtain ⟨clean, distinct, rfl⟩ := (ofRoutes_eq_ok_iff root empty written).1 isWritten
    have locals : (root.entryPoints.map EntryPoint.toImport).map Import.localName =
        root.entryPoints.map EntryPoint.localName := by
      simp [EntryPoint.toImport]
    refine ⟨?_, ?_, locals ▸ distinct, ?_⟩
    · refine List.forall_mem_map.2 fun entry _ => Identifier.isIdentifier_ofId entry.id
    · exact List.forall_mem_map.2 notRoutes
    · rw [names_ofRoutes root clean, locals]
      exact fun name isName => isName

/-- The names in the text of a well scoped module: it declares the imported names and then
`routes`, and it uses the names in its routes and then `routes`. -/
theorem WellScoped.mentions {program : RoutesModule} (wellScoped : program.WellScoped)
    (width : Nat) : JavaScript.mentions (program.moduleText width).toList =
      program.imports.map (fun item => .declares item.localName) ++
        .declares "routes" :: (program.names.map .uses ++ [.uses "routes"]) := by
  refine mentions_moduleText width wellScoped.identifiers fun name isName => ?_
  obtain ⟨item, member, isLocal⟩ := List.mem_map.1 (wellScoped.imported name isName)
  exact isLocal ▸ wellScoped.identifiers item member

/-- The routes module of a tree of entry points is well scoped, and so is its text: the
names it declares are those of the imports and `routes`, which are different identifiers,
and the names it uses are those in the routes, all of them imported, and `routes`. -/
theorem wellScoped_ofFileTree (tree : Folder) (identified : tree.Derived (·.id) childId)
    (routable : ∀ label ∈ tree.files, isEntryPointName label.name = true)
    (written : RoutesModule) (isWritten : ofFileTree tree = .ok written) :
    written.WellScoped ∧ ∀ width, JavaScript.mentions (written.moduleText width).toList =
      written.imports.map (fun item => .declares item.localName) ++
        .declares "routes" :: (written.names.map .uses ++ [.uses "routes"]) := by
  suffices wellScoped : written.WellScoped from ⟨wellScoped, wellScoped.mentions⟩
  cases isRead : Branch.ofFolder tree with
  | error failure =>
    rw [ofFileTree_of_unread isRead] at isWritten
    cases isWritten
  | ok branch =>
    obtain ⟨root, isRoot, made, -⟩ := Branch.made_of_normalizedOf identified isRead
    rw [ofFileTree, isRoot] at isWritten
    refine wellScoped_ofRoutes ?_ isWritten
    intro entry isEntry
    obtain ⟨label, isFile, -, rfl⟩ := mem_routed_iff.1 (made.entryPoints.subset isEntry)
    exact identified.ofId_ne_routes isFile (routable label isFile)

/-- A file whose name starts with a digit, and one called `routes` in a folder whose name
has a dash in front of a letter with two capitals. -/
theorem wellScoped_ofFileTree_guarded :
    let root : Label := ⟨"", ⟨"/app"⟩, "app"⟩
    let below : Label := root.child "-ß"
    let tree : Folder := ⟨root, [
      .folder ⟨below, [.file (below.child "routes.entrypoint.ts")]⟩,
      .file (root.child "404.entrypoint.js")]⟩
    tree.Derived (·.id) childId ∧ (∀ label ∈ tree.files, isEntryPointName label.name = true) ∧
      ∃ written, ofFileTree tree = .ok written ∧ written.WellScoped ∧
        JavaScript.mentions (written.moduleText 2).toList =
          [.declares "SS_routes_entrypoint_ts", .declares "_404_entrypoint_js",
            .declares "routes", .uses "SS_routes_entrypoint_ts", .uses "_404_entrypoint_js",
            .uses "routes"] := by
  intro root below tree
  have identified : tree.Derived (·.id) childId := by
    refine .intro _ _ (by decide) ?_
    intro inner member
    obtain rfl : inner = _ := by simpa using member
    exact .intro _ _ (by decide) (by simp)
  have routable : ∀ label ∈ tree.files, isEntryPointName label.name = true := by
    decide +kernel
  have areNames : (ofFileTree tree).map
      (fun written => (written.imports.map Import.localName, written.names)) =
      .ok (["SS_routes_entrypoint_ts", "_404_entrypoint_js"],
        ["SS_routes_entrypoint_ts", "_404_entrypoint_js"]) := by
    decide +kernel
  obtain ⟨written, isWritten, areNames⟩ := map_eq_ok_iff.1 areNames
  obtain ⟨wellScoped, inText⟩ := wellScoped_ofFileTree tree identified routable written isWritten
  refine ⟨identified, routable, written, isWritten, wellScoped, (inText 2).trans ?_⟩
  obtain ⟨areLocals, areUsed⟩ := Prod.mk.inj areNames
  have declared : written.imports.map (fun item => JavaScript.Mention.declares item.localName) =
      (written.imports.map Import.localName).map .declares := by
    simp
  rw [declared, areLocals, areUsed]
  rfl

end RoutesModule

end RouteAtlas
