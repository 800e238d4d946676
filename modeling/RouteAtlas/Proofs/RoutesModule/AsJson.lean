import RouteAtlas.Proofs.Json
import RouteAtlas.RoutesModule.AsJson

/-!
# Routes modules as JSON

The JSON text of a routes module tells the module (`RoutesModule.jsonText_inj`): the text
tells the JSON value, and the value tells what it was made from. An imported name is the
only value that becomes an object, so it is not taken for a text, a flag or a list.

The same text is laid out like an ES module (`RoutesModule.jsonText_eq`). The JavaScript
printer with two spaces writes the route list of the JSON text once every imported name is
put down as the object that JSON has for it (`Value.spelled`); nothing is put down in
routes without names.
-/

set_option autoImplicit false

namespace RouteAtlas

/-! ## The JSON value tells the module -/

mutual

/-- A value is told by its JSON. -/
theorem Value.toJson_inj (value other : Value) (same : value.toJson = other.toJson) :
    value = other := by
  match value, other with
  | .binding _, .binding _ | .text _, .text _ | .flag _, .flag _ =>
    simpa [Value.toJson] using same
  | .routes routes, .routes others =>
    rw [RouteObject.toJsonList_inj routes others (Json.list.inj same)]
  | .binding _, .text _ | .binding _, .flag _ | .binding _, .routes _ => cases same
  | .text _, .binding _ | .text _, .flag _ | .text _, .routes _ => cases same
  | .flag _, .binding _ | .flag _, .text _ | .flag _, .routes _ => cases same
  | .routes _, .binding _ | .routes _, .text _ | .routes _, .flag _ => cases same
  termination_by structural value

/-- Properties are told by their fields. -/
theorem Property.toFields_inj (properties others : List Property)
    (same : Property.toFields properties = Property.toFields others) : properties = others := by
  match properties, others with
  | [], [] => rfl
  | property :: rest, other :: more =>
    obtain ⟨sameFirst, sameRest⟩ := List.cons.inj same
    rw [Property.toField_inj property other sameFirst, Property.toFields_inj rest more sameRest]
  | [], _ :: _ | _ :: _, [] => cases same
  termination_by structural properties

/-- A property is told by its field. -/
theorem Property.toField_inj (property other : Property)
    (same : property.toField = other.toField) : property = other := by
  match property, other with
  | ⟨key, value⟩, ⟨keyOther, valueOther⟩ =>
    obtain ⟨sameKey, sameValue⟩ := JsonField.mk.inj same
    rw [Key.text_injective sameKey, Value.toJson_inj value valueOther sameValue]
  termination_by structural property

/-- A route object is told by its JSON. -/
theorem RouteObject.toJson_inj (object other : RouteObject)
    (same : object.toJson = other.toJson) : object = other := by
  match object, other with
  | ⟨properties⟩, ⟨others⟩ => rw [Property.toFields_inj properties others (Json.object.inj same)]
  termination_by structural object

/-- Route objects are told by their JSON. -/
theorem RouteObject.toJsonList_inj (objects others : List RouteObject)
    (same : RouteObject.toJsonList objects = RouteObject.toJsonList others) :
    objects = others := by
  match objects, others with
  | [], [] => rfl
  | object :: rest, other :: more =>
    obtain ⟨sameFirst, sameRest⟩ := List.cons.inj same
    rw [RouteObject.toJson_inj object other sameFirst,
      RouteObject.toJsonList_inj rest more sameRest]
  | [], _ :: _ | _ :: _, [] => cases same
  termination_by structural objects

end

/-- An import is told by its JSON. -/
theorem Import.toJson_injective : Function.Injective Import.toJson := by
  rintro ⟨name, source⟩ ⟨nameOther, sourceOther⟩ same
  simpa [Import.toJson] using same

/-- A routes module is told by its JSON. -/
theorem RoutesModule.toJson_injective : Function.Injective RoutesModule.toJson := by
  rintro ⟨imports, routes⟩ ⟨importsOther, routesOther⟩ same
  simp only [toJson, Json.object.injEq, List.cons.injEq, JsonField.mk.injEq, true_and,
    Json.list.injEq, and_true] at same
  rw [Import.toJson_injective.list_map same.1,
    RouteObject.toJsonList_inj routes routesOther same.2]

/-- Two routes modules have the same JSON text exactly if they are the same, and so have
two values inside them, at any depth. -/
theorem RoutesModule.jsonText_inj :
    (∀ program other : RoutesModule, program.jsonText = other.jsonText ↔ program = other) ∧
      ∀ (depth : Nat) (value other : Value),
        value.toJson.pretty depth = other.toJson.pretty depth ↔ value = other := by
  refine ⟨fun program other => ⟨fun same => ?_, fun same => same ▸ rfl⟩,
    fun depth value other => ⟨fun same => ?_, fun same => same ▸ rfl⟩⟩
  · have sameChars : program.toJson.pretty 0 = other.toJson.pretty 0 :=
      List.append_cancel_right (String.ofList_injective same)
    exact toJson_injective (Json.pretty_injective 0 sameChars)
  · exact Value.toJson_inj value other (Json.pretty_injective depth same)

/-! ## The layout of the ES module -/

/-- An imported name as JSON has it: an object with the one field `identifier`, over three
lines of which the last stands at the given depth. -/
def Json.bindingText (depth : Nat) (name : String) : List Char :=
  "\x7b\n".toList ++ JavaScript.indentation 2 (depth + 1) ++ "\"identifier\": ".toList ++
    Text.quote name ++ '\n' :: JavaScript.indentation 2 depth ++ "\x7d".toList

mutual

/-- The value with every imported name put down as in JSON. -/
def Value.spelled (depth : Nat) : Value → Value
  | .binding name => .binding (String.ofList (Json.bindingText depth name))
  | .text text => .text text
  | .flag flag => .flag flag
  | .routes routes => .routes (RouteObject.allSpelled (depth + 1) routes)
  termination_by structural value => value

/-- The properties with every imported name put down as in JSON. -/
def Property.allSpelled (depth : Nat) : List Property → List Property
  | [] => []
  | property :: rest => property.spelled depth :: Property.allSpelled depth rest
  termination_by structural properties => properties

/-- The property with every imported name put down as in JSON. -/
def Property.spelled (depth : Nat) : Property → Property
  | ⟨key, value⟩ => ⟨key, value.spelled depth⟩
  termination_by structural property => property

/-- The route object with every imported name put down as in JSON. -/
def RouteObject.spelled (depth : Nat) : RouteObject → RouteObject
  | ⟨properties⟩ => ⟨Property.allSpelled (depth + 1) properties⟩
  termination_by structural object => object

/-- The route objects with every imported name put down as in JSON. -/
def RouteObject.allSpelled (depth : Nat) : List RouteObject → List RouteObject
  | [] => []
  | object :: rest => object.spelled depth :: RouteObject.allSpelled depth rest
  termination_by structural objects => objects

end

/-- A function that goes over a list item by item is a `map`. -/
theorem eq_map_of_cons {α β : Type} {f : List α → List β} {g : α → β} (nil : f [] = [])
    (cons : ∀ item rest, f (item :: rest) = g item :: f rest) (items : List α) :
    f items = items.map g := by
  induction items with
  | nil => exact nil
  | cons item rest ih => rw [cons, ih, List.map_cons]

/-- Route objects become JSON one by one. -/
theorem RouteObject.toJsonList_eq_map (objects : List RouteObject) :
    RouteObject.toJsonList objects = objects.map RouteObject.toJson :=
  eq_map_of_cons rfl (fun _ _ => rfl) objects

/-- Properties become fields one by one. -/
theorem Property.toFields_eq_map (properties : List Property) :
    Property.toFields properties = properties.map Property.toField :=
  eq_map_of_cons rfl (fun _ _ => rfl) properties

/-- Route objects are spelled one by one. -/
theorem RouteObject.allSpelled_eq_map (depth : Nat) (objects : List RouteObject) :
    RouteObject.allSpelled depth objects = objects.map (RouteObject.spelled depth) :=
  eq_map_of_cons rfl (fun _ _ => rfl) objects

/-- Properties are spelled one by one. -/
theorem Property.allSpelled_eq_map (depth : Nat) (properties : List Property) :
    Property.allSpelled depth properties = properties.map (Property.spelled depth) :=
  eq_map_of_cons rfl (fun _ _ => rfl) properties

namespace JavaScript

variable {α β γ : Type} {write : β → List Char} {writeOther : γ → List Char} {f : α → β}
  {g : α → γ} {items : List α}

/-- Items that are written alike make the same lines. -/
theorem lines_map_congr (same : ∀ item ∈ items, write (f item) = writeOther (g item)) :
    lines write (items.map f) = lines writeOther (items.map g) := by
  induction items with
  | nil => rfl
  | cons item rest ih =>
    obtain ⟨sameFirst, sameRest⟩ := List.forall_mem_cons.1 same
    simp only [List.map_cons, lines, sameFirst, ih sameRest, List.isEmpty_map]

/-- Two lists made from one have the same block if their items have the same texts. -/
theorem block_map_congr (opening closing : Char) (indent : List Char)
    (same : ∀ item ∈ items, write (f item) = writeOther (g item)) :
    block opening closing indent write (items.map f) =
      block opening closing indent writeOther (items.map g) := by
  rw [block, block, lines_map_congr same, List.isEmpty_map, List.isEmpty_map]

end JavaScript

/-- A name is printed as an object of its own. -/
theorem Json.pretty_binding (depth : Nat) (name : String) :
    (Value.binding name).toJson.pretty depth = Json.bindingText depth name := by
  have key : Text.quote "identifier" = "\"identifier\"".toList := rfl
  simp [Value.toJson, Json.pretty, Json.prettyFields, Json.prettyField, Json.newLine_eq,
    Json.bindingText, key]

open JavaScript (expression literal member block_map_congr)

mutual

/-- JSON lays a value out like the JavaScript printer with two spaces. -/
theorem Value.pretty_toJson (depth : Nat) (value : Value) :
    value.toJson.pretty depth = expression 2 depth (value.spelled depth) := by
  match value with
  | .binding name =>
    rw [Json.pretty_binding, Value.spelled, expression, String.toList_ofList]
  | .text _ | .flag _ => rfl
  | .routes routes =>
    rw [Value.toJson, Value.spelled, Json.pretty_list, JavaScript.expression_routes,
      RouteObject.toJsonList_eq_map, RouteObject.allSpelled_eq_map]
    refine block_map_congr _ _ _ fun object isObject => congrArg (List.append _) ?_
    exact RouteObject.pretty_toJson_of_mem (depth + 1) routes object isObject
  termination_by structural value

/-- Each of some route objects is printed like a literal of its spelling. -/
theorem RouteObject.pretty_toJson_of_mem (depth : Nat) (objects : List RouteObject) :
    ∀ object ∈ objects, object.toJson.pretty depth = literal 2 depth (object.spelled depth) := by
  match objects with
  | [] => exact List.forall_mem_nil _
  | object :: rest =>
    exact List.forall_mem_cons.2
      ⟨RouteObject.pretty_toJson depth object, RouteObject.pretty_toJson_of_mem depth rest⟩
  termination_by structural objects

/-- The JSON of a route object is printed like a literal of its spelling. -/
theorem RouteObject.pretty_toJson (depth : Nat) (object : RouteObject) :
    object.toJson.pretty depth = literal 2 depth (object.spelled depth) := by
  match object with
  | ⟨properties⟩ =>
    rw [RouteObject.toJson, RouteObject.spelled, Json.pretty_object, JavaScript.literal_eq_block,
      Property.toFields_eq_map, Property.allSpelled_eq_map]
    refine block_map_congr _ _ _ fun property isProperty => congrArg (List.append _) ?_
    exact Property.pretty_toField_of_mem (depth + 1) properties property isProperty
  termination_by structural object

/-- Each of some properties is printed like a member of its spelling. -/
theorem Property.pretty_toField_of_mem (depth : Nat) (properties : List Property) :
    ∀ property ∈ properties,
      Json.prettyField depth property.toField = member 2 depth (property.spelled depth) := by
  match properties with
  | [] => exact List.forall_mem_nil _
  | property :: rest =>
    exact List.forall_mem_cons.2
      ⟨Property.pretty_toField depth property, Property.pretty_toField_of_mem depth rest⟩
  termination_by structural properties

/-- The field of a property is printed like a member of its spelling. -/
theorem Property.pretty_toField (depth : Nat) (property : Property) :
    Json.prettyField depth property.toField = member 2 depth (property.spelled depth) := by
  match property with
  | ⟨key, value⟩ =>
    rw [Property.toField, Property.spelled, Json.prettyField, member,
      Value.pretty_toJson depth value]
    rfl
  termination_by structural property

end

/-! ## Routes without names -/

mutual

/-- A value without names is its own spelling. -/
theorem Value.spelled_of_names (depth : Nat) (value : Value) (nameless : value.names = []) :
    value.spelled depth = value := by
  match value with
  | .binding _ => cases nameless
  | .text _ | .flag _ => rfl
  | .routes routes =>
    rw [Value.spelled, RouteObject.allSpelled_of_names (depth + 1) routes nameless]
  termination_by structural value

/-- Properties without names are their own spelling. -/
theorem Property.allSpelled_of_names (depth : Nat) (properties : List Property)
    (nameless : Property.allNames properties = []) :
    Property.allSpelled depth properties = properties := by
  match properties with
  | [] => rfl
  | property :: rest =>
    obtain ⟨namelessFirst, namelessRest⟩ := List.append_eq_nil_iff.1 nameless
    rw [Property.allSpelled, Property.spelled_of_names depth property namelessFirst,
      Property.allSpelled_of_names depth rest namelessRest]
  termination_by structural properties

/-- A property without names is its own spelling. -/
theorem Property.spelled_of_names (depth : Nat) (property : Property)
    (nameless : property.names = []) : property.spelled depth = property := by
  match property with
  | ⟨_, value⟩ => rw [Property.spelled, Value.spelled_of_names depth value nameless]
  termination_by structural property

/-- A route object without names is its own spelling. -/
theorem RouteObject.spelled_of_names (depth : Nat) (object : RouteObject)
    (nameless : object.names = []) : object.spelled depth = object := by
  match object with
  | ⟨properties⟩ =>
    rw [RouteObject.spelled, Property.allSpelled_of_names (depth + 1) properties nameless]
  termination_by structural object

/-- Route objects without names are their own spelling. -/
theorem RouteObject.allSpelled_of_names (depth : Nat) (objects : List RouteObject)
    (nameless : RouteObject.allNames objects = []) :
    RouteObject.allSpelled depth objects = objects := by
  match objects with
  | [] => rfl
  | object :: rest =>
    obtain ⟨namelessFirst, namelessRest⟩ := List.append_eq_nil_iff.1 nameless
    rw [RouteObject.allSpelled, RouteObject.spelled_of_names depth object namelessFirst,
      RouteObject.allSpelled_of_names depth rest namelessRest]
  termination_by structural objects

end

/-- The JSON text of a routes module is its imports and the route list as the JavaScript
printer writes it with two spaces, except that imported names are put down as objects. So
both printers write routes without names alike. -/
theorem RoutesModule.jsonText_eq (program : RoutesModule) :
    program.jsonText = String.ofList ("\x7b\n  \"imports\": ".toList ++
        (Json.list (program.imports.map Import.toJson)).pretty 1 ++
        ",\n  \"routes\": ".toList ++
        expression 2 1 ((Value.routes program.routes).spelled 1) ++ "\n\x7d\n".toList) ∧
      ∀ (depth : Nat) (routes : List RouteObject), RouteObject.allNames routes = [] →
        (Json.list (RouteObject.toJsonList routes)).pretty depth =
          expression 2 depth (.routes routes) := by
  constructor
  · rw [← Value.pretty_toJson, Value.toJson]
    have importsKey : Text.quote "imports" = "\"imports\"".toList := rfl
    have routesKey : Text.quote "routes" = "\"routes\"".toList := rfl
    refine congrArg String.ofList ?_
    simp [toJson, Json.pretty, Json.prettyFields, Json.prettyField, Json.newLine, importsKey,
      routesKey]
  · intro depth routes nameless
    have unchanged := Value.spelled_of_names depth (.routes routes) nameless
    calc (Json.list (RouteObject.toJsonList routes)).pretty depth
        = expression 2 depth ((Value.routes routes).spelled depth) :=
          Value.pretty_toJson depth (.routes routes)
      _ = expression 2 depth (.routes routes) := by rw [unchanged]

example : (⟨[], [⟨[⟨.entryPoint, .binding "a"⟩]⟩]⟩ : RoutesModule).jsonText =
    "\x7b\n  \"imports\": [],\n  \"routes\": [\n    \x7b\n      \"entryPoint\": \x7b\n" ++
      "        \"identifier\": \"a\"\n      \x7d\n    \x7d\n  ]\n\x7d\n" := by
  decide +kernel

/-- A name below a list stands three levels deep, and empty lists and objects are pairs of
brackets for both printers. -/
theorem RoutesModule.jsonText_eq_nested :
    let entry : RouteObject := ⟨[⟨.entryPoint, .binding "a_entrypoint_js"⟩]⟩
    let program : RoutesModule := ⟨[], [⟨[⟨.children, .routes [entry]⟩]⟩]⟩
    let nameless : List RouteObject := [⟨[⟨.children, .routes []⟩]⟩, ⟨[]⟩]
    program.jsonText = String.ofList ("\x7b\n  \"imports\": []".toList ++
        ",\n  \"routes\": ".toList ++
        expression 2 1 ((Value.routes program.routes).spelled 1) ++ "\n\x7d\n".toList) ∧
      RouteObject.allNames nameless = [] ∧
      (Json.list (RouteObject.toJsonList nameless)).pretty 1 =
        expression 2 1 (.routes nameless) := by
  intro entry program nameless
  obtain ⟨isText, alike⟩ := jsonText_eq program
  exact ⟨isText, rfl, alike 1 nameless rfl⟩

end RouteAtlas
