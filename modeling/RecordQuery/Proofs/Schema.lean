import RecordQuery.Configuration
import RecordQuery.Proofs.Entries
import RecordQuery.Proofs.Outcome

/-!
Schemas of declared properties. Declarations are accepted if no name is blank and no two
are the same without the blanks around them. The names of properties are those without
the blanks, so no property takes the place of another when the schema is made, and the
schema says what the declarations say.
-/

namespace RecordQuery

namespace Schema

variable {α : Type}

/-- Properties with names of their own are added behind those that are there. -/
theorem entries_foldl_add (schema : Schema α) (properties : List (Property α))
    (h : (schema.names ++ properties.map (·.name)).Nodup) :
    (properties.foldl add schema).entries =
      schema.entries ++ properties.map fun property => (property.name, property) := by
  induction properties generalizing schema with
  | nil => simp
  | cons property rest ih =>
      have hnew : property.name ∉ schema.names := by
        intro hmem
        exact (List.nodup_append.mp h).2.2 _ hmem _ List.mem_cons_self rfl
      have hadd : (schema.add property).entries =
          schema.entries ++ [(property.name, property)] := Entries.put_of_not_mem hnew
      have hnames : (schema.add property).names = schema.names ++ [property.name] := by
        rw [names, hadd, Entries.keys, List.map_append]
        rfl
      rw [List.foldl_cons, ih (schema.add property) (by simpa [hnames] using h), hadd]
      simp

theorem entries_ofProperties (properties : List (Property α))
    (h : (properties.map (·.name)).Nodup) :
    (ofProperties properties).entries =
      properties.map fun property => (property.name, property) :=
  entries_foldl_add empty properties h

theorem find?_ofProperties (properties : List (Property α))
    (h : (properties.map (·.name)).Nodup) (property : Property α) (hmem : property ∈ properties) :
    (ofProperties properties).find? property.name = some property := by
  have hentries := entries_ofProperties properties h
  refine Entries.get?_of_mem ?_ ?_
  · simpa [hentries, Entries.keys, List.map_map, Function.comp_def] using h
  · rw [hentries]
    exact List.mem_map_of_mem hmem

/-- The geometries are the names of the properties with that type. -/
theorem geometries_ofProperties (properties : List (Property α))
    (h : (properties.map (·.name)).Nodup) :
    (ofProperties properties).geometries =
      (properties.filter Property.isGeometry).map (·.name) := by
  have hnames : (ofProperties properties).names = properties.map (·.name) := by
    simp [names, Entries.keys, entries_ofProperties properties h]
  rw [geometries, hnames, List.filter_map]
  refine congrArg _ (List.filter_congr fun property hproperty => ?_)
  rw [Function.comp_apply, find?_ofProperties properties h property hproperty]
  rfl

end Schema

namespace Declaration

/-- The name that a declaration gives to its property. -/
def propertyName (declaration : Declaration) : String :=
  .ofList (Text.trim declaration.name.toList)

theorem name_asProperty (declaration : Declaration) :
    declaration.asProperty.name = declaration.propertyName :=
  rfl

theorem type_asProperty (declaration : Declaration) :
    declaration.asProperty.type = declaration.type :=
  rfl

theorem isResolvable_asProperty (declaration : Declaration) :
    declaration.asProperty.isResolvable = declaration.resolvable := by
  unfold asProperty Property.isResolvable
  cases declaration.resolvable <;> rfl

end Declaration

namespace Configuration

/-- Names are accepted behind others if they are filled and differ from those and from
each other. -/
theorem checkNames_eq_ok_iff (seen : List (List Char)) (declarations : List Declaration) :
    checkNames seen declarations = .ok () ↔
      (declarations.map (·.path)).Nodup ∧
        ∀ declaration ∈ declarations, declaration.path ≠ [] ∧ declaration.path ∉ seen := by
  induction declarations generalizing seen with
  | nil => simp [checkNames]
  | cons declaration rest ih =>
      rw [checkNames]
      by_cases hempty : declaration.path = []
      · simp [hempty]
      · by_cases hseen : declaration.path ∈ seen
        · simp [hempty, hseen]
        · simp only [List.isEmpty_iff, hempty, List.contains_iff_mem, hseen, if_false, ih,
            List.map_cons, List.nodup_cons, List.mem_cons, List.mem_map,
            not_or, not_exists, not_and]
          grind

theorem validate_eq_ok_iff (declarations : List Declaration) :
    validate declarations = .ok () ↔
      (declarations.map (·.path)).Nodup ∧
        ∀ declaration ∈ declarations, declaration.path ≠ [] := by
  simp [validate, checkNames_eq_ok_iff]

end Configuration

/-- The schema says what the declarations say, each of which is there under its name
without the blanks around it. -/
structure Schema.Declares (schema : Schema Json) (declarations : List Declaration) : Prop where
  filled : ∀ name ∈ schema.names, name ≠ ""
  distinct : schema.names.Nodup
  /-- There are as many properties as declarations, in the same order. -/
  properties : schema.properties.map (fun property =>
      (property.name, property.type, property.isResolvable)) =
    declarations.map fun declaration =>
      (declaration.propertyName, declaration.type, declaration.resolvable)
  names : schema.names = declarations.map (·.propertyName)
  /-- Every name leads to the property of its own declaration. -/
  find : ∀ declaration ∈ declarations,
    schema.find? declaration.propertyName = some declaration.asProperty
  geometries : schema.geometries =
    (declarations.filter (·.type == .geometry)).map (·.propertyName)

/-- Declarations that are accepted make a schema that says what they say. -/
theorem Schema.declares_ofDeclarations (declarations : List Declaration)
    (h : Configuration.validate declarations = .ok ()) :
    (ofDeclarations declarations).Declares declarations := by
  obtain ⟨hdistinct, hfilled⟩ := (Configuration.validate_eq_ok_iff declarations).mp h
  have hnodup : (declarations.map (·.propertyName)).Nodup := by
    have hmap : ((declarations.map (·.path)).map String.ofList).Nodup :=
      List.Pairwise.map _ (fun _ _ hne heq => hne (String.ofList_injective heq)) hdistinct
    rwa [List.map_map] at hmap
  have hproperties : ((declarations.map (·.asProperty)).map (·.name)).Nodup := by
    rwa [List.map_map]
  have hentries := entries_ofProperties _ hproperties
  have hnames : (ofDeclarations declarations).names = declarations.map (·.propertyName) := by
    rw [ofDeclarations, names, hentries]
    simp [Entries.keys, Declaration.name_asProperty]
  exact {
    filled := by
      rw [hnames]
      intro name hname hempty
      obtain ⟨declaration, hmem, rfl⟩ := List.mem_map.mp hname
      exact hfilled declaration hmem (String.ofList_eq_empty_iff.mp hempty)
    distinct := by rwa [hnames]
    properties := by
      rw [ofDeclarations, properties, hentries]
      simp [Declaration.name_asProperty, Declaration.type_asProperty,
        Declaration.isResolvable_asProperty]
    names := hnames
    find := fun declaration hmem =>
      find?_ofProperties _ hproperties declaration.asProperty (List.mem_map_of_mem hmem)
    geometries := by
      rw [ofDeclarations, geometries_ofProperties _ hproperties, List.filter_map, List.map_map]
      rfl }

/-- Names between blanks of two kinds, and two geometries, one of them kept elsewhere. -/
theorem Schema.declares_ofDeclarations_of_blanks :
    let declarations : List Declaration :=
      [⟨"\u00a0size.count ", .integer, false⟩, ⟨"place\t", .geometry, true⟩,
        ⟨"\u2003home", .geometry, false⟩]
    Configuration.validate declarations = .ok () ∧
      (ofDeclarations declarations).Declares declarations ∧
      (ofDeclarations declarations).names = ["size.count", "place", "home"] ∧
      (ofDeclarations declarations).geometries = ["place", "home"] := by
  intro declarations
  have hvalid : Configuration.validate declarations = .ok () :=
    eq_ok_of_toOption (by decide +kernel)
  have hdeclares := declares_ofDeclarations declarations hvalid
  refine ⟨hvalid, hdeclares, ?_, ?_⟩
  · rw [hdeclares.names]
    decide +kernel
  · rw [hdeclares.geometries]
    decide +kernel

end RecordQuery
