import RecordQuery.Projection
import RecordQuery.Proofs.PropertyRef

/-!
Excluded fields. A field is excluded by the segments of its path, which are the keys
on the way to it; arrays on the way add nothing. A projection gives the same of a
record and of the record without its excluded fields, whatever is under them and
whatever else is included, so nothing of an excluded field gets into the result.

Keys are not empty here. A field under an empty key of the root would be taken for a
field of the root itself.
-/

namespace RecordQuery

namespace Json

mutual

/-- Every field in the value, at any depth, has a key that is not empty. -/
def isNamed : Json → Bool
  | .object fields => areNamedFields fields
  | .array items => areNamedItems items
  | _ => true

def areNamedFields : List (String × Json) → Bool
  | [] => true
  | (key, value) :: rest => key != "" && value.isNamed && areNamedFields rest

def areNamedItems : List Json → Bool
  | [] => true
  | item :: rest => item.isNamed && areNamedItems rest

end

mutual

/-- The value, at the end of some keys, without the fields at any depth that are to be
deleted. A field is told by the keys on the way to it and its own. -/
def erase (deleted : List String → Bool) (keys : List String) : Json → Json
  | .object fields => .object (eraseFields deleted keys fields)
  | .array items => .array (eraseItems deleted keys items)
  | json => json

def eraseFields (deleted : List String → Bool) (keys : List String) :
    List (String × Json) → List (String × Json)
  | [] => []
  | (key, value) :: rest =>
    if deleted (keys ++ [key]) then eraseFields deleted keys rest
    else (key, value.erase deleted (keys ++ [key])) :: eraseFields deleted keys rest

def eraseItems (deleted : List String → Bool) (keys : List String) : List Json → List Json
  | [] => []
  | item :: rest => item.erase deleted keys :: eraseItems deleted keys rest

end

end Json

namespace Projection

/-- The path of a field: the keys on the way to it, with dots between them. -/
def dotted (keys : List String) : List Char :=
  Text.join ['.'] (keys.map String.toList)

/-- The paths behind a minus sign in a list with commas. -/
def excludedPaths (fields : String) : List (List Char) :=
  (Text.pieces ',' fields.toList).filterMap fun entry =>
    (Text.afterStart? ['-'] (Text.trim entry)).map fun rest => PropertyRef.path ⟨.ofList rest⟩

/-- Whether the segments of a field's path begin with those of an excluded path. -/
def isExcluded (fields : String) (keys : List String) : Bool :=
  (excludedPaths fields).any fun path =>
    (Text.pieces '.' path).isPrefixOf (Text.pieces '.' (dotted keys))

/-- The projection of a list with commas excludes what the list does. -/
theorem path_excludes_ofText (fields : String) :
    (ofText fields).excludes.map PropertyRef.path = excludedPaths fields := by
  unfold ofText entries excludedPaths
  simp only [List.filterMap_map, List.filterMap_filter, List.map_filterMap]
  refine congrArg (List.filterMap · _) (funext fun entry => ?_)
  simp only [Function.comp_apply, PropertyRef.excluded?, PropertyRef.chars, String.toList_ofList]
  -- An empty entry has no minus sign.
  cases htrim : Text.trim entry with
  | nil => rfl
  | cons c more =>
      cases Text.afterStart? ['-'] (c :: more) <;> rfl

theorem drops_ofText (fields : String) (keys : List String) :
    (ofText fields).drops (dotted keys) = isExcluded fields keys := by
  rw [drops, isExcluded, ← path_excludes_ofText, List.any_map]
  exact congrArg _ (funext fun ref => ref.isAbove_eq _)

/-- One more key comes behind the path and a dot. -/
theorem childPath_dotted (keys : List String) (hkeys : ∀ key ∈ keys, key ≠ "") (key : String) :
    childPath (dotted keys) key = dotted (keys ++ [key]) := by
  cases keys with
  | nil => simp [childPath, dotted, Text.join]
  | cons first rest =>
      have hpath : (dotted (first :: rest)).isEmpty = false := by
        have hfirst : first.toList ≠ [] := by simpa using hkeys first (by simp)
        cases rest <;> simp [dotted, Text.join, hfirst]
      rw [childPath, if_neg (by simp [hpath]), dotted, dotted, List.map_append,
        List.map_singleton, Text.join_concat '.' _ _ (by simp)]

section Erase

variable (projection : Projection)

/-- Whether the projection drops the field at the end of the keys. -/
def dropsKeys (keys : List String) : Bool :=
  projection.drops (dotted keys)

theorem isContainer_erase (deleted : List String → Bool) (keys : List String) (json : Json) :
    isContainer (json.erase deleted keys) = isContainer json := by
  cases json <;> simp [Json.erase, isContainer]

mutual

/-- What is left of a value is the same without the fields that are dropped. -/
theorem project_erase (keys : List String) (hkeys : ∀ key ∈ keys, key ≠ "") (json : Json)
    (hjson : json.isNamed = true) :
    projection.project (dotted keys) (json.erase projection.dropsKeys keys) =
      projection.project (dotted keys) json := by
  cases json with
  | object fields =>
      rw [Json.isNamed] at hjson
      rw [Json.erase, project, project, projectFields_erase keys hkeys fields hjson]
  | array items =>
      rw [Json.isNamed] at hjson
      rw [Json.erase, project, project, projectItems_erase keys hkeys items hjson]
  | _ => simp only [Json.erase]

theorem projectFields_erase (keys : List String) (hkeys : ∀ key ∈ keys, key ≠ "")
    (fields : List (String × Json)) (hfields : Json.areNamedFields fields = true) :
    projection.projectFields (dotted keys) (Json.eraseFields projection.dropsKeys keys fields) =
      projection.projectFields (dotted keys) fields := by
  cases fields with
  | nil => rfl
  | cons field rest =>
      obtain ⟨key, value⟩ := field
      simp only [Json.areNamedFields, Bool.and_eq_true, bne_iff_ne] at hfields
      obtain ⟨⟨hkey, hvalue⟩, hrest⟩ := hfields
      have hkeys' : ∀ k ∈ keys ++ [key], k ≠ "" := by
        intro k hk
        rcases List.mem_append.mp hk with hk | hk
        · exact hkeys k hk
        · obtain rfl := List.mem_singleton.mp hk
          exact hkey
      rw [Json.eraseFields, projectFields, childPath_dotted keys hkeys key]
      cases hdrops : projection.dropsKeys (keys ++ [key]) with
      | true =>
          rw [if_pos rfl, keeps_eq_false_of_drops hdrops,
            projectFields_erase keys hkeys rest hrest]
          rfl
      | false =>
          rw [if_neg (by simp), projectFields, childPath_dotted keys hkeys key, keeps, keeps,
            isContainer_erase, project_erase (keys ++ [key]) hkeys' value hvalue,
            projectFields_erase keys hkeys rest hrest]

theorem projectItems_erase (keys : List String) (hkeys : ∀ key ∈ keys, key ≠ "")
    (items : List Json) (hitems : Json.areNamedItems items = true) :
    projection.projectItems (dotted keys) (Json.eraseItems projection.dropsKeys keys items) =
      projection.projectItems (dotted keys) items := by
  cases items with
  | nil => rfl
  | cons item rest =>
      simp only [Json.areNamedItems, Bool.and_eq_true] at hitems
      rw [Json.eraseItems, projectItems, projectItems, project_erase keys hkeys item hitems.1,
        projectItems_erase keys hkeys rest hitems.2]

end

end Erase

/-- Of a record and of the record without its excluded fields the same is kept. -/
theorem apply_erase (fields : String) (record : Json) (hrecord : record.isNamed = true) :
    (ofText fields).apply (record.erase (isExcluded fields) []) =
      (ofText fields).apply record := by
  have hdeleted : isExcluded fields = (ofText fields).dropsKeys :=
    funext fun keys => (drops_ofText fields keys).symm
  rw [hdeleted]
  exact (ofText fields).project_erase [] (by simp) record hrecord

/-- Two records that differ in nothing but excluded fields, which may be there or not and
have anything under them, are projected alike. -/
theorem excluded_fields_do_not_leak (fields : String) (first second : Json)
    (hfirst : first.isNamed = true) (hsecond : second.isNamed = true)
    (h : first.erase (isExcluded fields) [] = second.erase (isExcluded fields) []) :
    (ofText fields).apply first = (ofText fields).apply second := by
  rw [← apply_erase fields first hfirst, h, apply_erase fields second hsecond]

/-- Addresses with and without an excluded field, which is a text and an object. -/
theorem excluded_fields_do_not_leak_of_zip :
    let fields := "name, address, -address.zip"
    let first : Json := .object [("address", .array [
      .object [("city", .string "Turku"), ("zip", .string "20100")],
      .object [("city", .string "Oulu")]]), ("code", .integer 7)]
    let second : Json := .object [("address", .array [
      .object [("city", .string "Turku")],
      .object [("city", .string "Oulu"), ("zip", .object [("plus", .integer 4)])]]),
      ("code", .integer 7)]
    first.isNamed = true ∧ second.isNamed = true ∧
      first.erase (isExcluded fields) [] = second.erase (isExcluded fields) [] ∧
      (ofText fields).apply first = (ofText fields).apply second :=
  ⟨rfl, rfl, rfl, excluded_fields_do_not_leak _ _ _ rfl rfl rfl⟩

end Projection

end RecordQuery
