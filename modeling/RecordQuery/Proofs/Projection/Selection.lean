import RecordQuery.Proofs.Projection.Exclusion

/-!
Selected leaves. A leaf of a record is a scalar at the end of some steps, into fields of
objects and items of arrays. It is told by the keys on the way to it, with dots between
them, and what a projection says of this path decides whether it is kept.

A leaf is kept if no excluded path begins its path and an included one does, or nothing
is included by name. There is one more case: an array that is on the way to an included
path is gone into, and items of it that are scalars stay, though no path names them. The
main statement says that this is the only one.
-/

namespace RecordQuery

namespace Json

/-- A step from a value to one in it. -/
inductive Step where
  | field (key : String)
  | item (index : Nat)
  deriving DecidableEq, Repr

def Step.key? : Step → Option String
  | .field key => some key
  | .item _ => none

/-- The keys on a way. Steps into arrays have none. -/
def keysOf (place : List Step) : List String :=
  place.filterMap Step.key?

/-- A scalar in a value, with the steps to it. -/
structure Leaf where
  place : List Step
  scalar : Json

namespace Leaf

def keys (leaf : Leaf) : List String :=
  keysOf leaf.place

/-- Whether the leaf is an item of an array. -/
def isItem (leaf : Leaf) : Bool :=
  leaf.place.getLast?.any fun step => step.key?.isNone

end Leaf

mutual

/-- The leaves of a value at a place, from left to right. -/
def leavesAt (place : List Step) : Json → List Leaf
  | .object fields => leavesOfFields place fields
  | .array items => leavesOfItems place 0 items
  | json => [⟨place, json⟩]

def leavesOfFields (place : List Step) : List (String × Json) → List Leaf
  | [] => []
  | (key, value) :: rest => value.leavesAt (place ++ [.field key]) ++ leavesOfFields place rest

def leavesOfItems (place : List Step) (index : Nat) : List Json → List Leaf
  | [] => []
  | item :: rest => item.leavesAt (place ++ [.item index]) ++ leavesOfItems place (index + 1) rest

end

def leaves (json : Json) : List Leaf :=
  json.leavesAt []

theorem keysOf_field (place : List Step) (key : String) :
    keysOf (place ++ [.field key]) = keysOf place ++ [key] := by
  simp [keysOf, Step.key?]

theorem keysOf_item (place : List Step) (index : Nat) :
    keysOf (place ++ [.item index]) = keysOf place := by
  simp [keysOf, Step.key?]

/-- A value with a leaf that is the value itself. -/
def isScalar : Json → Bool
  | .object _ | .array _ => false
  | _ => true

theorem leavesAt_scalar (place : List Step) (json : Json) (h : json.isScalar = true) :
    json.leavesAt place = [⟨place, json⟩] := by
  cases json <;> first | rfl | simp [isScalar] at h

mutual

/-- The place of a value begins those of its leaves. -/
theorem place_begins (place : List Step) (json : Json) (leaf : Leaf)
    (h : leaf ∈ json.leavesAt place) : place <+: leaf.place := by
  cases json with
  | object fields => exact place_begins_fields place fields leaf h
  | array items => exact place_begins_items place 0 items leaf h
  | _ =>
      obtain rfl := List.mem_singleton.mp h
      exact List.prefix_rfl

theorem place_begins_fields (place : List Step) (fields : List (String × Json)) (leaf : Leaf)
    (h : leaf ∈ leavesOfFields place fields) : place <+: leaf.place := by
  cases fields with
  | nil => simp [leavesOfFields] at h
  | cons field rest =>
      rcases List.mem_append.mp h with h | h
      · exact (List.prefix_append _ _).trans (place_begins _ field.2 leaf h)
      · exact place_begins_fields place rest leaf h

theorem place_begins_items (place : List Step) (index : Nat) (items : List Json) (leaf : Leaf)
    (h : leaf ∈ leavesOfItems place index items) : place <+: leaf.place := by
  cases items with
  | nil => simp [leavesOfItems] at h
  | cons item rest =>
      rcases List.mem_append.mp h with h | h
      · exact (List.prefix_append _ _).trans (place_begins _ item leaf h)
      · exact place_begins_items place (index + 1) rest leaf h

end

theorem keys_begin (place : List Step) (json : Json) (leaf : Leaf)
    (h : leaf ∈ json.leavesAt place) : keysOf place <+: leaf.keys :=
  (place_begins place json leaf h).filterMap Step.key?

end Json

namespace Projection

/-- The paths without a minus sign in a list with commas. -/
def includedPaths (fields : String) : List (List Char) :=
  (Text.pieces ',' fields.toList).filterMap fun entry =>
    let trimmed := Text.trim entry
    if trimmed.isEmpty || trimmed.head? == some '-' then none
    else some (PropertyRef.path ⟨.ofList trimmed⟩)

/-- Whether nothing is included by name, or the segments of a field's path begin with
those of an included path. -/
def isIncluded (fields : String) (keys : List String) : Bool :=
  (includedPaths fields).isEmpty || (includedPaths fields).any fun path =>
    (Text.pieces '.' path).isPrefixOf (Text.pieces '.' (dotted keys))

/-- Whether the segments of an included path begin with those of a field's path. -/
def isOnTheWay (fields : String) (keys : List String) : Bool :=
  (includedPaths fields).any fun path =>
    (Text.pieces '.' (dotted keys)).isPrefixOf (Text.pieces '.' path)

/-- The projection of a list with commas includes what the list does. -/
theorem path_includes_ofText (fields : String) :
    (ofText fields).includes.map PropertyRef.path = includedPaths fields := by
  unfold ofText entries includedPaths
  simp only [← List.filterMap_eq_filter, ← List.filterMap_eq_map, List.filterMap_filterMap]
  refine congrArg (List.filterMap · _) (funext fun entry => ?_)
  simp only [Function.comp_apply, Option.bind_some]
  cases Text.trim entry with
  | nil => rfl
  | cons c more =>
      by_cases hc : c = '-' <;>
        simp [Option.guard, PropertyRef.isExclusion, PropertyRef.chars, hc]

theorem covers_ofText (fields : String) (keys : List String) :
    (ofText fields).covers (dotted keys) = isIncluded fields keys := by
  rw [covers, isIncluded, ← path_includes_ofText, List.any_map, List.isEmpty_map]
  exact congrArg _ (congrArg _ (funext fun ref => ref.isAbove_eq _))

theorem leads_ofText (fields : String) (keys : List String) :
    (ofText fields).leads (dotted keys) = isOnTheWay fields keys := by
  rw [leads, isOnTheWay, ← path_includes_ofText, List.any_map]
  exact congrArg _ (funext fun ref => ref.isUnder_eq _)

section Descent

variable (projection : Projection)

/-- The path of a field begins those of the fields in it. -/
theorem dotted_begins (keys longer : List String) (hne : keys ≠ []) (h : keys <+: longer) :
    dotted keys ++ ['.'] <+: dotted longer ++ ['.'] := by
  obtain ⟨more, rfl⟩ := h
  induction more generalizing keys with
  | nil => simp
  | cons key more ih =>
      have hstep : dotted keys ++ ['.'] <+: dotted (keys ++ [key]) ++ ['.'] := by
        rw [dotted, dotted, List.map_append, List.map_singleton,
          Text.join_concat '.' _ _ (by simpa using hne)]
        exact ⟨key.toList ++ ['.'], by simp⟩
      rw [List.append_cons keys key more]
      exact hstep.trans (ih (keys ++ [key]) (by simp))

/-- Nothing at the end of the keys is kept: they are excluded, or they are neither
included nor on the way to what is. -/
def stopsAt (keys : List String) : Prop :=
  projection.drops (dotted keys) = true ∨
    projection.covers (dotted keys) = false ∧ projection.leads (dotted keys) = false

/-- Nothing further on is kept either. -/
theorem stopsAt_of_longer (keys longer : List String) (hne : keys ≠ []) (hbegins : keys <+: longer)
    (h : projection.stopsAt keys) : projection.stopsAt longer := by
  have hdotted := dotted_begins keys longer hne hbegins
  rcases h with hdrops | ⟨hcovers, hleads⟩
  · left
    obtain ⟨ref, href, habove⟩ := List.any_eq_true.mp hdrops
    refine List.any_eq_true.mpr ⟨ref, href, ?_⟩
    rw [PropertyRef.isAbove, List.isPrefixOf_iff_prefix] at habove ⊢
    exact habove.trans hdotted
  · right
    simp only [covers, leads, Bool.or_eq_false_iff, List.any_eq_false, PropertyRef.isAbove,
      PropertyRef.isUnder, List.isPrefixOf_iff_prefix] at hcovers hleads ⊢
    refine ⟨⟨hcovers.1, fun ref href habove => ?_⟩, fun ref href hunder => ?_⟩
    -- An included path above the longer keys is above the keys or on the way from them.
    · rcases List.prefix_or_prefix_of_prefix habove hdotted with h | h
      · exact hcovers.2 ref href h
      · exact hleads ref href h
    · exact hleads ref href (hdotted.trans hunder)

/-- Whether a value at a place is kept as such. Scalars on the way to an included path are
kept only as items of arrays. -/
def keepsAt (place : List Json.Step) (json : Json) : Bool :=
  !projection.drops (dotted (Json.keysOf place)) &&
    (projection.covers (dotted (Json.keysOf place)) ||
      (projection.leads (dotted (Json.keysOf place)) &&
        (isContainer json || Json.Leaf.isItem ⟨place, json⟩)))

def keepsLeaf (leaf : Json.Leaf) : Bool :=
  !projection.drops (dotted leaf.keys) &&
    (projection.covers (dotted leaf.keys) || (projection.leads (dotted leaf.keys) && leaf.isItem))

theorem keepsLeaf_eq_false (leaf : Json.Leaf) (h : projection.stopsAt leaf.keys) :
    projection.keepsLeaf leaf = false := by
  rcases h with hdrops | ⟨hcovers, hleads⟩
  · simp [keepsLeaf, hdrops]
  · simp [keepsLeaf, hcovers, hleads]

theorem keepsLeaf_scalar (place : List Json.Step) (json : Json) (h : json.isScalar = true) :
    projection.keepsLeaf ⟨place, json⟩ = projection.keepsAt place json := by
  have hcontainer : isContainer json = false := by
    cases json <;> simp_all [isContainer, Json.isScalar]
  rw [keepsLeaf, keepsAt, Json.Leaf.keys, hcontainer, Bool.false_or]

/-- The field is kept by the source just if it is as a value at its place. -/
theorem keepsAt_field (place : List Json.Step) (key : String) (value : Json) :
    projection.keepsAt (place ++ [.field key]) value =
      projection.keeps (dotted (Json.keysOf place ++ [key])) value := by
  simp [keepsAt, keeps, Json.keysOf_field, Json.Leaf.isItem, Json.Step.key?]

/-- A field that is not kept has no leaf that is. -/
theorem filter_leaves_eq_nil (place : List Json.Step) (key : String) (value : Json)
    (h : projection.keepsAt (place ++ [.field key]) value = false) :
    (value.leavesAt (place ++ [.field key])).filter projection.keepsLeaf = [] := by
  cases hscalar : value.isScalar with
  | true => simp [Json.leavesAt_scalar _ value hscalar, keepsLeaf_scalar _ _ value hscalar, h]
  | false =>
      have hcontainer : isContainer value = true := by
        cases value <;> simp_all [isContainer, Json.isScalar]
      have hstop : projection.stopsAt (Json.keysOf (place ++ [.field key])) := by
        simp only [keepsAt, hcontainer, Bool.true_or, Bool.and_true, Bool.and_eq_false_iff,
          Bool.not_eq_false', Bool.or_eq_false_iff] at h
        exact h
      refine List.filter_eq_nil_iff.mpr fun leaf hleaf => ?_
      rw [Bool.not_eq_true]
      refine projection.keepsLeaf_eq_false leaf ?_
      exact projection.stopsAt_of_longer _ _ (by simp [Json.keysOf_field])
        (Json.keys_begin _ value leaf hleaf) hstop

mutual

/-- Of a value that is kept those leaves are left that are. -/
theorem leaves_project (place : List Json.Step) (hplace : ∀ key ∈ Json.keysOf place, key ≠ "")
    (json : Json) (hjson : json.isNamed = true) (hkeeps : projection.keepsAt place json = true) :
    (projection.project (dotted (Json.keysOf place)) json).leavesAt place =
      (json.leavesAt place).filter projection.keepsLeaf := by
  cases json with
  | object fields =>
      rw [Json.isNamed] at hjson
      exact leaves_projectFields place hplace fields hjson
  | array items =>
      rw [Json.isNamed] at hjson
      exact leaves_projectItems place hplace 0 items hjson
        (by simpa [keepsAt, isContainer] using hkeeps)
  | _ =>
      rw [← projection.keepsLeaf_scalar place _ rfl] at hkeeps
      simp [project, Json.leavesAt, hkeeps]

theorem leaves_projectFields (place : List Json.Step)
    (hplace : ∀ key ∈ Json.keysOf place, key ≠ "") (fields : List (String × Json))
    (hfields : Json.areNamedFields fields = true) :
    Json.leavesOfFields place (projection.projectFields (dotted (Json.keysOf place)) fields) =
      (Json.leavesOfFields place fields).filter projection.keepsLeaf := by
  cases fields with
  | nil => rfl
  | cons field rest =>
      obtain ⟨key, value⟩ := field
      simp only [Json.areNamedFields, Bool.and_eq_true, bne_iff_ne] at hfields
      obtain ⟨⟨hkey, hvalue⟩, hrest⟩ := hfields
      have hplace' : ∀ k ∈ Json.keysOf (place ++ [.field key]), k ≠ "" := by
        intro k hk
        rw [Json.keysOf_field] at hk
        rcases List.mem_append.mp hk with hk | hk
        · exact hplace k hk
        · obtain rfl := List.mem_singleton.mp hk
          exact hkey
      have hrest := leaves_projectFields place hplace rest hrest
      rw [projectFields, childPath_dotted _ hplace, ← keepsAt_field, Json.leavesOfFields,
        List.filter_append, ← hrest]
      cases hkeeps : projection.keepsAt (place ++ [.field key]) value with
      | true =>
          have hfield := leaves_project _ hplace' value hvalue hkeeps
          rw [Json.keysOf_field] at hfield
          rw [if_pos rfl, Json.leavesOfFields, hfield]
      | false =>
          rw [if_neg (by simp), projection.filter_leaves_eq_nil place key value hkeeps,
            List.nil_append]

theorem leaves_projectItems (place : List Json.Step)
    (hplace : ∀ key ∈ Json.keysOf place, key ≠ "") (index : Nat) (items : List Json)
    (hitems : Json.areNamedItems items = true)
    (hkeeps : projection.drops (dotted (Json.keysOf place)) = false ∧
      (projection.covers (dotted (Json.keysOf place)) = true ∨
        projection.leads (dotted (Json.keysOf place)) = true)) :
    Json.leavesOfItems place index
        (projection.projectItems (dotted (Json.keysOf place)) items) =
      (Json.leavesOfItems place index items).filter projection.keepsLeaf := by
  cases items with
  | nil => rfl
  | cons item rest =>
      simp only [Json.areNamedItems, Bool.and_eq_true] at hitems
      have hitem : projection.keepsAt (place ++ [.item index]) item = true := by
        simpa [keepsAt, Json.keysOf_item, Json.Leaf.isItem, Json.Step.key?] using hkeeps
      have hproject := leaves_project _ (by rwa [Json.keysOf_item]) item hitems.1 hitem
      have hrest := leaves_projectItems place hplace (index + 1) rest hitems.2 hkeeps
      rw [Json.keysOf_item] at hproject
      rw [projectItems, Json.leavesOfItems, Json.leavesOfItems, List.filter_append, hproject,
        hrest]

end

end Descent

/-- Whether a list with commas asks for what is at the end of the keys: no excluded path
begins their path, and an included one does if there are any. -/
def selects (fields : String) (keys : List String) : Bool :=
  !isExcluded fields keys && isIncluded fields keys

/-- A scalar item of an array that is neither excluded nor included, while the array is on
the way to an included path. -/
def strays (fields : String) (leaf : Json.Leaf) : Bool :=
  leaf.isItem && !isExcluded fields leaf.keys && !isIncluded fields leaf.keys &&
    isOnTheWay fields leaf.keys

theorem keepsLeaf_ofText (fields : String) (leaf : Json.Leaf) :
    (ofText fields).keepsLeaf leaf = (selects fields leaf.keys || strays fields leaf) := by
  rw [keepsLeaf, drops_ofText, covers_ofText, leads_ofText, selects, strays]
  cases isExcluded fields leaf.keys <;> cases isIncluded fields leaf.keys <;>
    cases isOnTheWay fields leaf.keys <;> cases leaf.isItem <;> rfl

/-- The leaves of a projected record are leaves of the record, in their places and order:
those that the list asks for and the strays. So what is left of a record is what is asked
for just if the record has no strays. -/
theorem leaf_kept_iff (fields : String) (members : List (String × Json))
    (hmembers : (Json.object members).isNamed = true) :
    let record := Json.object members
    let kept := (ofText fields).apply record
    kept.leaves = record.leaves.filter
        (fun leaf => selects fields leaf.keys || strays fields leaf) ∧
      ∀ leaf ∈ record.leaves,
        (leaf ∈ kept.leaves ↔ selects fields leaf.keys = true) ↔ strays fields leaf = false := by
  intro record kept
  have hkept : kept.leaves = record.leaves.filter (ofText fields).keepsLeaf := by
    rw [Json.isNamed] at hmembers
    exact (ofText fields).leaves_projectFields [] (by simp [Json.keysOf]) members hmembers
  rw [funext (keepsLeaf_ofText fields)] at hkept
  refine ⟨hkept, fun leaf hleaf => ?_⟩
  rw [hkept, List.mem_filter, Bool.or_eq_true]
  cases hstrays : strays fields leaf with
  | false => simp [hleaf]
  | true =>
      have hnot : selects fields leaf.keys = false := by
        simp only [strays, Bool.and_eq_true, Bool.not_eq_true'] at hstrays
        simp [selects, hstrays.1.2]
      simp [hleaf, hnot]

/-- A record in which the list asks for a field of each of some tracks and for another one
without its last part, and in which nothing strays. -/
theorem leaf_kept_iff_of_tracks :
    let fields := "round(tracks.length), place, -place.zip"
    let members : List (String × Json) :=
      [("name", .string "Turku"),
        ("tracks", .array [.object [("length", .integer 300), ("number", .integer 1)],
          .object [("length", .integer 250)]]),
        ("place", .object [("city", .string "Turku"), ("zip", .string "20100")])]
    (Json.object members).isNamed = true ∧
      ((ofText fields).apply (.object members)).leaves =
        [⟨[.field "tracks", .item 0, .field "length"], .integer 300⟩,
          ⟨[.field "tracks", .item 1, .field "length"], .integer 250⟩,
          ⟨[.field "place", .field "city"], .string "Turku"⟩] :=
  ⟨rfl, (leaf_kept_iff _ _ rfl).1.trans (by rfl)⟩

/-- The list asks for the fields `b` of what is at `a`. There is a number, and it is left. -/
theorem array_item_strays :
    let leaf : Json.Leaf := ⟨[.field "a", .item 0], .integer 1⟩
    let record : Json := .object [("a", .array [.integer 1])]
    leaf ∈ record.leaves ∧ leaf ∈ ((ofText "a.b").apply record).leaves ∧
      isExcluded "a.b" leaf.keys = false ∧ isIncluded "a.b" leaf.keys = false :=
  ⟨List.mem_singleton.mpr rfl, List.mem_singleton.mpr rfl, rfl, rfl⟩

end Projection

end RecordQuery
