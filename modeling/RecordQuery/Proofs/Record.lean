import RecordQuery.Proofs.Decimal.OfInt
import RecordQuery.Proofs.Entries
import RecordQuery.Record

/-!
Values read from records. What is found at the path of a property is read part by part:
null is undefined, an array is a list with one element for each of its items, and anything
else is one scalar. The scalar is of the declared type if the element stands for one, and
the text of the element if not. No scalar is a decimal without a value, as long as the
numbers in the record are finite.

Only objects have fields. Where the path leads to nothing, or on through anything else, the
property is undefined.
-/

namespace RecordQuery

namespace Json

mutual

/-- Every whole number fits 64 bits, with or without a sign, every other number is finite,
and the fields of an object have distinct names. -/
def IsProper : Json → Prop
  | .integer n => -2 ^ 63 ≤ n ∧ n < 2 ^ 64
  | .decimal x => x.isFinite = true
  | .array items => AreProper items
  | .object fields => (Entries.keys fields).Nodup ∧ AreProperFields fields
  | .null | .boolean _ | .string _ => True

def AreProper : List Json → Prop
  | [] => True
  | item :: rest => item.IsProper ∧ AreProper rest

def AreProperFields : List (String × Json) → Prop
  | [] => True
  | (_, value) :: rest => value.IsProper ∧ AreProperFields rest

end

/-- The field names lead from a value to another, each through an object with this field. -/
inductive Leads : List String → Json → Json → Prop
  | here (json : Json) : Leads [] json json
  | field {name : String} {rest : List String} {fields : List (String × Json)} {inner json : Json}
      (hfield : (name, inner) ∈ fields) (hrest : Leads rest inner json) :
      Leads (name :: rest) (.object fields) json

theorem isProper_of_mem {fields : List (String × Json)} (h : AreProperFields fields)
    {name : String} {value : Json} (hmem : (name, value) ∈ fields) : value.IsProper := by
  induction fields with
  | nil => cases hmem
  | cons field rest ih =>
      rcases List.mem_cons.mp hmem with rfl | hmem
      · exact h.1
      · exact ih h.2 hmem

/-- A path is followed wherever it leads. -/
theorem at?_eq_some_iff (path : List String) {json : Json} (h : json.IsProper) (found : Json) :
    json.at? path = some found ↔ Leads path json found := by
  induction path generalizing json with
  | nil =>
      rw [at?, Option.some.injEq]
      constructor
      · rintro rfl
        exact .here json
      · rintro ⟨⟩
        rfl
  | cons name rest ih =>
      constructor
      · intro hat
        cases json with
        | object fields =>
            rw [at?, Option.bind_eq_some_iff] at hat
            obtain ⟨inner, hget, hrest⟩ := hat
            have hmem := Entries.mem_of_get? hget
            exact .field hmem ((ih (isProper_of_mem h.2 hmem)).mp hrest)
        | _ => cases hat
      · intro hleads
        cases hleads with
        | field hfield hrest =>
            rw [at?, Entries.get?_of_mem h.1 hfield, Option.bind_some]
            exact (ih (isProper_of_mem h.2 hfield)).mpr hrest

end Json

namespace Scalar

theorem eq_of_ofJson?_text {json : Json} {scalar : Scalar} (h : ofJson? json .text = some scalar) :
    scalar = .text json.plainText := by
  cases json with
  | string content => exact (Option.some.inj h).symm
  | _ => cases h

/-- What a proper element stands for is no decimal without a value. -/
theorem isFinite_of_ofJson? {json : Json} (hproper : json.IsProper) {type : ValueType} {x : Float}
    (h : ofJson? json type = some (.decimal x)) : x.isFinite = true := by
  obtain rfl : ValueType.decimal = type := type_of_ofJson? h
  cases json with
  | integer n =>
      obtain rfl := Scalar.decimal.inj (Option.some.inj h)
      have hrange : n.natAbs < 2 ^ 64 := by
        obtain ⟨hlow, hhigh⟩ := hproper
        omega
      exact (Decimal.toRat_ofInt n hrange).1
  | decimal y =>
      obtain rfl := Scalar.decimal.inj (Option.some.inj h)
      exact hproper
  | string content =>
      obtain ⟨y, hy, heq⟩ := Option.map_eq_some_iff.mp h
      obtain rfl := Scalar.decimal.inj heq
      exact (Option.filter_eq_some_iff.mp hy).2
  | _ => cases h

end Scalar

namespace Value

/-- What an element of a property of the type is read as. -/
structure Represents (type : ValueType) (json : Json) (scalar : Scalar) : Prop where
  fits : (Scalar.ofJson? json type = some scalar ∧ scalar.type = type) ∨
    (Scalar.ofJson? json type = none ∧ scalar = .text json.plainText)
  text : type = .text → scalar = .text json.plainText
  finite : ∀ x, scalar = .decimal x → x.isFinite = true

/-- The shape of what a property of the type is read as. -/
inductive Mirrors (type : ValueType) : Json → Value → Prop
  | null : Mirrors type .null .undefined
  | array {items : List Json} {values : List Value} (h : List.Forall₂ (Mirrors type) items values) :
      Mirrors type (.array items) (.list values)
  | element {json : Json} {scalar : Scalar} (helement : json.isElement = true)
      (h : Represents type json scalar) : Mirrors type json (.scalar scalar)

theorem represents_toScalar (type : ValueType) {json : Json} (h : json.IsProper) :
    Represents type json (json.toScalar type) := by
  rw [Json.toScalar]
  cases hscalar : Scalar.ofJson? json type with
  | none => exact ⟨.inr ⟨hscalar, rfl⟩, fun _ => rfl, nofun⟩
  | some scalar =>
      refine ⟨.inl ⟨hscalar, Scalar.type_of_ofJson? hscalar⟩, ?_, ?_⟩
      · rintro rfl
        exact Scalar.eq_of_ofJson?_text hscalar
      · rintro x rfl
        exact Scalar.isFinite_of_ofJson? h hscalar

mutual

theorem mirrors_ofJson (type : ValueType) (json : Json) (h : json.IsProper) :
    Mirrors type json (ofJson type json) := by
  cases json with
  | null => exact .null
  | array items => exact .array (mirrors_ofJsonAll type items h)
  | _ =>
      rw [ofJson_of_isElement type rfl]
      exact .element rfl (represents_toScalar type h)

theorem mirrors_ofJsonAll (type : ValueType) (items : List Json) (h : Json.AreProper items) :
    List.Forall₂ (Mirrors type) items (ofJsonAll type items) := by
  cases items with
  | nil => exact .nil
  | cons item rest =>
      exact .cons (mirrors_ofJson type item h.1) (mirrors_ofJsonAll type rest h.2)

end

theorem ofJson_eq_undefined_iff (type : ValueType) (json : Json) :
    ofJson type json = .undefined ↔ json = .null := by
  cases json with
  | null => simp [ofJson]
  | array items => simp [ofJson]
  | _ =>
      rw [ofJson_of_isElement type rfl]
      simp

end Value

namespace Declaration

/-- A value is read in its own shape, whatever the type: undefined for null, a list for an
array, one scalar for anything else. A property is read so from where its path leads, and is
undefined if the path leads nowhere or to null, and not otherwise. -/
theorem read_mirrors_record (type : ValueType) (json : Json) (hproper : json.IsProper)
    (declaration : Declaration) :
    Value.Mirrors type json (.ofJson type json) ∧
      (Value.ofJson type json = .undefined ↔ json = .null) ∧
      (∀ found, json.Leads declaration.segments found →
        declaration.read json = .ofJson declaration.type found) ∧
      (declaration.read json = .undefined ↔
        ∀ found, json.Leads declaration.segments found → found = .null) := by
  have hat := Json.at?_eq_some_iff declaration.segments hproper
  have hread : ∀ found, json.Leads declaration.segments found →
      declaration.read json = .ofJson declaration.type found := by
    intro found hleads
    rw [read, (hat found).mpr hleads]
  refine ⟨Value.mirrors_ofJson type json hproper, Value.ofJson_eq_undefined_iff type json,
    hread, ?_⟩
  constructor
  · intro hundefined found hleads
    rwa [hread found hleads, Value.ofJson_eq_undefined_iff] at hundefined
  · intro hnull
    rw [read]
    cases hfound : json.at? declaration.segments with
    | none => rfl
    | some found =>
        obtain rfl := hnull found ((hat found).mp hfound)
        rfl

/-- A number that no word holds and a text that is no number are kept as texts. -/
theorem read_mirrors_record_of_nested :
    let items : Json := .array [.null, .string "NaN", .integer (-5),
      .array [.integer 9223372036854775808, .object [("c", .null)]]]
    let record : Json := .object [("a", .object [("b", items)])]
    let declaration : Declaration := ⟨" a.b ", .integer, false⟩
    record.IsProper ∧ record.Leads declaration.segments items ∧
      declaration.read record = .ofJson .integer items ∧
      Value.ofJson .integer items = .list [.undefined, .scalar (.text "NaN"),
        .scalar (.integer (-5)), .list [.scalar (.text "9223372036854775808"),
          .scalar (.text "\x7b\"c\":null\x7d")]] := by
  intro items record declaration
  have hproper : record.IsProper := by
    simp [record, items, Json.IsProper, Json.AreProper, Json.AreProperFields, Entries.keys]
  have hsegments : declaration.segments = ["a", "b"] := by decide +kernel
  have hleads : record.Leads declaration.segments items := by
    rw [hsegments]
    exact .field List.mem_cons_self (.field List.mem_cons_self (.here items))
  obtain ⟨-, -, hread, -⟩ := read_mirrors_record .integer record hproper declaration
  exact ⟨hproper, hleads, hread items hleads, rfl⟩

end Declaration

end RecordQuery
