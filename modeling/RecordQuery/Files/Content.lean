/-!
Contents of files and of other inputs. They are bytes, which need not be the encoding of
a text; what is written is always a text.
-/

namespace RecordQuery

/-- The bytes of a file or of an input. -/
structure Content where
  bytes : ByteArray

namespace Content

instance : DecidableEq Content := fun first second =>
  decidable_of_iff (first.bytes.data = second.bytes.data) <| by
    rw [← ByteArray.ext_iff, mk.injEq]

instance : Repr Content :=
  ⟨fun content => reprPrec content.bytes.data⟩

def ofText (text : String) : Content :=
  ⟨text.toUTF8⟩

instance : Coe String Content :=
  ⟨ofText⟩

/-- The text that the bytes encode, if they do encode one. -/
def text? (content : Content) : Option String :=
  String.fromUTF8? content.bytes

/-- The encoding of a text is read as that text. -/
theorem text?_ofText (text : String) : (ofText text).text? = some text :=
  dif_pos text.isValidUTF8

theorem ofText_inj {text other : String} : ofText text = ofText other ↔ text = other := by
  refine ⟨fun h => Option.some.inj ?_, congrArg ofText⟩
  rw [← text?_ofText, h, text?_ofText]

end Content

end RecordQuery
