import RecordQuery.Configuration
import RecordQuery.Proofs.Outcome

/-!
Configurations in files. Where a path leads to a file with the text of a configuration,
this configuration is loaded; the text to start with is that of one with two properties.
-/

namespace RecordQuery.Configuration

/-- The properties that the configuration to start with declares. -/
def starterDeclarations : List Declaration :=
  [⟨"name", .text, false⟩, ⟨"size", .integer, false⟩]

/-- The characters of the text, which need not be decoded when taken from the lines. -/
theorem toList_starter :
    starter.toList = starterLines.flatMap fun line => line.toList ++ ['\n'] :=
  String.toList_ofList

theorem bind_read?_starter :
    (Toml.read? starter).bind ofTable = some ⟨none, starterDeclarations⟩ := by
  unfold Toml.read?
  rw [toList_starter]
  decide +kernel

theorem validate_starterDeclarations : validate starterDeclarations = .ok () := by
  refine eq_ok_of_toOption ?_
  decide +kernel

theorem ofText_starter : ofText starter = .ok ⟨none, starterDeclarations⟩ := by
  rw [ofText, bind_read?_starter]
  simp only [validate_starterDeclarations]
  rfl

/-- The text that a path leads to is loaded. -/
theorem load_of_find {files : Files} {path : Path} {text : String}
    (h : files.find path = .ok (.file text)) : load files path = ofText text := by
  have hread : files.read path = .ok text := by
    rw [Files.read, h]
    show Content.read (Content.ofText text) = .ok text
    rw [Content.read, Content.text?_ofText]
  have hthere : files.has path = true := by
    rw [Files.has, h]
    rfl
  rw [load, if_pos hthere, hread]

/-- The schema is that of the configuration to start with where its text is. -/
theorem schemaAt_of_find_starter {files : Files} {path : Path}
    (h : files.find path = .ok (.file starter)) :
    schemaAt files path = .ok (.ofDeclarations starterDeclarations) := by
  rw [schemaAt, load_of_find h, ofText_starter]
  rfl

end RecordQuery.Configuration
