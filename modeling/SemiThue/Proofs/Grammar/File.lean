/-
Grammar files and the texts in them.

A file is read as its text would be. Its bytes must be a text, and if they are, this text is the only one that they
can be decoded to. Reading makes every carriage return a line feed, with a line feed behind it or alone, before the
text is cut into lines. A carriage return ends a line anyway, and together with a line feed it ends only one, so the
lines stay the same, and they settle the grammar and the complaints.
-/
import SemiThue.Grammar.Source.File
import SemiThue.Proofs.Grammar.Reading
import SemiThue.Proofs.Text.Lines
import SemiThue.Proofs.Text.Utf8

set_option autoImplicit false

namespace SemiThue

/-- The contents of a file are what is read of it. -/
theorem Files.Volume.read_of_contents? {v : Volume} {path : Path} {bytes : List UInt8}
    (file : v.contents? path = some bytes) : v.read path = .ok bytes := by
  unfold contents? at file
  split at file
  · rename_i leads
    rw [read, leads]
    exact congrArg Except.ok (Option.some.inj file)
  · cases file

namespace Grammar.Source.Loaded

/-- Line ends that were made line feeds change nothing. -/
theorem ofText_unifyLineEnds (source origin : Text) : ofText source.unifyLineEnds origin = ofText source origin := by
  simp only [ofText, Text.lines_unifyLineEnds]

theorem ofBytes_encode (source origin : Text) : ofBytes (Utf8.encode source) origin = .ok (ofText source origin) := by
  rw [ofBytes, Utf8.decode_encode]
  exact congrArg Except.ok (ofText_unifyLineEnds source origin)

theorem ofFile_of_contents? {v : Files.Volume} {path : Files.Path} {bytes : List UInt8}
    (file : v.contents? path = some bytes) : ofFile v path = ofBytes bytes path.toText := by
  rw [ofFile, Files.Volume.read_of_contents? file]

/-- **A file is read as its text.** If the bytes of a file are those of a text, the grammar and the complaints are
those of the text, and only where they were read from is another place. If the bytes of a file are not those of any
text, nothing is read, and the fault says that they are no text. -/
theorem file_is_read_as_its_text {v : Files.Volume} {path : Files.Path} {bytes : List UInt8}
    (file : v.contents? path = some bytes) :
    (∀ source : Text, bytes.toByteArray = source.utf8Encode → ∃ loaded, ofFile v path = .ok loaded ∧
      loaded.origin = path.toText ∧ ∀ origin, loaded.grammar = (ofText source origin).grammar ∧
        loaded.diagnostics = (ofText source origin).diagnostics) ∧
      (¬bytes.toByteArray.IsValidUTF8 → ∃ flaw, ofFile v path = .error (.flawed flaw)) := by
  rw [ofFile_of_contents? file]
  constructor
  · intro source encoded
    obtain rfl : bytes = Utf8.encode source := List.toByteArray_inj.1 (encoded.trans (Utf8.utf8Encode_eq source))
    exact ⟨_, ofBytes_encode source _, rfl, fun origin =>
      ⟨grammar_ofText_congr source origin rfl _, diagnostics_ofText_congr source origin rfl _⟩⟩
  · intro no_text
    cases decoded : Utf8.decode bytes with
    | ok source => exact absurd (Utf8.isValidUTF8_iff.2 ⟨source, decoded⟩) no_text
    | error flaw =>
      rw [ofBytes, decoded]
      exact ⟨flaw, rfl⟩

/-- A byte order mark belongs to the first line, and carriage returns are no lines of their own before a line feed.
The byte `FF` is in no text. -/
theorem file_is_read_as_its_text_marked :
    let path : Files.Path := .ofText ['g']
    let holding (bytes : List UInt8) := Files.Volume.fresh.makeFile (Files.Volume.home ++ [['g']]) bytes
    let source : Text := "\uFEFFn=3\r\nL=a\rS->a\n\r\nq".toList
    (∃ loaded, ofFile (holding (Utf8.encode source)) path = .ok loaded ∧ loaded.origin = ['g'] ∧
      loaded.grammar.bound = 5 ∧ loaded.grammar.rules = [⟨['S'], ['a'], List.cons_ne_nil _ _⟩] ∧
      loaded.diagnostics =
        [.ofLine 1 (.unknownName "\uFEFFn".toList) "\uFEFFn=3".toList, .ofLine 5 .unreadable ['q']]) ∧
      ∃ flaw, ofFile (holding [0x4E, 0xFF]) path = .error (.flawed flaw) := by
  intro path holding source
  have file (bytes : List UInt8) : (holding bytes).contents? path = some bytes :=
    congrArg some (Files.Contents.toList_ofList bytes)
  constructor
  · obtain ⟨loaded, read, origin, same⟩ :=
      (file_is_read_as_its_text (file (Utf8.encode source))).1 source (Utf8.utf8Encode_eq source).symm
    obtain ⟨grammar, diagnostics⟩ := same nowhere
    refine ⟨loaded, read, origin, ?_, ?_, ?_⟩
    · rw [grammar]
      rfl
    · rw [grammar]
      rfl
    · rw [diagnostics]
      rfl
  · refine (file_is_read_as_its_text (file [0x4E, 0xFF])).2 fun valid => ?_
    obtain ⟨t, decoded⟩ := Utf8.isValidUTF8_iff.1 valid
    cases decoded

end Grammar.Source.Loaded

end SemiThue
