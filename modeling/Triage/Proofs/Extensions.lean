import Triage.Proofs.LowerCase
import Triage.Proofs.Refusal
import Triage.Scan

/-!
# Extensions that are selected and extensions that are known

A scan selects files by their extensions in any case of ASCII letters, and the language of a file
is told by its extension in lower case. For the known extensions both come to the same, and a file
that was selected although it is in no known language is passed over unopened.
-/

namespace Triage

open Files

namespace Language

/-- One of the known extensions, in any case of ASCII letters. -/
def IsKnown (extension : String) : Prop :=
  Text.lowerAscii extension = "py" ∨ Text.lowerAscii extension = "pyi"

instance (e : String) : Decidable (IsKnown e) :=
  inferInstanceAs (Decidable (Text.lowerAscii e = "py" ∨ Text.lowerAscii e = "pyi"))

theorem isKnown_iff {e : String} : IsKnown e ↔ Text.lowerAscii e ∈ python.extensions :=
  List.mem_pair.symm

theorem isPlainLetter_of_mem_extensions {e : String} (h : e ∈ python.extensions) :
    ∀ d ∈ e.toList, Text.IsPlainLetter d := by
  rcases List.mem_pair.mp h with rfl | rfl <;> simp [Text.IsPlainLetter]

/-- Whichever form each sigma takes, only ASCII capitals are in lower case a known extension. -/
theorem mem_extensions_iff {e low : String} (h : Text.IsLowerOf low e) :
    low ∈ python.extensions ↔ IsKnown e := by
  rw [isKnown_iff]
  constructor
  · intro hmem
    rwa [(Text.isLowerOf_iff (isPlainLetter_of_mem_extensions hmem)).mp h]
  · intro hknown
    have ascii := Text.ascii_of_lowerAscii (isPlainLetter_of_mem_extensions hknown) rfl
    rwa [(Text.isLowerOf_iff_of_ascii ascii).mp h] at hknown

theorem ofExtension?_eq_some_iff {e : String} : ofExtension? e = some python ↔ IsKnown e := by
  rw [← mem_extensions_iff (Text.isLowerOf_lower e), ofExtension?]
  simp

theorem ofExtension?_eq_none_iff {e : String} : ofExtension? e = none ↔ ¬ IsKnown e := by
  rw [← mem_extensions_iff (Text.isLowerOf_lower e), ofExtension?]
  simp

theorem ofPath?_eq {p : Path} {e : String} (h : extensionText? p = some e) :
    ofPath? p = ofExtension? e := by
  rw [ofPath?, h]
  rfl

end Language

namespace SourceFile

/-- Read a file whose bytes come from `readBytes`, with whatever effects that has. -/
def loadIn {m : Type → Type} [Monad m] (readBytes : Path → m (Except IoError ByteArray))
    (p : Path) : m (Except ParseError SourceFile) :=
  match Language.ofPath? p with
  | none => pure (.error (unknownLanguage p))
  | some language => ofBytes Python.parse? language p <$> readBytes p

theorem load_eq_loadIn (fs : FileSystem) (p : Path) :
    load fs p = Id.run (loadIn (fun q => pure (fs.readBytes q)) p) := by
  rw [load_eq_loadWith]
  unfold loadWith loadIn
  cases Language.ofPath? p <;> rfl

/-- Once a file is opened, its extension is no reason to refuse it any more. -/
theorem ofBytes_ne_unsupported (accept? : String → Except Nat Python.Tree) (language : Language)
    (p : Path) (bytes : Except IoError ByteArray) (x : String) :
    ofBytes accept? language p bytes ≠ .error (.unsupportedExtension x) := by
  unfold ofBytes
  intro h
  split at h
  · cases h
  · split at h
    · cases h
    · split at h <;> cases h

theorem load_of_unknown {p : Path} {e : String} (hext : Language.extensionText? p = some e)
    (hunknown : ¬ Language.IsKnown e) (fs : FileSystem) :
    load fs p = .error (.unsupportedExtension e) := by
  rw [load_eq_loadWith, loadWith, Language.ofPath?_eq hext,
    Language.ofExtension?_eq_none_iff.mpr hunknown]
  simp [unknownLanguage, hext]

/-- Nothing is done for a file in no known language, in particular nothing is read. -/
theorem loadIn_of_unknown {p : Path} {e : String} (hext : Language.extensionText? p = some e)
    (hunknown : ¬ Language.IsKnown e) {m : Type → Type} [Monad m]
    (readBytes : Path → m (Except IoError ByteArray)) :
    loadIn readBytes p = pure (.error (.unsupportedExtension e)) := by
  rw [loadIn, Language.ofPath?_eq hext, Language.ofExtension?_eq_none_iff.mpr hunknown]
  simp [unknownLanguage, hext]

theorem load_of_known {p : Path} {e : String} (hext : Language.extensionText? p = some e)
    (hknown : Language.IsKnown e) (fs : FileSystem) (x : String) :
    load fs p ≠ .error (.unsupportedExtension x) := by
  rw [load_eq_loadWith, loadWith, Language.ofPath?_eq hext,
    Language.ofExtension?_eq_some_iff.mpr hknown]
  exact ofBytes_ne_unsupported _ _ _ _ _

theorem exists_unsupported_iff {p : Path} {e : String} (hext : Language.extensionText? p = some e)
    (fs : FileSystem) :
    (∃ x, load fs p = .error (.unsupportedExtension x)) ↔ ¬ Language.IsKnown e := by
  constructor
  · rintro ⟨x, hx⟩ hknown
    exact load_of_known hext hknown fs x hx
  · exact fun hunknown => ⟨e, load_of_unknown hext hunknown fs⟩

end SourceFile

namespace Scan

theorem isSelected_iff {extensions : List String} {p : Path} :
    isSelected extensions p = true ↔
      ∃ e, Language.extensionText? p = some e ∧
        ∃ wanted ∈ extensions, Text.lowerAscii wanted = Text.lowerAscii e := by
  unfold isSelected
  cases Language.extensionText? p <;> simp

theorem isKnown_of_isSelected {extensions : List String}
    (known : ∀ wanted ∈ extensions, Language.IsKnown wanted) {p : Path}
    (selected : isSelected extensions p = true) :
    ∃ e, Language.extensionText? p = some e ∧ Language.IsKnown e := by
  obtain ⟨e, hext, wanted, hwanted, hsame⟩ := isSelected_iff.mp selected
  have hknown := known wanted hwanted
  rw [Language.IsKnown, hsame] at hknown
  exact ⟨e, hext, hknown⟩

/-- An extension is known exactly when it is `py` or `pyi` in some case of ASCII letters, whatever
lower case makes of other characters. So files that were selected by known extensions are never
refused for theirs. Whatever the extensions, a file that was selected is refused for its own exactly
when that is not known, and passed over without any effect that reading it would have. -/
theorem selection_agrees_with_language :
    (∀ e, (Language.ofExtension? e).isSome = true ↔ Language.IsKnown e) ∧
      (∀ e, Text.IsLowerOf (Text.lower e) e ∧ ∀ low, Text.IsLowerOf low e →
        (low ∈ Language.allExtensions ↔ Language.IsKnown e)) ∧
      (∀ fs p, SourceFile.load fs p =
        Id.run (SourceFile.loadIn (fun q => pure (fs.readBytes q)) p)) ∧
      ∀ extensions p, isSelected extensions p = true →
        ((∀ wanted ∈ extensions, Language.IsKnown wanted) →
          ∀ fs x, SourceFile.load fs p ≠ .error (.unsupportedExtension x)) ∧
        ∃ e, Language.extensionText? p = some e ∧
          (∀ fs, (∃ x, SourceFile.load fs p = .error (.unsupportedExtension x)) ↔
            ¬ Language.IsKnown e) ∧
          (¬ Language.IsKnown e →
            (∀ options fs, fileEvents fs p = (p, .error (.unsupportedExtension e)) ∧
              fileRecord options fs p = (p, .error (.unsupportedExtension e))) ∧
            ∀ (m : Type → Type) [Monad m] (readBytes : Path → m (Except IoError ByteArray)),
              SourceFile.loadIn readBytes p = pure (.error (.unsupportedExtension e))) := by
  refine ⟨fun e => ?_, fun e => ⟨Text.isLowerOf_lower e, fun low => Language.mem_extensions_iff⟩,
    SourceFile.load_eq_loadIn, fun extensions p selected => ⟨fun known fs x => ?_, ?_⟩⟩
  · rw [Option.isSome_iff_exists]
    exact ⟨fun ⟨.python, h⟩ => Language.ofExtension?_eq_some_iff.mp h,
      fun h => ⟨_, Language.ofExtension?_eq_some_iff.mpr h⟩⟩
  · obtain ⟨e, hext, hknown⟩ := isKnown_of_isSelected known selected
    exact SourceFile.load_of_known hext hknown fs x
  · obtain ⟨e, hext, -⟩ := isSelected_iff.mp selected
    refine ⟨e, hext, SourceFile.exists_unsupported_iff hext, fun hunknown =>
      ⟨fun options fs => ?_, fun m _ readBytes => ?_⟩⟩
    · rw [fileEvents, fileRecord, SourceFile.load_of_unknown hext hunknown fs]
      exact ⟨rfl, rfl⟩
    · exact SourceFile.loadIn_of_unknown hext hunknown readBytes

/-- A stub in odd letters is read, and a text file that was asked for is not even opened. -/
theorem selection_agrees_with_language_oddLetters :
    isSelected ["PY", "pYI"] (.ofString "r/a.PyI") = true ∧
      (∀ fs x, SourceFile.load fs (.ofString "r/a.PyI") ≠ .error (.unsupportedExtension x)) ∧
      isSelected ["py", "TXT"] (.ofString "r/b.tXt") = true ∧
      ∀ opened : List Path,
        (SourceFile.loadIn (m := StateM (List Path))
          (fun q opened => (.error .notFound, q :: opened)) (.ofString "r/b.tXt")).run opened =
            (.error (.unsupportedExtension "tXt"), opened) := by
  have hstub : isSelected ["PY", "pYI"] (.ofString "r/a.PyI") = true := by cbv
  have htext : isSelected ["py", "TXT"] (.ofString "r/b.tXt") = true := by cbv
  have hext : Language.extensionText? (.ofString "r/b.tXt") = some "tXt" := by cbv
  obtain ⟨-, -, -, hselected⟩ := selection_agrees_with_language
  obtain ⟨hnever, -⟩ := hselected _ _ hstub
  obtain ⟨-, e, he, -, hunopened⟩ := hselected _ _ htext
  obtain rfl : "tXt" = e := Option.some.inj (hext.symm.trans he)
  obtain ⟨-, heffect⟩ := hunopened (by decide +kernel)
  refine ⟨hstub, hnever (by decide +kernel), htext, fun opened => ?_⟩
  rw [heffect]
  rfl

end Scan

end Triage
