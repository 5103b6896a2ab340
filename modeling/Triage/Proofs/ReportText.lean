import Mathlib
import Triage.Proofs.Files.ReadBack
import Triage.Proofs.Json.Decode
import Triage.Report.Storage

/-!
# Reports as they are read back

The text of a report holds all of it. The details of an event carry no tag, but no two kinds of
details have the same members, so the first reading that finds its members is the right one.
-/

namespace Triage

open Files Json

namespace EventDetails

/-- The count of arguments is an integer of 64 bits. -/
def FitsWord : EventDetails → Prop
  | .call _ args => args ≤ maxWord
  | _ => True

instance (d : EventDetails) : Decidable d.FitsWord :=
  match d with
  | .call _ args => inferInstanceAs (Decidable (args ≤ maxWord))
  | .decorator _ _ => inferInstanceAs (Decidable True)
  | .attribute _ => inferInstanceAs (Decidable True)

theorem isPlain_toValue (d : EventDetails) : d.toValue.IsPlain := by
  cases d <;>
    exact isPlain_ofMembers (by simp [isPlain_text, isPlain_nat])

theorem isHoldable_toValue {d : EventDetails} {depth : Nat} (hdepth : 0 < depth)
    (h : d.FitsWord) : d.toValue.isHoldable depth = true := by
  unfold toValue
  split
  · exact isHoldable_ofMembers hdepth (by simpa [isHoldable_text] using isHoldable_nat _ h)
  · exact isHoldable_ofMembers hdepth (by simp [isHoldable_text])
  · exact isHoldable_ofMembers hdepth (by simp [isHoldable_text])

theorem call?_call (function : String) {args : Nat} (h : args ≤ maxWord) :
    call? (call function args).toValue = some (.call function args) := by
  rw [call?, toValue, slots?_ofMembers (by simp)]
  simp [slotIn, List.lookup, Slot.required?, Value.text, Value.string?, natUpTo?_nat h]

theorem call?_decorator (d function : String) : call? (decorator d function).toValue = none := by
  rw [call?, toValue, slots?_ofMembers (by simp)]
  simp [slotIn, List.lookup, Slot.required?]

theorem call?_attribute (label : String) : call? (EventDetails.attribute label).toValue = none := by
  rw [call?, toValue, slots?_ofMembers (by simp)]
  simp [slotIn, List.lookup, Slot.required?]

theorem decorator?_decorator (d function : String) :
    decorator? (decorator d function).toValue = some (.decorator d function) := by
  rw [decorator?, toValue, slots?_ofMembers (by simp)]
  simp [slotIn, List.lookup, Slot.required?, Value.text, Value.string?]

theorem decorator?_attribute (label : String) :
    decorator? (EventDetails.attribute label).toValue = none := by
  rw [decorator?, toValue, slots?_ofMembers (by simp)]
  simp [slotIn, List.lookup, Slot.required?]

theorem attribute?_attribute (label : String) :
    attribute? (EventDetails.attribute label).toValue = some (.attribute label) := by
  rw [attribute?, toValue, slots?_ofMembers (by simp)]
  simp [slotIn, List.lookup, Slot.required?, Value.text, Value.string?]

/-- Details are read as the variant they were written from. -/
theorem ofValue?_toValue {d : EventDetails} {above : Nat} (habove : above < nestingLimit)
    (h : d.FitsWord) : ofValue? above d.toValue = some d := by
  have hholdable : d.toValue.isHoldable (nestingLimit - above) = true :=
    isHoldable_toValue (by omega) h
  have hread : ofValue? above d.toValue =
      ((call? d.toValue <|> decorator? d.toValue) <|> attribute? d.toValue) := by
    cases d <;> exact if_pos hholdable
  rw [hread]
  match d, h with
  | .call function args, h => rw [call?_call function h]; rfl
  | .decorator d function, _ => rw [call?_decorator, decorator?_decorator]; rfl
  | .attribute label, _ => rw [call?_attribute, decorator?_attribute, attribute?_attribute]; rfl

end EventDetails

theorem EventKind.ofValue?_toValue (k : EventKind) : ofValue? k.toValue = some k := by
  cases k <;> decide

namespace Event

/-- The line and the count of arguments are integers of 64 bits. -/
def FitsWords (e : Event) : Prop := (∀ n ∈ e.line, n ≤ maxWord) ∧ e.details.FitsWord

instance (e : Event) : Decidable e.FitsWords :=
  inferInstanceAs (Decidable ((∀ n ∈ e.line, n ≤ maxWord) ∧ e.details.FitsWord))

theorem optional?_line {line : Option Nat} (h : ∀ n ∈ line, n ≤ maxWord) :
    (Slot.given ((line.map .nat).getD .null)).optional? (Value.natUpTo? maxWord) = some line := by
  cases line with
  | none => rfl
  | some n =>
    have hread := natUpTo?_nat (h n rfl)
    rw [Value.nat] at hread
    simp [Slot.optional?, Value.nat, hread]

/-- An event is read back within a report, whatever its kind and its details. -/
theorem ofValue?_toValue {e : Event} {above : Nat} (habove : above + 1 < nestingLimit)
    (h : e.FitsWords) : ofValue? above e.toValue = some e := by
  have hline := optional?_line h.1
  have hdetails := EventDetails.ofValue?_toValue habove h.2
  rw [ofValue?, toValue, slots?_ofMembers (by simp)]
  simp [slotIn, List.lookup, Slot.required?, Value.text, Value.string?, hline, hdetails,
    EventKind.ofValue?_toValue]

theorem isPlain_toValue (e : Event) : e.toValue.IsPlain := by
  have hline : ((e.line.map Value.nat).getD .null).IsPlain := by
    cases e.line with
    | none => trivial
    | some n => exact isPlain_nat n
  exact isPlain_ofMembers
    (by simp [isPlain_text, hline, EventKind.toValue, EventDetails.isPlain_toValue])

end Event

namespace Report

theorem ofValue?_toValue {r : Report} (h : ∀ e ∈ r.analysis, e.FitsWords) :
    ofValue? r.toValue = some r := by
  have hevents : (Value.array (r.analysis.map (·.toValue))).list? (Event.ofValue? 2) =
      some r.analysis :=
    list?_map fun e he => Event.ofValue?_toValue (by decide) (h e he)
  rw [ofValue?, toValue, slots?_ofMembers (by simp)]
  simp [slotIn, List.lookup, Slot.required?, hevents]

theorem isPlain_toValue (r : Report) : r.toValue.IsPlain :=
  isPlain_ofMembers
    (by simpa using isPlain_array fun e (_ : e ∈ r.analysis) => e.isPlain_toValue)

/-- The text of a report in any layout holds the report. -/
theorem ofText?_print (l : Layout) {r : Report} (h : ∀ e ∈ r.analysis, e.FitsWords) :
    ofText? (r.toValue.print l) = some r := by
  rw [ofText?, read?_print l r.isPlain_toValue]
  exact ofValue?_toValue h

theorem load_of_readText {fs : FileSystem} {p : Path} {r : Report}
    (h : ∀ e ∈ r.analysis, e.FitsWords) (hread : fs.readText p = .ok r.fileText) :
    load fs p = .ok r := by
  simp only [load, hread, fileText, ofText?_print _ h]

/-- A report is stored in a new file where its path leads to nothing yet. -/
theorem store_of_locate {fs made : FileSystem} {p : Path} {place : Location} (r : Report)
    (hmade : withParent fs p = .ok made) (hplace : made.locate true p = .ok (place, none))
    (hslashes : FileSystem.withoutSlashes p = p) :
    r.store p fs = (.ok (), made.put place (.file r.fileText.toUTF8)) := by
  have hwritten : made.writeText p r.fileText = .ok (made.put place (.file r.fileText.toUTF8)) := by
    simp [FileSystem.writeText, FileSystem.writeBytes, hslashes, hplace, bind, Except.bind, pure,
      Except.pure]
  simp [store, hmade, hwritten]

theorem readText_of_store {fs stored : FileSystem} {p : Path} {r : Report}
    (h : r.store p fs = (.ok (), stored)) : stored.readText p = .ok r.fileText := by
  unfold store at h
  split at h
  · cases h
  · split at h
    · cases h
    · rename_i written hwritten
      obtain ⟨-, rfl⟩ := Prod.mk.inj h
      exact FileSystem.readText_writeText hwritten

/-- Nothing of a report is lost in its text: both layouts are read as the report, and so is the
file that it was stored in. The details of every event are read as the variant they were. -/
theorem text_roundTrip (r : Report) (h : ∀ e ∈ r.analysis, e.FitsWords) :
    ofText? r.promptText = some r ∧ ofText? r.fileText = some r ∧
      (∀ (fs : FileSystem) (p : Path),
        fs.readText p = .ok r.fileText → load fs p = .ok r) ∧
      (∀ (fs stored : FileSystem) (p : Path),
        r.store p fs = (.ok (), stored) → load stored p = .ok r) ∧
      ∀ e ∈ r.analysis, ∀ above < nestingLimit,
        EventDetails.ofValue? above e.details.toValue = some e.details := by
  refine ⟨ofText?_print _ h, ofText?_print _ h, ?_, ?_, ?_⟩
  · intro fs p hread
    exact load_of_readText h hread
  · intro fs stored p hstored
    exact load_of_readText h (readText_of_store hstored)
  · intro e he above habove
    exact EventDetails.ofValue?_toValue habove (h e he).2

/-- Every variant under the kind of another, with characters that need an escape. -/
def mixedReport : Report where
  analysis :=
    [⟨"a\"b\\c\x01\n.py", none, .functionCall, .attribute "é\u2028\x7f"⟩,
      ⟨"", some maxWord, .attributeAccess, .call "f\t" maxWord⟩,
      ⟨"/", some 0, .functionCall, .decorator "app.route" "\x08"⟩]

def mixedPath : Path := .ofString "out/report.json"

/-- The mixed report is stored in a new directory and comes back. -/
theorem text_roundTrip_mixedReport :
    (∀ e ∈ mixedReport.analysis, e.FitsWords) ∧
      ofText? mixedReport.promptText = some mixedReport ∧
      ofText? mixedReport.fileText = some mixedReport ∧
      load (mixedReport.store mixedPath {}).2 mixedPath = .ok mixedReport ∧
      EventDetails.ofValue? 3 (EventDetails.attribute "é\u2028\x7f").toValue =
        some (.attribute "é\u2028\x7f") := by
  have hfits : ∀ e ∈ mixedReport.analysis, e.FitsWords := by decide
  have hmade : withParent {} mixedPath = .ok ⟨[([nameOf "out"], .directory)], []⟩ := by cbv
  have hplace : FileSystem.locate ⟨[([nameOf "out"], .directory)], []⟩ true mixedPath =
      .ok ([nameOf "out", nameOf "report.json"], none) := by cbv
  have hstored := store_of_locate mixedReport hmade hplace (by cbv)
  obtain ⟨hprompt, hfile, -, hload, hdetails⟩ := text_roundTrip mixedReport hfits
  refine ⟨hfits, hprompt, hfile, ?_, ?_⟩
  · rw [hstored]
    exact hload _ _ _ hstored
  · exact hdetails ⟨_, none, .functionCall, .attribute "é\u2028\x7f"⟩ List.mem_cons_self 3
      (by decide)

end Report

end Triage
