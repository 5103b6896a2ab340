import Triage.Proofs.Picking
import Triage.Settings.Codec

/-!
# What a settings text says

The tables of a settings text are its sections, and the values in them are their fields. Which
settings it holds is told here field by field: a field that is given has the value that stands there,
and only one that is missing has a standard value. The functions that read settings find just that.
-/

namespace Triage

open Files Number

namespace Toml

/-- What a table has for a name: the first value under that name, or nothing. -/
inductive MemberFor (ms : Members) (name : String) : Option Value → Prop
  | given {before after : Members} {v : Value} (split : ms = before ++ (name, v) :: after)
      (first : ∀ m ∈ before, m.1 ≠ name) : MemberFor ms name (some v)
  | missing (gone : ∀ m ∈ ms, m.1 ≠ name) : MemberFor ms name none

theorem memberFor_iff {ms : Members} {name : String} {slot : Option Value} :
    MemberFor ms name slot ↔ ms.lookup name = slot := by
  constructor
  · rintro (⟨hsplit, hfirst⟩ | hgone)
    · exact List.lookup_eq_some_iff.mpr ⟨_, _, hsplit, fun m hm => by simpa using (hfirst m hm).symm⟩
    · exact List.lookup_eq_none_iff.mpr fun m hm => by simpa using (hgone m hm).symm
  · rintro rfl
    cases h : ms.lookup name with
    | none =>
      have hgone := List.lookup_eq_none_iff.mp h
      exact .missing fun m hm => Ne.symm (by simpa using hgone m hm)
    | some v =>
      obtain ⟨before, after, hsplit, hfirst⟩ := List.lookup_eq_some_iff.mp h
      exact .given hsplit fun m hm => Ne.symm (by simpa using hfirst m hm)

namespace Value

/-- What a section has for its fields. A table has them by their names, an array in their order, and
so have the tables under one header. A date has none. -/
inductive HasFields (names : List String) : Value → List (Option Value) → Prop
  | table {origin : Origin} {ms : Members} {slots : List (Option Value)}
      (members : List.Forall₂ (MemberFor ms) names slots) :
      HasFields names (.table origin ms) slots
  | array {vs : List Value} {slots : List (Option Value)} (length : slots.length = names.length)
      (items : ∀ (i : Nat) (h : i < slots.length), slots[i] = vs[i]?) :
      HasFields names (.array vs) slots
  | tables {ts : List Members} {slots : List (Option Value)}
      (elements : HasFields names (.array (ts.map (.table .header))) slots) :
      HasFields names (.tables ts) slots
  | moment : HasFields names .moment (names.map fun _ => none)

theorem hasFields_array_iff {names : List String} {vs : List Value} {slots : List (Option Value)} :
    (Value.array vs).HasFields names slots ↔
      (List.range names.length).map (fun i => vs[i]?) = slots := by
  constructor
  · rintro ⟨⟩
    rename_i hlength hitems
    refine List.ext_getElem (by simpa using hlength.symm) fun i _ h => ?_
    simpa using (hitems i h).symm
  · rintro rfl
    exact .array (by simp) (by simp)

theorem hasFields_iff {names : List String} {v : Value} {slots : List (Option Value)} :
    v.HasFields names slots ↔ v.fields? names = some slots := by
  cases v with
  | table origin ms =>
    have hmembers : MemberFor ms = fun name slot => ms.lookup name = slot := by
      funext name slot
      exact propext memberFor_iff
    have hiff : List.Forall₂ (MemberFor ms) names slots ↔
        names.map (fun name => ms.lookup name) = slots := by
      rw [hmembers, ← List.forall₂_eq_eq_eq, List.forall₂_map_left_iff]
    rw [fields?, Option.some_inj, ← hiff]
    constructor
    · rintro ⟨⟩
      assumption
    · exact .table
  | array vs => rw [fields?, Option.some_inj, hasFields_array_iff]
  | tables ts =>
    have helements : (tables ts).HasFields names slots ↔
        (array (ts.map (table .header))).HasFields names slots := by
      constructor
      · rintro ⟨⟩
        assumption
      · exact .tables
    simp only [helements, hasFields_array_iff, fields?, Option.some_inj, List.getElem?_map]
  | moment =>
    rw [fields?, Option.some_inj]
    constructor
    · rintro ⟨⟩
      rfl
    · rintro rfl
      exact .moment
  | _ => exact ⟨nofun, nofun⟩

/-! ### The values of fields -/

def IsText (v : Value) (s : String) : Prop := v = .string s

def IsPath (v : Value) (p : Path) : Prop := ∃ s, v = .string s ∧ p = .ofString s

def IsFlag (v : Value) (b : Bool) : Prop := v = .boolean b

def IsWord (v : Value) (w : UInt64) : Prop := v = .integer w.toNat

def IsHalfWord (v : Value) (w : UInt32) : Prop := v = .integer w.toNat

/-- A number of 32 bits, which may be written as an integer. -/
inductive IsSingle : Value → Single → Prop
  | integer (n : Int) : IsSingle (.integer n) (.ofRatio (n < 0) n.natAbs 1)
  | float (x : Double) : IsSingle (.float x) x.toSingle

def IsTexts (v : Value) (ss : List String) : Prop := v = .array (ss.map .string)

theorem isText_iff (v : Value) (s : String) : v.IsText s ↔ v.text? = some s := by
  cases v <;> simp [IsText, text?]

theorem isPath_iff (v : Value) (p : Path) : v.IsPath p ↔ v.path? = some p := by
  simp only [IsPath, path?, Option.map_eq_some_iff, ← isText_iff, IsText, eq_comm (a := p)]

theorem isFlag_iff (v : Value) (b : Bool) : v.IsFlag b ↔ v.flag? = some b := by
  cases v <;> simp [IsFlag, flag?]

theorem natBelow?_eq_some_iff {limit n : Nat} {v : Value} :
    v.natBelow? limit = some n ↔ v = .integer n ∧ n < limit := by
  constructor
  · intro h
    unfold natBelow? at h
    split at h
    · split at h
      · rename_i hlt
        obtain rfl := Option.some.inj h
        exact ⟨rfl, hlt⟩
      · cases h
    · cases h
  · rintro ⟨rfl, hlt⟩
    exact if_pos hlt

theorem isWord_iff (v : Value) (w : UInt64) : v.IsWord w ↔ v.word? = some w := by
  rw [word?, Option.map_eq_some_iff]
  constructor
  · intro h
    exact ⟨w.toNat, natBelow?_eq_some_iff.mpr ⟨h, w.toNat_lt⟩, UInt64.ofNat_toNat⟩
  · rintro ⟨n, hn, rfl⟩
    obtain ⟨rfl, hlt⟩ := natBelow?_eq_some_iff.mp hn
    rw [IsWord, UInt64.toNat_ofNat_of_lt' hlt]

theorem isHalfWord_iff (v : Value) (w : UInt32) : v.IsHalfWord w ↔ v.halfWord? = some w := by
  rw [halfWord?, Option.map_eq_some_iff]
  constructor
  · intro h
    exact ⟨w.toNat, natBelow?_eq_some_iff.mpr ⟨h, w.toNat_lt⟩, UInt32.ofNat_toNat⟩
  · rintro ⟨n, hn, rfl⟩
    obtain ⟨rfl, hlt⟩ := natBelow?_eq_some_iff.mp hn
    rw [IsHalfWord, UInt32.toNat_ofNat_of_lt' hlt]

theorem isSingle_iff (v : Value) (x : Single) : v.IsSingle x ↔ v.single? = some x := by
  constructor
  · rintro (_ | _) <;> rfl
  · intro h
    unfold single? at h
    split at h
    · exact Option.some.inj h ▸ .integer _
    · exact Option.some.inj h ▸ .float _
    · cases h

theorem isTexts_iff (v : Value) (ss : List String) : v.IsTexts ss ↔ v.texts? = some ss := by
  cases v with
  | array vs =>
    have hiff : List.Forall₂ IsText vs ss ↔ vs.mapM text? = some ss :=
      forall₂_iff_mapM (f := text?) isText_iff
    rw [texts?, ← hiff, IsTexts, array.injEq, ← List.forall₂_eq_eq_eq, List.forall₂_map_right_iff]
    rfl
  | _ => exact ⟨nofun, nofun⟩

end Value

end Toml

open Toml (Value Members MemberFor)

section Fields

variable {α : Type} {holds : Value → α → Prop} {read : Value → Option α} {slot : Option Value}

/-- A field with a standard value. -/
inductive OrStandard (holds : Value → α → Prop) (standard : α) : Option Value → α → Prop
  | given {v : Value} {a : α} (h : holds v a) : OrStandard holds standard (some v) a
  | missing : OrStandard holds standard none standard

/-- A field that need not have a value. -/
inductive OrNothing (holds : Value → α → Prop) : Option Value → Option α → Prop
  | given {v : Value} {a : α} (h : holds v a) : OrNothing holds (some v) (some a)
  | missing : OrNothing holds none none

/-- A section. One that is missing is like one without fields. -/
inductive SectionFor (holds : Value → α → Prop) (ms : Members) (name : String) : α → Prop
  | given {v : Value} {a : α} (there : MemberFor ms name (some v)) (h : holds v a) :
      SectionFor holds ms name a
  | missing {a : α} (gone : MemberFor ms name none) (h : holds (.table .implied []) a) :
      SectionFor holds ms name a

theorem orStandard_iff {standard a : α} (hread : ∀ v a, holds v a ↔ read v = some a) :
    OrStandard holds standard slot a ↔ orStandard read standard slot = some a := by
  cases slot with
  | none =>
    rw [orStandard, Option.some_inj]
    constructor
    · rintro ⟨⟩
      rfl
    · rintro rfl
      exact .missing
  | some v =>
    rw [orStandard, ← hread]
    constructor
    · rintro ⟨⟩
      assumption
    · exact .given

theorem orNothing_iff {a : Option α} (hread : ∀ v a, holds v a ↔ read v = some a) :
    OrNothing holds slot a ↔ orNothing read slot = some a := by
  cases slot with
  | none =>
    rw [orNothing, Option.some_inj]
    constructor
    · rintro ⟨⟩
      rfl
    · rintro rfl
      exact .missing
  | some v =>
    rw [orNothing, Option.map_eq_some_iff]
    constructor
    · rintro (h | -)
      exact ⟨_, (hread _ _).mp h, rfl⟩
    · rintro ⟨a, h, rfl⟩
      exact .given ((hread _ _).mpr h)

theorem sectionFor_iff {ms : Members} {name : String} {standard a : α}
    (hread : ∀ v a, holds v a ↔ read v = some a)
    (hempty : read (.table .implied []) = some standard) :
    SectionFor holds ms name a ↔ orStandard read standard (ms.lookup name) = some a := by
  constructor
  · rintro (⟨hthere, h⟩ | ⟨hgone, h⟩)
    · rw [Toml.memberFor_iff.mp hthere, orStandard]
      exact (hread _ _).mp h
    · rw [Toml.memberFor_iff.mp hgone, orStandard, ← hempty]
      exact (hread _ _).mp h
  · intro h
    cases hslot : ms.lookup name with
    | none =>
      rw [hslot, orStandard, ← hempty] at h
      exact .missing (Toml.memberFor_iff.mpr hslot) ((hread _ _).mpr h)
    | some v =>
      rw [hslot, orStandard] at h
      exact .given (Toml.memberFor_iff.mpr hslot) ((hread _ _).mpr h)

end Fields

/-! ### The sections -/

inductive RepositorySection.HeldBy : Value → RepositorySection → Prop
  | fields {v : Value} {url path : Option Value} {s : RepositorySection}
      (slots : v.HasFields ["url", "download_path"] [url, path])
      (url : OrNothing Value.IsText url s.url)
      (path : OrStandard Value.IsPath (.ofString "./cloned_repo") path s.downloadPath) :
      HeldBy v s

inductive OpenAiSection.HeldBy : Value → OpenAiSection → Prop
  | fields {v : Value} {key url model timeout retries tokens temperature : Option Value}
      {s : OpenAiSection}
      (slots : v.HasFields ["api_key", "base_url", "model", "timeout_secs", "max_retries",
        "max_tokens", "temperature"] [key, url, model, timeout, retries, tokens, temperature])
      (key : OrNothing Value.IsText key s.apiKey)
      (url : OrNothing Value.IsText url s.baseUrl)
      (model : OrStandard Value.IsText "gpt-4o" model s.model)
      (timeout : OrStandard Value.IsWord 300 timeout s.timeoutSeconds)
      (retries : OrStandard Value.IsHalfWord 0 retries s.maxRetries)
      (tokens : OrNothing Value.IsHalfWord tokens s.maxTokens)
      (temperature : OrNothing Value.IsSingle temperature s.temperature) : HeldBy v s

inductive ScanSection.HeldBy : Value → ScanSection → Prop
  | fields {v : Value} {extensions respect routes : Option Value} {s : ScanSection}
      (slots : v.HasFields ["extensions", "respect_gitignore", "route_attributes"]
        [extensions, respect, routes])
      (extensions : OrStandard Value.IsTexts ["py"] extensions s.extensions)
      (respect : OrStandard Value.IsFlag false respect s.respectGitignore)
      (routes : OrStandard Value.IsTexts ["route"] routes s.routeAttributes) : HeldBy v s

inductive ReportSection.HeldBy : Value → ReportSection → Prop
  | fields {v : Value} {path : Option Value} {s : ReportSection}
      (slots : v.HasFields ["path"] [path])
      (path : OrStandard Value.IsPath (.ofString "outputs/analysis_report.json") path s.path) :
      HeldBy v s

inductive LoggingSection.HeldBy : Value → LoggingSection → Prop
  | fields {v : Value} {dir : Option Value} {s : LoggingSection} (slots : v.HasFields ["dir"] [dir])
      (dir : OrNothing Value.IsPath dir s.dir) : HeldBy v s

/-- A root table holds settings when its sections do. -/
structure Settings.HeldBy (s : Settings) (ms : Members) : Prop where
  repository : SectionFor RepositorySection.HeldBy ms "repository" s.repository
  openai : SectionFor OpenAiSection.HeldBy ms "openai" s.openai
  scan : SectionFor ScanSection.HeldBy ms "scan" s.scan
  report : SectionFor ReportSection.HeldBy ms "report" s.report
  logging : SectionFor LoggingSection.HeldBy ms "logging" s.logging

/-- The settings that a text holds. -/
def Settings.HeldIn (s : Settings) (text : String) : Prop :=
  ∃ ms, Toml.read? text = some ms ∧ s.HeldBy ms

theorem RepositorySection.heldBy_iff (v : Value) (s : RepositorySection) :
    HeldBy v s ↔ ofValue? v = some s := by
  constructor
  · rintro ⟨hslots, hurl, hpath⟩
    simp only [ofValue?, Value.hasFields_iff.mp hslots, Option.bind_eq_bind, Option.bind_some,
      (orNothing_iff Value.isText_iff).mp hurl, (orStandard_iff Value.isPath_iff).mp hpath,
      Option.pure_def]
  · intro h
    obtain ⟨slots, hslots, h⟩ := Option.bind_eq_some_iff.mp h
    split at h
    · obtain ⟨url, hurl, h⟩ := Option.bind_eq_some_iff.mp h
      obtain ⟨path, hpath, h⟩ := Option.bind_eq_some_iff.mp h
      obtain rfl := Option.some.inj h
      exact .fields (Value.hasFields_iff.mpr hslots) ((orNothing_iff Value.isText_iff).mpr hurl)
        ((orStandard_iff Value.isPath_iff).mpr hpath)
    · cases h

theorem OpenAiSection.heldBy_iff (v : Value) (s : OpenAiSection) :
    HeldBy v s ↔ ofValue? v = some s := by
  constructor
  · rintro ⟨hslots, hkey, hurl, hmodel, htimeout, hretries, htokens, htemperature⟩
    simp only [ofValue?, Value.hasFields_iff.mp hslots, Option.bind_eq_bind, Option.bind_some,
      (orNothing_iff Value.isText_iff).mp hkey, (orNothing_iff Value.isText_iff).mp hurl,
      (orStandard_iff Value.isText_iff).mp hmodel, (orStandard_iff Value.isWord_iff).mp htimeout,
      (orStandard_iff Value.isHalfWord_iff).mp hretries,
      (orNothing_iff Value.isHalfWord_iff).mp htokens,
      (orNothing_iff Value.isSingle_iff).mp htemperature, Option.pure_def]
  · intro h
    obtain ⟨slots, hslots, h⟩ := Option.bind_eq_some_iff.mp h
    split at h
    · obtain ⟨key, hkey, h⟩ := Option.bind_eq_some_iff.mp h
      obtain ⟨url, hurl, h⟩ := Option.bind_eq_some_iff.mp h
      obtain ⟨model, hmodel, h⟩ := Option.bind_eq_some_iff.mp h
      obtain ⟨timeout, htimeout, h⟩ := Option.bind_eq_some_iff.mp h
      obtain ⟨retries, hretries, h⟩ := Option.bind_eq_some_iff.mp h
      obtain ⟨tokens, htokens, h⟩ := Option.bind_eq_some_iff.mp h
      obtain ⟨temperature, htemperature, h⟩ := Option.bind_eq_some_iff.mp h
      obtain rfl := Option.some.inj h
      exact .fields (Value.hasFields_iff.mpr hslots) ((orNothing_iff Value.isText_iff).mpr hkey)
        ((orNothing_iff Value.isText_iff).mpr hurl) ((orStandard_iff Value.isText_iff).mpr hmodel)
        ((orStandard_iff Value.isWord_iff).mpr htimeout)
        ((orStandard_iff Value.isHalfWord_iff).mpr hretries)
        ((orNothing_iff Value.isHalfWord_iff).mpr htokens)
        ((orNothing_iff Value.isSingle_iff).mpr htemperature)
    · cases h

theorem ScanSection.heldBy_iff (v : Value) (s : ScanSection) :
    HeldBy v s ↔ ofValue? v = some s := by
  constructor
  · rintro ⟨hslots, hextensions, hrespect, hroutes⟩
    simp only [ofValue?, Value.hasFields_iff.mp hslots, Option.bind_eq_bind, Option.bind_some,
      (orStandard_iff Value.isTexts_iff).mp hextensions,
      (orStandard_iff Value.isFlag_iff).mp hrespect,
      (orStandard_iff Value.isTexts_iff).mp hroutes, Option.pure_def]
  · intro h
    obtain ⟨slots, hslots, h⟩ := Option.bind_eq_some_iff.mp h
    split at h
    · obtain ⟨extensions, hextensions, h⟩ := Option.bind_eq_some_iff.mp h
      obtain ⟨respect, hrespect, h⟩ := Option.bind_eq_some_iff.mp h
      obtain ⟨routes, hroutes, h⟩ := Option.bind_eq_some_iff.mp h
      obtain rfl := Option.some.inj h
      exact .fields (Value.hasFields_iff.mpr hslots)
        ((orStandard_iff Value.isTexts_iff).mpr hextensions)
        ((orStandard_iff Value.isFlag_iff).mpr hrespect)
        ((orStandard_iff Value.isTexts_iff).mpr hroutes)
    · cases h

theorem ReportSection.heldBy_iff (v : Value) (s : ReportSection) :
    HeldBy v s ↔ ofValue? v = some s := by
  constructor
  · rintro ⟨hslots, hpath⟩
    simp only [ofValue?, Value.hasFields_iff.mp hslots, Option.bind_eq_bind, Option.bind_some,
      (orStandard_iff Value.isPath_iff).mp hpath, Option.pure_def]
  · intro h
    obtain ⟨slots, hslots, h⟩ := Option.bind_eq_some_iff.mp h
    split at h
    · obtain ⟨path, hpath, h⟩ := Option.bind_eq_some_iff.mp h
      obtain rfl := Option.some.inj h
      exact .fields (Value.hasFields_iff.mpr hslots) ((orStandard_iff Value.isPath_iff).mpr hpath)
    · cases h

theorem LoggingSection.heldBy_iff (v : Value) (s : LoggingSection) :
    HeldBy v s ↔ ofValue? v = some s := by
  constructor
  · rintro ⟨hslots, hdir⟩
    simp only [ofValue?, Value.hasFields_iff.mp hslots, Option.bind_eq_bind, Option.bind_some,
      (orNothing_iff Value.isPath_iff).mp hdir, Option.pure_def]
  · intro h
    obtain ⟨slots, hslots, h⟩ := Option.bind_eq_some_iff.mp h
    split at h
    · obtain ⟨dir, hdir, h⟩ := Option.bind_eq_some_iff.mp h
      obtain rfl := Option.some.inj h
      exact .fields (Value.hasFields_iff.mpr hslots) ((orNothing_iff Value.isPath_iff).mpr hdir)
    · cases h

theorem Settings.heldBy_iff {ms : Members} {s : Settings} :
    s.HeldBy ms ↔ ofMembers? ms = some s := by
  constructor
  · rintro ⟨hrepository, hopenai, hscan, hreport, hlogging⟩
    simp only [ofMembers?, (sectionFor_iff RepositorySection.heldBy_iff rfl).mp hrepository,
      (sectionFor_iff OpenAiSection.heldBy_iff rfl).mp hopenai,
      (sectionFor_iff ScanSection.heldBy_iff rfl).mp hscan,
      (sectionFor_iff ReportSection.heldBy_iff rfl).mp hreport,
      (sectionFor_iff LoggingSection.heldBy_iff rfl).mp hlogging, Option.bind_eq_bind,
      Option.bind_some, Option.pure_def]
  · intro h
    obtain ⟨repository, hrepository, h⟩ := Option.bind_eq_some_iff.mp h
    obtain ⟨openai, hopenai, h⟩ := Option.bind_eq_some_iff.mp h
    obtain ⟨scan, hscan, h⟩ := Option.bind_eq_some_iff.mp h
    obtain ⟨report, hreport, h⟩ := Option.bind_eq_some_iff.mp h
    obtain ⟨logging, hlogging, h⟩ := Option.bind_eq_some_iff.mp h
    obtain rfl := Option.some.inj h
    exact ⟨(sectionFor_iff RepositorySection.heldBy_iff rfl).mpr hrepository,
      (sectionFor_iff OpenAiSection.heldBy_iff rfl).mpr hopenai,
      (sectionFor_iff ScanSection.heldBy_iff rfl).mpr hscan,
      (sectionFor_iff ReportSection.heldBy_iff rfl).mpr hreport,
      (sectionFor_iff LoggingSection.heldBy_iff rfl).mpr hlogging⟩

theorem Settings.heldIn_iff {text : String} {s : Settings} :
    s.HeldIn text ↔ ofText? text = some s := by
  rw [HeldIn, ofText?, Option.bind_eq_bind, Option.bind_eq_some_iff]
  simp only [heldBy_iff]

end Triage
