import Triage.Proofs.Files.Ancestors
import Triage.Proofs.Files.ReadBack
import Triage.Proofs.Picking
import Triage.Proofs.SettingsText
import Triage.Settings.Discovery

/-!
# The nearest settings

Settings are looked for from one directory upwards, and the first file that is there decides, for
good or ill. Settings that were named are never looked for, and never replaced by the standard ones.
-/

namespace Triage.Settings

open Files

variable {fs fs' : FileSystem} {start dir : Path}

/-- Where a directory has its settings. -/
def fileIn (dir : Path) : Path := (dir.join dataDirectory).join configFile

/-- What comes of a settings file: the settings that its text holds, or what is wrong with it. -/
inductive Loads (fs : FileSystem) (file : Path) : Except ConfigError Settings → Prop
  | content {text : String} {s : Settings} (read : fs.readText file = .ok text)
      (holds : s.HeldIn text) : Loads fs file (.ok s)
  | unreadable {e : IoError} (failed : fs.readText file = .error e) :
      Loads fs file (.error (.unreadable file))
  | malformed {text : String} (read : fs.readText file = .ok text)
      (nothing : ∀ s : Settings, ¬ s.HeldIn text) : Loads fs file (.error (.malformed file))

theorem load_eq_iff {file : Path} {result : Except ConfigError Settings} :
    load fs file = result ↔ Loads fs file result := by
  constructor
  · rintro rfl
    unfold load
    cases hread : fs.readText file with
    | error e => exact .unreadable hread
    | ok text =>
      dsimp only
      cases hparsed : ofText? text with
      | none =>
        refine .malformed hread fun s hs => ?_
        cases hparsed.symm.trans (heldIn_iff.mp hs)
      | some s => exact .content hread (heldIn_iff.mpr hparsed)
  · intro h
    unfold load
    cases h with
    | content hread hholds => simp only [hread, heldIn_iff.mp hholds]
    | unreadable hfailed => simp only [hfailed]
    | malformed hread hnothing =>
      have hparsed : ∀ s, ofText? _ ≠ some s := fun s hs => hnothing s (heldIn_iff.mpr hs)
      simp only [hread, Option.eq_none_iff_forall_ne_some.mpr hparsed]

theorem Loads.unique {file : Path} {result result' : Except ConfigError Settings}
    (h : Loads fs file result) (h' : Loads fs file result') : result = result' :=
  (load_eq_iff.mpr h).symm.trans (load_eq_iff.mpr h')

/-- Whether a directory has settings, readable or not. -/
def hasSettings (fs : FileSystem) (dir : Path) : Bool := fs.pathExists (fileIn dir)

/-- What is found in a directory that has settings. -/
def foundIn (fs : FileSystem) (dir : Path) : Except ConfigError (Option (Settings × Path)) :=
  (load fs (fileIn dir)).map fun s => some (s, dir.join dataDirectory)

/-- A search, one directory after the other. -/
inductive Search (fs : FileSystem) : Path → Except ConfigError (Option (Settings × Path)) → Prop
  | found {dir : Path} {s : Settings} (there : hasSettings fs dir = true)
      (loads : Loads fs (fileIn dir) (.ok s)) :
      Search fs dir (.ok (some (s, dir.join dataDirectory)))
  | failed {dir : Path} {e : ConfigError} (there : hasSettings fs dir = true)
      (loads : Loads fs (fileIn dir) (.error e)) : Search fs dir (.error e)
  | further {dir above : Path} {result : Except ConfigError (Option (Settings × Path))}
      (missing : hasSettings fs dir = false) (parent : dir.parent? = some above)
      (rest : Search fs above result) : Search fs dir result
  | missed {dir : Path} (missing : hasSettings fs dir = false) (top : dir.parent? = none) :
      Search fs dir (.ok none)

theorem find_eq (fs : FileSystem) (start : Path) :
    find fs start =
      match start.ancestors.find? (hasSettings fs) with
      | none => .ok none
      | some dir => foundIn fs dir := by
  have hplaces : (places start).find? (fun place => fs.pathExists (place.join configFile)) =
      (start.ancestors.find? (hasSettings fs)).map (·.join dataDirectory) := by
    rw [places, List.find?_map]
    rfl
  rw [find, hplaces]
  cases start.ancestors.find? (hasSettings fs) <;> rfl

theorem find_of_there (h : hasSettings fs dir = true) : find fs dir = foundIn fs dir := by
  obtain ⟨rest, hrest⟩ := List.head?_eq_some_iff.mp (Path.head?_ancestors dir)
  rw [find_eq, hrest, List.find?_cons_of_pos h]

theorem find_of_missing_top (h : hasSettings fs dir = false) (top : dir.parent? = none) :
    find fs dir = .ok none := by
  rw [find_eq, Path.ancestors_of_no_parent top, List.find?_cons_of_neg (by simp [h])]
  rfl

theorem find_of_missing {above : Path} (h : hasSettings fs dir = false)
    (parent : dir.parent? = some above) : find fs dir = find fs above := by
  rw [find_eq, find_eq, Path.ancestors_of_parent parent, List.find?_cons_of_neg (by simp [h])]

theorem foundIn_cases (fs : FileSystem) (dir : Path) :
    (∃ s, Loads fs (fileIn dir) (.ok s) ∧
        foundIn fs dir = .ok (some (s, dir.join dataDirectory))) ∨
      ∃ e, Loads fs (fileIn dir) (.error e) ∧ foundIn fs dir = .error e := by
  unfold foundIn
  cases hload : load fs (fileIn dir) with
  | error e => exact .inr ⟨e, load_eq_iff.mp hload, rfl⟩
  | ok s => exact .inl ⟨s, load_eq_iff.mp hload, rfl⟩

theorem search_of_there (h : hasSettings fs dir = true) : Search fs dir (find fs dir) := by
  rw [find_of_there h]
  rcases foundIn_cases fs dir with ⟨s, hloads, hfound⟩ | ⟨e, hloads, hfound⟩
  · exact hfound ▸ .found h hloads
  · exact hfound ▸ .failed h hloads

/-- A search always ends, in what is found. -/
theorem find_eq_iff {result : Except ConfigError (Option (Settings × Path))} :
    find fs start = result ↔ Search fs start result := by
  constructor
  · rintro rfl
    -- By induction on the way up: each directory ends the search or hands it on to its parent.
    induction start using Path.parent_induction with
    | top dir htop =>
      cases h : hasSettings fs dir with
      | true => exact search_of_there h
      | false =>
        rw [find_of_missing_top h htop]
        exact .missed h htop
    | up dir above hparent ih =>
      cases h : hasSettings fs dir with
      | true => exact search_of_there h
      | false =>
        rw [find_of_missing h hparent]
        exact .further h hparent ih
  · intro h
    induction h with
    | found there loads => rw [find_of_there there, foundIn, load_eq_iff.mpr loads]; rfl
    | failed there loads => rw [find_of_there there, foundIn, load_eq_iff.mpr loads]; rfl
    | further missing parent _ ih => rw [find_of_missing missing parent, ih]
    | missed missing top => exact find_of_missing_top missing top

/-! ### The nearest directory with settings -/

theorem find_of_nearest (h : IsFirst (hasSettings fs) start.ancestors dir) :
    find fs start = foundIn fs dir := by
  rw [find_eq, isFirst_iff.mp h]

theorem exists_nearest (h : ∃ dir ∈ start.ancestors, hasSettings fs dir = true) :
    ∃ near, IsFirst (hasSettings fs) start.ancestors near := by
  obtain ⟨near, hnear⟩ := Option.isSome_iff_exists.mp (List.find?_isSome.mpr h)
  exact ⟨near, isFirst_iff.mpr hnear⟩

theorem find_eq_none_iff :
    find fs start = .ok none ↔ ∀ dir ∈ start.ancestors, hasSettings fs dir = false := by
  rw [find_eq]
  cases hnear : start.ancestors.find? (hasSettings fs) with
  | none => simpa using hnear
  | some near =>
    -- What is found is never nothing, so the search cannot have come to an end.
    have hmem := List.mem_of_find?_eq_some hnear
    have hthere := List.find?_some hnear
    refine iff_of_false (fun hnone => ?_) fun hmissing => ?_
    · rcases foundIn_cases fs near with ⟨s, -, hfound⟩ | ⟨e, -, hfound⟩
      · cases hfound.symm.trans hnone
      · cases hfound.symm.trans hnone
    · rw [hmissing near hmem] at hthere
      cases hthere

/-- Only the text of the nearest file counts. -/
theorem find_congr (h : IsFirst (hasSettings fs) start.ancestors dir)
    (h' : IsFirst (hasSettings fs') start.ancestors dir)
    (hread : fs'.readText (fileIn dir) = fs.readText (fileIn dir)) :
    find fs' start = find fs start := by
  rw [find_of_nearest h, find_of_nearest h', foundIn, foundIn, load, load, hread]

/-! ### Settings that were named -/

/-- The file that is meant by a path: a directory stands for the configuration in it. -/
def namedFile (fs : FileSystem) (path : Path) : Path :=
  if fs.isDirectory path then path.join configFile else path

theorem locate_named_cases (fs : FileSystem) (path : Path) :
    (∃ s, Loads fs (namedFile fs path) (.ok s) ∧
        locate fs (some path) = .ok (s, some ((namedFile fs path).parent?.getD path))) ∨
      ∃ e, Loads fs (namedFile fs path) (.error e) ∧ locate fs (some path) = .error e := by
  have hlocate : locate fs (some path) = (load fs (namedFile fs path)).map fun s =>
      (s, some ((namedFile fs path).parent?.getD path)) := rfl
  rw [hlocate]
  cases hload : load fs (namedFile fs path) with
  | error e => exact .inr ⟨e, load_eq_iff.mp hload, rfl⟩
  | ok s => exact .inl ⟨s, load_eq_iff.mp hload, rfl⟩

/-- Only the text of the file that is meant counts, and not what else there is. -/
theorem locate_named_congr {path : Path} (hdirectory : fs'.isDirectory path = fs.isDirectory path)
    (hread : fs'.readText (namedFile fs path) = fs.readText (namedFile fs path)) :
    locate fs' (some path) = locate fs (some path) := by
  unfold namedFile at hread
  simp only [locate, load, hdirectory, hread]

/-- Settings are looked for in a directory and in each one above it, up to the root or the working
directory. The nearest ones decide: the result is what their text holds, or what is wrong with
them, whatever there is further up, and there are none only when no directory has any. Of settings
that were named, the file decides in the same way, whatever else there is. -/
theorem nearest_settings_decide (fs : FileSystem) :
    (∀ start : Path,
      start.IsWayUp start.ancestors ∧
      (∀ result, find fs start = result ↔ Search fs start result) ∧
      ((∃ dir ∈ start.ancestors, hasSettings fs dir = true) →
        ∃ near, IsFirst (hasSettings fs) start.ancestors near ∧
          ((∃ s, Loads fs (fileIn near) (.ok s) ∧
              find fs start = .ok (some (s, near.join dataDirectory))) ∨
            ∃ e, Loads fs (fileIn near) (.error e) ∧ find fs start = .error e) ∧
          ∀ fs', IsFirst (hasSettings fs') start.ancestors near →
            fs'.readText (fileIn near) = fs.readText (fileIn near) →
            find fs' start = find fs start) ∧
      (find fs start = .ok none ↔ ∀ dir ∈ start.ancestors, hasSettings fs dir = false)) ∧
    ∀ path : Path,
      ((∃ s, Loads fs (namedFile fs path) (.ok s) ∧
          locate fs (some path) = .ok (s, some ((namedFile fs path).parent?.getD path))) ∨
        ∃ e, Loads fs (namedFile fs path) (.error e) ∧ locate fs (some path) = .error e) ∧
      ∀ fs', fs'.isDirectory path = fs.isDirectory path →
        fs'.readText (namedFile fs path) = fs.readText (namedFile fs path) →
        locate fs' (some path) = locate fs (some path) := by
  refine ⟨fun start => ⟨start.isWayUp_ancestors, fun _ => find_eq_iff, fun hsome => ?_,
    find_eq_none_iff⟩, fun path => ⟨locate_named_cases fs path, fun fs' => locate_named_congr⟩⟩
  obtain ⟨near, hnear⟩ := exists_nearest hsome
  refine ⟨near, hnear, ?_, fun fs' => find_congr hnear⟩
  rw [find_of_nearest hnear]
  exact foundIn_cases fs near

/-- A directory with settings that are broken. -/
def brokenSettings : FileSystem where
  working := [nameOf "w"]
  entries := [([nameOf "w"], .directory), ([nameOf "w", nameOf "a"], .directory),
    ([nameOf "w", nameOf "a", nameOf ".vigil"], .directory),
    ([nameOf "w", nameOf "a", nameOf ".vigil", nameOf "config.toml"], .file "[".toUTF8)]

def modelText : String := "[openai]\nmodel = 'm'\nmax_retries = 2\n"

def modelSettings : Settings where
  openai := { model := "m", maxRetries := 2 }

def reportText : String := "[report]\npath = 'r.json'\n"

def reportSettings : Settings where
  report := { path := .ofString "r.json" }

/-- The same below settings that are in order, and with more settings beside it. -/
def nestedSettings : FileSystem where
  working := [nameOf "w"]
  entries := brokenSettings.entries ++ [([nameOf "w", nameOf ".vigil"], .directory),
    ([nameOf "w", nameOf ".vigil", nameOf "config.toml"], .file modelText.toUTF8),
    ([nameOf "w", nameOf "c.toml"], .file reportText.toUTF8)]

theorem fileIn_here : fileIn ⟨[]⟩ = .ofString ".vigil/config.toml" := by decide +kernel

theorem loads_model : Loads nestedSettings (fileIn ⟨[]⟩) (.ok modelSettings) := by
  have hread : nestedSettings.readText (fileIn ⟨[]⟩) = .ok modelText :=
    FileSystem.readText_of_readBytes modelText (by rw [fileIn_here]; cbv)
  exact .content hread (heldIn_iff.mpr (by decide +kernel))

theorem loads_report : Loads nestedSettings (.ofString "c.toml") (.ok reportSettings) := by
  have hread : nestedSettings.readText (.ofString "c.toml") = .ok reportText :=
    FileSystem.readText_of_readBytes reportText (by cbv)
  exact .content hread (heldIn_iff.mpr (by decide +kernel))

/-- Broken settings decide when they are the nearest ones, whatever there is above them; those that
are in order decide from beside them, and none from the root. By their names come the settings of a
file, those of a directory, and an error for a file that is missing. -/
theorem nearest_settings_decide_nested :
    find nestedSettings (.ofString "a/b") =
        .error (.malformed (.ofString "a/.vigil/config.toml")) ∧
      find brokenSettings (.ofString "a/b") = find nestedSettings (.ofString "a/b") ∧
      find nestedSettings (.ofString "b") = .ok (some (modelSettings, .ofString ".vigil")) ∧
      find nestedSettings (.ofString "/a/b") = .ok none ∧
      locate nestedSettings (some (.ofString "c.toml")) = .ok (reportSettings, some ⟨[]⟩) ∧
      locate nestedSettings (some (.ofString ".vigil")) =
        .ok (modelSettings, some (.ofString ".vigil")) ∧
      locate nestedSettings (some (.ofString "b.toml")) =
        .error (.unreadable (.ofString "b.toml")) := by
  obtain ⟨hfound, hnamed⟩ := nearest_settings_decide nestedSettings
  have hway : (Path.ofString "a/b").ancestors = [.ofString "a/b", .ofString "a", ⟨[]⟩] := by
    decide +kernel
  have hnone : hasSettings nestedSettings (.ofString "a/b") = false := by cbv
  have hthere : hasSettings nestedSettings (.ofString "a") = true := by cbv
  have hfile : fileIn (.ofString "a") = .ofString "a/.vigil/config.toml" := by decide +kernel
  have hnested : nestedSettings.readText (fileIn (.ofString "a")) = .ok "[" :=
    FileSystem.readText_of_readBytes "[" (by rw [hfile]; cbv)
  have hbroken : brokenSettings.readText (fileIn (.ofString "a")) = .ok "[" :=
    FileSystem.readText_of_readBytes "[" (by rw [hfile]; cbv)
  have hcontent : ∀ {path file : Path} {s : Settings}, namedFile nestedSettings path = file →
      Loads nestedSettings file (.ok s) →
      locate nestedSettings (some path) = .ok (s, some (file.parent?.getD path)) := by
    rintro path _ s rfl hloads
    obtain ⟨⟨s', hs', hlocate⟩ | ⟨e, he, -⟩, -⟩ := hnamed path
    · obtain rfl := Except.ok.inj (hs'.unique hloads)
      exact hlocate
    · cases he.unique hloads
  refine ⟨?_, ?_, ?_, ?_, ?_, ?_, ?_⟩
  · obtain ⟨-, hsearch, -⟩ := hfound (.ofString "a/b")
    have hparent : (Path.ofString "a/b").parent? = some (.ofString "a") := by decide +kernel
    have hrefused : ofText? "[" = none := by decide +kernel
    refine (hsearch _).mpr (.further hnone hparent (.failed hthere (hfile ▸ ?_)))
    refine .malformed hnested fun s hs => ?_
    cases hrefused.symm.trans (heldIn_iff.mp hs)
  · obtain ⟨-, -, hnear, -⟩ := hfound (.ofString "a/b")
    obtain ⟨near, hfirst, -, hsame⟩ := hnear ⟨.ofString "a", by simp [hway], hthere⟩
    have hnest : (Path.ofString "a/b").ancestors.find? (hasSettings nestedSettings) =
        some (.ofString "a") := by
      rw [hway, List.find?_cons_of_neg (by simp [hnone]), List.find?_cons_of_pos hthere]
    have hbroke : (Path.ofString "a/b").ancestors.find? (hasSettings brokenSettings) =
        some (.ofString "a") := by cbv
    obtain rfl := Option.some.inj ((isFirst_iff.mp hfirst).symm.trans hnest)
    exact hsame brokenSettings (isFirst_iff.mpr hbroke) (hbroken.trans hnested.symm)
  · obtain ⟨-, hsearch, -⟩ := hfound (.ofString "b")
    have hparent : (Path.ofString "b").parent? = some ⟨[]⟩ := by decide +kernel
    have hplace : (⟨[]⟩ : Files.Path).join dataDirectory = .ofString ".vigil" := by decide +kernel
    rw [← hplace]
    exact (hsearch _).mpr (.further (by cbv) hparent (.found (by cbv) loads_model))
  · obtain ⟨-, -, -, hnowhere⟩ := hfound (.ofString "/a/b")
    have hroot : (Path.ofString "/a/b").ancestors =
        [.ofString "/a/b", .ofString "/a", .ofString "/"] := by decide +kernel
    rw [hnowhere, hroot]
    simp only [List.forall_mem_cons, List.not_mem_nil, false_implies, implies_true, and_true]
    exact ⟨by cbv, by cbv, by cbv⟩
  · have hmeant : namedFile nestedSettings (.ofString "c.toml") = .ofString "c.toml" := by cbv
    have hparent : (Path.ofString "c.toml").parent? = some ⟨[]⟩ := by decide +kernel
    have hlocate := hcontent hmeant loads_report
    rwa [hparent] at hlocate
  · have hmeant : namedFile nestedSettings (.ofString ".vigil") = fileIn ⟨[]⟩ := by
      rw [fileIn_here]
      cbv
    have hparent : (fileIn ⟨[]⟩).parent? = some (.ofString ".vigil") := by decide +kernel
    have hlocate := hcontent hmeant loads_model
    rwa [hparent] at hlocate
  · obtain ⟨hcases, -⟩ := hnamed (.ofString "b.toml")
    have hmeant : namedFile nestedSettings (.ofString "b.toml") = .ofString "b.toml" := by cbv
    have hmissing : Loads nestedSettings (.ofString "b.toml")
        (.error (.unreadable (.ofString "b.toml"))) := .unreadable (by cbv)
    rw [hmeant] at hcases
    rcases hcases with ⟨s, hloads, -⟩ | ⟨e, hloads, hlocate⟩
    · cases hloads.unique hmissing
    · obtain rfl := Except.error.inj (hloads.unique hmissing)
      exact hlocate

end Triage.Settings
