import Triage.Command.Arguments

/-!
# What goes before what

The address of the repository and the key for the service can be given on the command line, in the
environment and in the configuration, and the first text that is not blank should count. The
environment is only asked for an option that was not given, so one that was given blank hides it.
-/

namespace Triage

open Text

/-- What the command line, the environment and the configuration say about one thing. -/
structure Sayings where
  flag : Option String
  environment : Option String
  configuration : Option String

namespace Sayings

variable (s : Sayings)

/-- The first text that is not blank. -/
def first? : Option String :=
  [s.flag, s.environment, s.configuration].findSome? nonBlank?

/-- The text that counts: the environment is not asked where there is a flag. -/
def taken? : Option String :=
  match s.flag with
  | none => nonBlank? s.environment <|> nonBlank? s.configuration
  | some flag => if isBlank flag then nonBlank? s.configuration else some flag

/-- A blank flag stands before what the environment says, and the configuration does not say
the same. -/
def Hides : Prop :=
  (∃ flag, s.flag = some flag ∧ isBlank flag = true) ∧
    ∃ value, nonBlank? s.environment = some value ∧ nonBlank? s.configuration ≠ some value

/-- Nothing is said, or nothing but white space. -/
def IsBlank : Prop :=
  ∀ v, some v ∈ [s.flag, s.environment, s.configuration] → isBlank v = true

/-- The value is what comes of all that is said: it is the first text that is not blank, and
missing when there is none, unless a blank flag hides that text. -/
structure IsResolved (value : Option String) : Prop where
  taken : value = s.taken?
  first : value = s.first? ↔ ¬ s.Hides
  missing : ¬ s.Hides → (value = none ↔ s.IsBlank)

end Sayings

/-! ### Blank texts -/

theorem nonBlank?_of_isBlank {v : String} (h : isBlank v = true) : nonBlank? (some v) = none := by
  simp [nonBlank?, Option.filter, h]

theorem nonBlank?_of_not_isBlank {v : String} (h : isBlank v ≠ true) :
    nonBlank? (some v) = some v := by
  simp [nonBlank?, Option.filter, h]

theorem nonBlank?_eq_none_iff {v : Option String} :
    nonBlank? v = none ↔ ∀ t, some t = v → isBlank t = true := by
  cases v <;> simp [nonBlank?]

namespace Sayings

variable {s : Sayings}

theorem first?_eq_none_iff : s.first? = none ↔ s.IsBlank := by
  rw [first?, List.findSome?_eq_none_iff]
  constructor
  · intro h t ht
    exact nonBlank?_eq_none_iff.mp (h _ ht) t rfl
  · intro h v hv
    refine nonBlank?_eq_none_iff.mpr fun t ht => h t ?_
    rwa [ht]

theorem first?_eq :
    s.first? = (nonBlank? s.flag <|> nonBlank? s.environment <|> nonBlank? s.configuration) := by
  simp only [first?, List.findSome?_cons, List.findSome?_nil]
  cases nonBlank? s.flag <;> cases nonBlank? s.environment <;> cases nonBlank? s.configuration <;>
    rfl

theorem nonBlank?_orElse_eq_taken? :
    (nonBlank? (s.flag <|> s.environment) <|> nonBlank? s.configuration) = s.taken? := by
  unfold taken?
  cases s.flag with
  | none => rfl
  | some flag =>
    by_cases hblank : isBlank flag = true
    · simp [nonBlank?_of_isBlank hblank, hblank]
    · simp [nonBlank?_of_not_isBlank hblank, hblank]

/-- The first text that is not blank counts, unless a blank flag hides it. -/
theorem taken?_eq_first?_iff : s.taken? = s.first? ↔ ¬ s.Hides := by
  rw [first?_eq]
  unfold taken? Hides
  cases s.flag with
  | none => simp [nonBlank?]
  | some flag =>
    by_cases hblank : isBlank flag = true
    · cases nonBlank? s.environment with
      | none => simp [nonBlank?_of_isBlank hblank, hblank]
      | some value => simp [nonBlank?_of_isBlank hblank, hblank]
    · simp [nonBlank?_of_not_isBlank hblank, hblank]

/-- A blank text of the flag or the environment gives way to the configuration. -/
theorem isResolved (s : Sayings) :
    s.IsResolved (nonBlank? (s.flag <|> s.environment) <|> nonBlank? s.configuration) := by
  rw [nonBlank?_orElse_eq_taken?]
  exact
    { taken := rfl
      first := taken?_eq_first?_iff
      missing := fun h => by rw [taken?_eq_first?_iff.mpr h, first?_eq_none_iff] }

end Sayings

/-! ### Command lines -/

namespace Arguments

/-- What the command line says about an option; behind the command it goes first. -/
def given? (arguments : List String) (o : ValueOption) : Option String :=
  match read .front {} arguments with
  | (front, .command name rest) => (read (.behind name) {} rest).1.value? o <|> front.value? o
  | (front, _) => front.value? o

/-- All that is said about an option, next to what the configuration says about it. -/
def sayings (e : Environment) (arguments : List String) (o : ValueOption)
    (configuration : Option String) : Sayings :=
  ⟨given? arguments o, o.fallback? e, configuration⟩

/-- An option has the value from the command line, or else the one from the environment. -/
theorem invocation_of_meaning {e : Environment} {arguments : List String} {i : Invocation}
    (h : meaning e arguments = .run i) :
    ∃ front behind command, i = invocation e front behind command ∧
      ∀ o, (behind.value? o <|> front.value? o) = given? arguments o := by
  unfold meaning at h
  unfold given?
  split at h
  · rename_i front hfront
    rw [hfront]
    split at h
    · obtain rfl := Meaning.run.inj h
      exact ⟨front, {}, .scan, rfl, fun o => rfl⟩
    · cases h
  · rename_i rest hhelp
    unfold helpOn at h
    split at h
    · cases h
    · split at h <;> cases h
    · cases h
  · rename_i front name rest _ hfront
    rw [hfront]
    unfold meaningBehind at h
    split at h
    · rename_i behind hbehind
      split at h
      · obtain rfl := Meaning.run.inj h
        refine ⟨front, behind, _, rfl, fun o => ?_⟩
        simp only [hbehind]
      · cases h
    · cases h
    · cases h
  · cases h
  · cases h
  · cases h

theorem repoUrl_of_meaning {e : Environment} {arguments : List String} {i : Invocation}
    (h : meaning e arguments = .run i) :
    i.source.repoUrl = (given? arguments .repoUrl <|> ValueOption.repoUrl.fallback? e) := by
  obtain ⟨front, behind, command, rfl, hgiven⟩ := invocation_of_meaning h
  rw [← hgiven]
  rfl

theorem apiKey_of_meaning {e : Environment} {arguments : List String} {i : Invocation}
    (h : meaning e arguments = .run i) :
    i.source.apiKey = (given? arguments .apiKey <|> ValueOption.apiKey.fallback? e) := by
  obtain ⟨front, behind, command, rfl, hgiven⟩ := invocation_of_meaning h
  rw [← hgiven]
  rfl

/-! ### What counts -/

/-- The repository and the key are each the first of the flag, the environment and the
configuration that is not blank, unless a blank flag hides the environment. Then the configuration
is all that counts. -/
theorem isResolved_of_meaning {e : Environment} {arguments : List String} {i : Invocation}
    (h : meaning e arguments = .run i) (s : Settings) :
    (sayings e arguments .repoUrl s.repository.url).IsResolved (i.source.resolvedUrl? s) ∧
      (sayings e arguments .apiKey s.openai.apiKey).IsResolved (i.source.resolvedKey? s) := by
  constructor
  · rw [SourceArguments.resolvedUrl?, repoUrl_of_meaning h]
    exact (sayings e arguments .repoUrl s.repository.url).isResolved
  · rw [SourceArguments.resolvedKey?, apiKey_of_meaning h]
    exact (sayings e arguments .apiKey s.openai.apiKey).isResolved

/-- A blank flag, and a repository in the environment that is not found. -/
theorem isResolved_of_meaning_blank :
    ∃ i, meaning [("REPO_URL", "r")] ["structure", "--repo-url", ""] = .run i ∧
      (sayings [("REPO_URL", "r")] ["structure", "--repo-url", ""] .repoUrl none).first? =
        some "r" ∧
      i.source.resolvedUrl? {} = none := by
  have hmeaning : meaning [("REPO_URL", "r")] ["structure", "--repo-url", ""] =
      .run { source := { repoUrl := some "" }, command := .structureReport } := by
    decide +kernel
  have hfirst : (sayings [("REPO_URL", "r")] ["structure", "--repo-url", ""] .repoUrl none).first? =
      some "r" := by
    decide +kernel
  have htaken : (sayings [("REPO_URL", "r")] ["structure", "--repo-url", ""] .repoUrl none).taken? =
      none := by
    decide +kernel
  obtain ⟨hurl, -⟩ := isResolved_of_meaning hmeaning {}
  exact ⟨_, hmeaning, hfirst, hurl.taken.trans htaken⟩

end Arguments

end Triage
