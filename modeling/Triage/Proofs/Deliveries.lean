import Mathlib
import Triage.Proofs.Replies
import Triage.Proofs.Retry

/-!
# What becomes of a request

A request is sent again for as long as it, or the body of a success, goes missing. The delivery
that ends the tries decides the outcome: a text to report when there is one, and otherwise a
failure of the kind that the delivery stands for.
-/

namespace Triage

/-! ### Trimmed texts -/

namespace Text

/-- What is left of a text without the white space at both ends. -/
structure IsTrimOf (trimmed s : String) : Prop where
  between : ∃ before after, s.toList = before ++ (trimmed.toList ++ after) ∧
    (∀ c ∈ before, isWhiteSpace c = true) ∧ ∀ c ∈ after, isWhiteSpace c = true
  first : ∀ c ∈ trimmed.toList.head?, isWhiteSpace c = false
  last : ∀ c ∈ trimmed.toList.getLast?, isWhiteSpace c = false

theorem first_dropWhile {cs : List Char} {c : Char}
    (h : c ∈ (cs.dropWhile isWhiteSpace).head?) : isWhiteSpace c = false := by
  obtain ⟨rest, hrest⟩ := List.head?_eq_some_iff.mp h
  have hne : cs.dropWhile isWhiteSpace ≠ [] := by simp [hrest]
  have hhead := List.head_dropWhile_not isWhiteSpace hne
  simpa [hrest] using hhead

theorem isTrimOf_trim (s : String) : IsTrimOf (trim s) s := by
  have hshape : (trim s).toList =
      (s.toList.dropWhile isWhiteSpace).rdropWhile isWhiteSpace := by
    rw [trim, String.toList_ofList]
    rfl
  constructor
  · refine ⟨s.toList.takeWhile isWhiteSpace,
      (s.toList.dropWhile isWhiteSpace).rtakeWhile isWhiteSpace, ?_, ?_, ?_⟩
    · rw [hshape, List.rdropWhile_append_rtakeWhile, List.takeWhile_append_dropWhile]
    · intro c hc
      exact List.mem_takeWhile_imp hc
    · intro c hc
      exact List.mem_rtakeWhile_imp hc
  · intro c hc
    obtain ⟨more, hmore⟩ := List.rdropWhile_prefix isWhiteSpace (s.toList.dropWhile isWhiteSpace)
    rw [hshape] at hc
    refine @first_dropWhile s.toList c ?_
    rw [← hmore, List.head?_append, Option.mem_def.mp hc]
    rfl
  · intro c hc
    rw [hshape] at hc
    obtain ⟨hne, hlast⟩ := List.mem_getLast?_eq_getLast hc
    have hnot := List.rdropWhile_last_not isWhiteSpace _ hne
    rw [← hlast] at hnot
    simpa using hnot

theorem IsTrimOf.ne_empty {trimmed s : String} (h : IsTrimOf trimmed s)
    (hs : isBlank s = false) : trimmed ≠ "" := by
  rintro rfl
  obtain ⟨before, after, hsplit, hbefore, hafter⟩ := h.between
  have hall : isBlank s = true := by
    rw [isBlank, hsplit, List.all_eq_true]
    intro c hc
    rcases List.mem_append.mp hc with hc | hc
    · exact hbefore c hc
    · exact hafter c (by simpa using hc)
  rw [hs] at hall
  cases hall

end Text

namespace Service

variable {σ : Type}

/-! ### One delivery -/

/-- Whether no answer came, or the body of a success broke off. -/
def Delivery.wentMissing : Delivery → Bool
  | .lost => true
  | .answered status none => isSuccess status
  | .answered _ (some _) => false

namespace Chat

/-- The failure that a delivery without a text to report stands for. -/
inductive FailsWith : Delivery → Failure → Prop
  | lost (detail : String) : FailsWith .lost (.network detail)
  | brokenOff {status : Nat} (success : isSuccess status = true) (detail : String) :
      FailsWith (.answered status none) (.network detail)
  | unreadable {status : Nat} {bytes : List UInt8} (success : isSuccess status = true)
      (unread : ∀ reply, ¬ RepliesWith bytes reply) (detail : String) :
      FailsWith (.answered status (some bytes)) (.serialization detail)
  | silent {status : Nat} {bytes : List UInt8} {reply : Reply} (success : isSuccess status = true)
      (read : RepliesWith bytes reply)
      (nothing : ∀ content, reply.choices.head? = some (some content) →
        Text.isBlank content = true) :
      FailsWith (.answered status (some bytes)) (.emptyResponse "openai")
  | auth {body : Option (List UInt8)} {text : String}
      (detail : ErrorSays 401 (bodyText (body.getD [])) text) :
      FailsWith (.answered 401 body) (.auth text)
  | rateLimited {body : Option (List UInt8)} {text : String}
      (detail : ErrorSays 429 (bodyText (body.getD [])) text) :
      FailsWith (.answered 429 body) (.rateLimited text)
  | server {status : Nat} {body : Option (List UInt8)} {text : String}
      (range : 500 ≤ status ∧ status ≤ 599)
      (detail : ErrorSays status (bodyText (body.getD [])) text) :
      FailsWith (.answered status body) (.server text)
  | other {status : Nat} {body : Option (List UInt8)} {text : String}
      (failure : isSuccess status = false) (named : status ≠ 401 ∧ status ≠ 429)
      (range : ¬ (500 ≤ status ∧ status ≤ 599))
      (detail : ErrorSays status (bodyText (body.getD [])) text) :
      FailsWith (.answered status body) (.backend text)

/-- The text that a delivery has to report, and the reply that it is from. -/
def Reports (d : Delivery) (content : String) (reply : Reply) : Prop :=
  ∃ status bytes, d = .answered status (some bytes) ∧ isSuccess status = true ∧
    RepliesWith bytes reply ∧ reply.choices.head? = some (some content) ∧
    Text.isBlank content = false

theorem assessment_eq {r : Reply} {content : String}
    (hfirst : r.choices.head? = some (some content)) (hcontent : Text.isBlank content = false) :
    r.assessment = .ok (.trimmed content r.model (r.usage.getD {})) := by
  have hkept : Text.nonBlank? (r.choices.head?.join) = some content := by
    simp [hfirst, Text.nonBlank?, Option.filter, hcontent]
  rw [Reply.assessment, hkept]

theorem assessment_of_silent {r : Reply}
    (h : ∀ content, r.choices.head? = some (some content) → Text.isBlank content = true) :
    r.assessment = .error (.emptyResponse "openai") := by
  have hnone : Text.nonBlank? r.choices.head?.join = none := by
    rw [Text.nonBlank?, Option.filter_eq_none_iff]
    intro content hcontent
    simp [h content (Option.join_eq_some_iff.mp hcontent)]
  rw [Reply.assessment, hnone]

theorem failsWith_statusFailure {status : Nat} (hfailure : isSuccess status = false)
    (body : Option (List UInt8)) :
    FailsWith (.answered status body)
      (statusFailure status (errorText status (bodyText (body.getD [])))) := by
  have hdetail := errorSays_errorText status (bodyText (body.getD []))
  unfold statusFailure
  split
  · rename_i hauth
    subst hauth
    exact .auth hdetail
  · split
    · rename_i hlimited
      subst hlimited
      exact .rateLimited hdetail
    · split
      · rename_i hrange
        exact .server hrange hdetail
      · exact .other hfailure ⟨‹_›, ‹_›⟩ ‹_› hdetail

theorem outcomeOf_of_reports {d : Delivery} {content : String} {reply : Reply}
    (h : Reports d content reply) :
    outcomeOf d = .ok (.trimmed content reply.model (reply.usage.getD {})) := by
  obtain ⟨status, bytes, rfl, hsuccess, hread, hfirst, hcontent⟩ := h
  simp only [outcomeOf, hsuccess, repliesWith_iff.mp hread, if_true]
  exact assessment_eq hfirst hcontent

/-- A delivery reports a text, or else it stands for a failure. -/
theorem reports_or_failsWith (d : Delivery) :
    (∃ content reply, Reports d content reply) ∨ ∃ f, FailsWith d f ∧ outcomeOf d = .error f := by
  cases d with
  | lost => exact Or.inr ⟨_, .lost _, rfl⟩
  | answered status body =>
    cases hsuccess : isSuccess status with
    | false =>
      refine Or.inr ⟨_, failsWith_statusFailure hsuccess body, ?_⟩
      simp [outcomeOf, hsuccess]
    | true =>
      cases body with
      | none =>
        refine Or.inr ⟨_, .brokenOff hsuccess "error decoding response body", ?_⟩
        simp [outcomeOf, hsuccess]
      | some bytes =>
        cases hread : Reply.ofText? (bodyText bytes) with
        | none =>
          have hunread : ∀ reply, ¬ RepliesWith bytes reply := fun reply hreply =>
            absurd (repliesWith_iff.mp hreply) (by simp [hread])
          refine Or.inr ⟨_, .unreadable hsuccess hunread "the body is no completion", ?_⟩
          simp [outcomeOf, hsuccess, hread]
        | some reply =>
          have hreply := repliesWith_iff.mpr hread
          by_cases hsays : ∃ content, reply.choices.head? = some (some content) ∧
              Text.isBlank content = false
          · obtain ⟨content, hfirst, hcontent⟩ := hsays
            exact Or.inl ⟨content, reply, status, bytes, rfl, hsuccess, hreply, hfirst, hcontent⟩
          · have hsilent : ∀ content, reply.choices.head? = some (some content) →
                Text.isBlank content = true := by
              intro content hfirst
              by_contra hblank
              exact hsays ⟨content, hfirst, by simpa using hblank⟩
            refine Or.inr ⟨_, .silent hsuccess hreply hsilent, ?_⟩
            simp only [outcomeOf, hsuccess, hread, if_true]
            exact assessment_of_silent hsilent

/-- There is an assessment exactly when there is a text to report. -/
theorem outcomeOf_eq_ok_iff {d : Delivery} {a : Assessment} :
    outcomeOf d = .ok a ↔ ∃ content reply, Reports d content reply ∧
      a = .trimmed content reply.model (reply.usage.getD {}) := by
  constructor
  · intro h
    rcases reports_or_failsWith d with ⟨content, reply, hreports⟩ | ⟨f, -, hfails⟩
    · rw [outcomeOf_of_reports hreports] at h
      exact ⟨content, reply, hreports, (Except.ok.inj h).symm⟩
    · rw [hfails] at h
      cases h
  · rintro ⟨content, reply, hreports, rfl⟩
    exact outcomeOf_of_reports hreports

theorem failsWith_of_outcomeOf {d : Delivery} {f : Failure} (h : outcomeOf d = .error f) :
    FailsWith d f := by
  rcases reports_or_failsWith d with ⟨content, reply, hreports⟩ | ⟨g, hg, hfails⟩
  · rw [outcomeOf_of_reports hreports] at h
    cases h
  · rw [hfails] at h
    exact Except.error.inj h ▸ hg

theorem wentMissing_of_failure {status : Nat} (h : isSuccess status = false)
    (body : Option (List UInt8)) : (Delivery.answered status body).wentMissing = false := by
  cases body with
  | none => exact h
  | some bytes => rfl

/-- What is tried again is what went missing. -/
theorem mayPass_outcomeOf (d : Delivery) : mayPass (outcomeOf d) = d.wentMissing := by
  rcases reports_or_failsWith d with ⟨content, reply, hreports⟩ | ⟨f, hf, hfails⟩
  · rw [outcomeOf_of_reports hreports]
    obtain ⟨status, bytes, rfl, -⟩ := hreports
    rfl
  · rw [hfails]
    cases hf with
    | lost _ => rfl
    | brokenOff success _ => exact success.symm
    | unreadable _ _ _ => rfl
    | silent _ _ _ => rfl
    | auth _ => exact (wentMissing_of_failure rfl _).symm
    | rateLimited _ => exact (wentMissing_of_failure rfl _).symm
    | server range _ =>
      refine (wentMissing_of_failure ?_ _).symm
      simp only [isSuccess, Bool.and_eq_false_iff, decide_eq_false_iff_not]
      omega
    | other failure _ _ _ => exact (wentMissing_of_failure failure _).symm

/-! ### All deliveries of a request -/

/-- The request that asks for a completion. Slashes at the end of the base URL do not count. -/
structure IsPostFor (settings : ServiceSettings) (r : Request) (p : Post) : Prop where
  url : ∃ base slashes : List Char, settings.baseUrl.toList = base ++ slashes ∧
    (∀ c ∈ slashes, c = '/') ∧ base.getLast? ≠ some '/' ∧
    p.url = String.ofList base ++ "/v1/chat/completions"
  authorization : p.authorization = "Bearer " ++ settings.apiKey
  contentType : p.contentType = "application/json"
  body : p.body = (bodyValue settings r).print .compact

theorem isPostFor_post (settings : ServiceSettings) (r : Request) :
    IsPostFor settings r (post settings r) where
  url := by
    refine ⟨settings.baseUrl.toList.rdropWhile (· == '/'),
      settings.baseUrl.toList.rtakeWhile (· == '/'), ?_, ?_, ?_, rfl⟩
    · rw [List.rdropWhile_append_rtakeWhile]
    · intro c hc
      have hslash := List.mem_rtakeWhile_imp (p := (· == '/')) hc
      exact eq_of_beq hslash
    · intro hlast
      obtain ⟨hne, hslash⟩ := List.mem_getLast?_eq_getLast hlast
      have hnot := List.rdropWhile_last_not (· == '/') _ hne
      rw [← hslash] at hnot
      exact hnot rfl
  authorization := rfl
  contentType := rfl
  body := rfl

/-- What becomes of the request that is sent with number `k`, when it is sent over and over. -/
def deliveryAt (t : Transport σ) (p : Post) : Nat → σ → Delivery
  | 0, s => (t.send p s).1
  | k + 1, s => deliveryAt t p k (t.send p s).2

/-- The same transport, with a list of what was sent and what became of it. -/
def recorded (t : Transport σ) : Transport (σ × List (Post × Delivery)) where
  builds := t.builds
  send p s :=
    let (d, rest) := t.send p s.1
    (d, rest, s.2 ++ [(p, d)])

/-- The request with number `k` is the last one that is sent. -/
structure IsLastSend (settings : ServiceSettings) (deliveries : Nat → Delivery) (k : Nat) :
    Prop where
  within : k ≤ settings.maxRetries.toNat
  missing : ∀ i < k, (deliveries i).wentMissing = true
  arrived : k < settings.maxRetries.toNat → (deliveries k).wentMissing = false

variable {t : Transport σ} {p : Post}

theorem attempt_of_built (h : t.builds p = true) (s : σ) :
    attempt t p s = (outcomeOf (t.send p s).1, (t.send p s).2) := if_pos h

theorem attempt_of_unbuilt (h : t.builds p = false) (s : σ) :
    attempt t p s = (.error (.network "builder error"), s) := by
  simp [attempt, h]

theorem resultOf_attempt (h : t.builds p = true) (k : Nat) (s : σ) :
    resultOf (attempt t p) k s = outcomeOf (deliveryAt t p k s) := by
  induction k generalizing s with
  | zero => rw [resultOf, stateBefore, attempt_of_built h, deliveryAt]
  | succ k ih =>
    have hstep : resultOf (attempt t p) (k + 1) s =
        resultOf (attempt t p) k (attempt t p s).2 := rfl
    rw [hstep, attempt_of_built h, ih, deliveryAt]

theorem isLastTry_iff (h : t.builds p = true) {settings : ServiceSettings} {k : Nat} {s : σ} :
    IsLastTry (attempt t p) settings.maxRetries.toNat s k ↔
      IsLastSend settings (fun i => deliveryAt t p i s) k := by
  constructor
  · rintro ⟨hwithin, hpassing, hfinal⟩
    simp only [resultOf_attempt h, mayPass_outcomeOf] at hpassing hfinal
    exact ⟨hwithin, hpassing, hfinal⟩
  · rintro ⟨hwithin, hmissing, harrived⟩
    refine ⟨hwithin, ?_, ?_⟩
    · simpa only [resultOf_attempt h, mayPass_outcomeOf] using hmissing
    · simpa only [resultOf_attempt h, mayPass_outcomeOf] using harrived

theorem deliveryAt_recorded (t : Transport σ) (p : Post) (k : Nat) (s : σ)
    (log : List (Post × Delivery)) :
    deliveryAt (recorded t) p k (s, log) = deliveryAt t p k s := by
  induction k generalizing s log with
  | zero => rfl
  | succ k ih => exact ih (t.send p s).2 (log ++ [(p, (t.send p s).1)])

/-- The list grows by one entry for each request that is sent. -/
theorem log_stateBefore (h : t.builds p = true) (k : Nat) (s : σ) (log : List (Post × Delivery)) :
    (stateBefore (attempt (recorded t) p) k (s, log)).2 =
      log ++ (List.range k).map fun i => (p, deliveryAt t p i s) := by
  induction k generalizing s log with
  | zero => simp [stateBefore]
  | succ k ih =>
    have hbuilt : (recorded t).builds p = true := h
    have hrest := ih (t.send p s).2 (log ++ [(p, (t.send p s).1)])
    rw [List.range_succ_eq_map, List.map_cons, List.map_map, stateBefore, attempt_of_built hbuilt]
    rw [List.append_assoc] at hrest
    exact hrest

theorem stateBefore_unbuilt (h : t.builds p = false) (k : Nat) (s : σ) :
    stateBefore (attempt t p) k s = s := by
  induction k with
  | zero => rfl
  | succ k ih => rw [stateBefore, attempt_of_unbuilt h, ih]

/-- A request that cannot be built is tried as often as there may be tries, each time in vain. -/
theorem resultOf_unbuilt (h : t.builds p = false) (k : Nat) (s : σ) :
    resultOf (attempt t p) k s = .error (.network "builder error") := by
  rw [resultOf, stateBefore_unbuilt h, attempt_of_unbuilt h]

theorem isLastTry_unbuilt (h : t.builds p = false) (retries : Nat) (s : σ) :
    IsLastTry (attempt t p) retries s retries where
  within := Nat.le_refl retries
  passing i _ := by
    rw [resultOf_unbuilt h]
    rfl
  final hless := absurd hless (Nat.lt_irrefl retries)

/-- What the delivery that ends the tries makes of the outcome. -/
structure Settles (d : Delivery) (o : Outcome) : Prop where
  assessed : ∀ a, o = .ok a ↔ ∃ content reply, Reports d content reply ∧
    a.text = Text.trim content ∧ a.model = reply.model ∧ a.usage = reply.usage.getD ⟨0, 0⟩
  trimmed : ∀ content reply, Reports d content reply →
    Text.IsTrimOf (Text.trim content) content ∧ Text.trim content ≠ ""
  failed : ∀ f, o = .error f → FailsWith d f

theorem settles_outcomeOf (d : Delivery) : Settles d (outcomeOf d) where
  assessed a := by
    rw [outcomeOf_eq_ok_iff]
    constructor
    · rintro ⟨content, reply, hreports, rfl⟩
      exact ⟨content, reply, hreports, rfl, rfl, rfl⟩
    · rintro ⟨content, reply, hreports, htext, hmodel, husage⟩
      refine ⟨content, reply, hreports, ?_⟩
      obtain ⟨text, model, usage⟩ := a
      simp only at htext hmodel husage
      rw [htext, hmodel, husage]
      rfl
  trimmed content reply hreports := by
    obtain ⟨_, _, _, _, _, _, hcontent⟩ := hreports
    have htrim := Text.isTrimOf_trim content
    exact ⟨htrim, htrim.ne_empty hcontent⟩
  failed _ := failsWith_of_outcomeOf

/-- One and the same request is sent until it arrives, or as often as it may be, and the last
delivery decides the outcome. A request that cannot be built is not sent at all, which is a failure
of the network. -/
theorem analyze_deliveries (settings : ServiceSettings) (t : Transport σ) (r : Request) (s : σ) :
    IsPostFor settings r (post settings r) ∧
      (t.builds (post settings r) = true →
        (∃ k, IsLastSend settings (fun i => deliveryAt t (post settings r) i s) k) ∧
        ∀ k, IsLastSend settings (fun i => deliveryAt t (post settings r) i s) k →
          settings.backoff.nanoseconds * 2 ^ k < Duration.limit →
          (analyze settings t r s).calls = k + 1 ∧
          (analyze settings (recorded t) r (s, [])).state.2 =
            (List.range (k + 1)).map
              (fun i => (post settings r, deliveryAt t (post settings r) i s)) ∧
          ∃ o, (analyze settings t r s).result = some o ∧
            Settles (deliveryAt t (post settings r) k s) o) ∧
      (t.builds (post settings r) = false →
        settings.backoff.nanoseconds * 2 ^ settings.maxRetries.toNat < Duration.limit →
        (analyze settings t r s).calls = settings.maxRetries.toNat + 1 ∧
        (analyze settings (recorded t) r (s, [])).state.2 = [] ∧
        ∃ detail, (analyze settings t r s).result = some (.error (.network detail))) := by
  unfold analyze
  generalize hp : post settings r = p
  refine ⟨hp ▸ isPostFor_post settings r, fun hbuilt => ⟨?_, ?_⟩, ?_⟩
  · obtain ⟨k, hk⟩ := exists_isLastTry (attempt t p) settings.maxRetries.toNat s
    exact ⟨k, (isLastTry_iff hbuilt).mp hk⟩
  · intro k hk hpause
    have hrun := retry_eq ((isLastTry_iff hbuilt).mpr hk) hpause
    have hrecorded : IsLastSend settings (fun i => deliveryAt (recorded t) p i (s, [])) k := by
      simpa only [deliveryAt_recorded] using hk
    have hrecording : (recorded t).builds p = true := hbuilt
    have hlog := retry_eq ((isLastTry_iff hrecording).mpr hrecorded) hpause
    rw [hrun, hlog]
    refine ⟨rfl, ?_, outcomeOf (deliveryAt t p k s), ?_, settles_outcomeOf _⟩
    · exact log_stateBefore hbuilt (k + 1) s []
    · rw [resultOf_attempt hbuilt]
  · intro hunbuilt hpause
    have hrecording : (recorded t).builds p = false := hunbuilt
    have hrun := retry_eq (isLastTry_unbuilt hunbuilt settings.maxRetries.toNat s) hpause
    have hlog := retry_eq (isLastTry_unbuilt hrecording settings.maxRetries.toNat (s, [])) hpause
    rw [hrun, hlog]
    refine ⟨rfl, ?_, "builder error", ?_⟩
    · rw [stateBefore_unbuilt hrecording]
    · rw [resultOf_unbuilt hunbuilt]

/-- A relay that plays back deliveries. Its URL is the only one there is, and a header holds no
control characters. -/
def relay : Transport (List Delivery) where
  builds p := p.url == "http://relay.test/v1/chat/completions" &&
    p.authorization.toList.all fun c => 32 ≤ c.toNat && c.toNat != 127
  send _ ds := (ds.headD .lost, ds.tail)

def relayKey (key : String) : ServiceSettings :=
  { apiKey := key, baseUrl := "http://relay.test/", maxRetries := 2 }

def relayPost : Post where
  url := "http://relay.test/v1/chat/completions"
  authorization := "Bearer key"
  contentType := "application/json"
  body := "\x7b\"model\":\"m\",\"messages\":[\x7b\"role\":\"user\",\"content\":\"p\"\x7d]\x7d"

def relayReply : List UInt8 :=
  ("\x7b\"choices\":[\x7b\"message\":\x7b\"content\":\" XSS\\n\"\x7d\x7d],\"model\":\"m-2\"," ++
    "\"usage\":\x7b\"prompt_tokens\":10,\"completion_tokens\":5\x7d\x7d").toUTF8.toList

/-- The first request is lost, and the second one is answered with a text, a model and two counts of
tokens. With a line end in the key none is sent. -/
theorem analyze_deliveries_relay :
    post (relayKey "key") ⟨"p", some "m", none, none⟩ = relayPost ∧
      relay.builds relayPost = true ∧
      IsLastSend (relayKey "key") (fun i => deliveryAt relay relayPost i
        [.lost, .answered 200 (some relayReply)]) 1 ∧
      (relayKey "key").backoff.nanoseconds * 2 ^ 1 < Duration.limit ∧
      (analyze (relayKey "key") (recorded relay) ⟨"p", some "m", none, none⟩
        ([.lost, .answered 200 (some relayReply)], [])).state.2 =
          [(relayPost, .lost), (relayPost, .answered 200 (some relayReply))] ∧
      (analyze (relayKey "key") relay ⟨"p", some "m", none, none⟩
        [.lost, .answered 200 (some relayReply)]).result =
          some (.ok ⟨"XSS", "m-2", ⟨10, 5⟩⟩) ∧
      relay.builds (post (relayKey "\n") ⟨"p", some "m", none, none⟩) = false ∧
      (relayKey "\n").backoff.nanoseconds * 2 ^ (relayKey "\n").maxRetries.toNat <
        Duration.limit ∧
      (analyze (relayKey "\n") relay ⟨"p", some "m", none, none⟩ []).calls = 3 := by
  have hpost : post (relayKey "key") ⟨"p", some "m", none, none⟩ = relayPost := by
    decide +kernel
  have hbuilt : relay.builds relayPost = true := by decide +kernel
  have hlast : IsLastSend (relayKey "key") (fun i => deliveryAt relay relayPost i
      [.lost, .answered 200 (some relayReply)]) 1 :=
    ⟨by decide, fun i hi => Nat.lt_one_iff.mp hi ▸ rfl, fun _ => rfl⟩
  have hread : RepliesWith relayReply ⟨[some " XSS\n"], "m-2", some ⟨10, 5⟩⟩ :=
    repliesWith_iff.mpr (by decide +kernel)
  have hunbuilt : relay.builds (post (relayKey "\n") ⟨"p", some "m", none, none⟩) = false := by
    decide +kernel
  obtain ⟨-, hsent, -⟩ := analyze_deliveries (relayKey "key") relay
    ⟨"p", some "m", none, none⟩ [.lost, .answered 200 (some relayReply)]
  rw [hpost] at hsent
  obtain ⟨-, hlog, o, hresult, hsettles⟩ := (hsent hbuilt).2 1 hlast (by decide)
  have ho : o = .ok ⟨"XSS", "m-2", ⟨10, 5⟩⟩ := by
    refine (hsettles.assessed _).mpr
      ⟨" XSS\n", ⟨[some " XSS\n"], "m-2", some ⟨10, 5⟩⟩, ?_, ?_, rfl, rfl⟩
    · exact ⟨200, relayReply, rfl, rfl, hread, rfl, by decide⟩
    · decide
  obtain ⟨-, -, hunsent⟩ := analyze_deliveries (relayKey "\n") relay
    ⟨"p", some "m", none, none⟩ []
  obtain ⟨hcalls, -⟩ := hunsent hunbuilt (by decide)
  exact ⟨hpost, hbuilt, hlast, by decide, hlog, ho ▸ hresult, hunbuilt, by decide, hcalls⟩

end Chat

end Service

end Triage
