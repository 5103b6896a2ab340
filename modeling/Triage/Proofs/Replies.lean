import Triage.Proofs.Json.Record
import Triage.Service.Chat

/-!
# What a reply says

The value of a reply has choices, a model and perhaps usage, and that of an error has a message. What
they say is told here by the fields of these values, whose other members do not matter. The
functions that read them find just that.
-/

namespace Triage.Service

open Json

theorem halfWord?_eq_some_iff {v : Value} {n : UInt32} :
    halfWord? v = some n ↔ v.IsNatural n.toNat := by
  constructor
  · intro h
    obtain ⟨m, hm, rfl⟩ := Option.map_eq_some_iff.mp h
    obtain ⟨hnatural, hle⟩ := Value.natUpTo?_eq_some_iff.mp hm
    rwa [UInt32.toNat_ofNat_of_lt' (Nat.lt_of_le_pred (by decide) hle)]
  · intro h
    have hle : n.toNat ≤ maxHalfWord := Nat.le_pred_of_lt n.toNat_lt
    have hread := Value.natUpTo?_eq_some_iff.mpr ⟨h, hle⟩
    rw [halfWord?, hread, Option.map_some, UInt32.ofNat_toNat]

namespace Chat

/-- What a choice says: the content of its message, which may be null or missing. -/
inductive ContentOf : Value → Option String → Prop
  | text {v message : Value} {content : String}
      (choice : v.HasFields ["message"] [.given message])
      (holds : message.HasFields ["content"] [.given (.text content)]) : ContentOf v (some content)
  | null {v message : Value} (choice : v.HasFields ["message"] [.given message])
      (holds : message.HasFields ["content"] [.given .null]) : ContentOf v none
  | absent {v message : Value} (choice : v.HasFields ["message"] [.given message])
      (holds : message.HasFields ["content"] [.absent]) : ContentOf v none

/-- The tokens that a reply counts in its field for them, which may be null or missing. -/
inductive UsageOf : Slot → Option Usage → Prop
  | counted {v prompt completion : Value} {u : Usage}
      (fields : v.HasFields ["prompt_tokens", "completion_tokens"]
        [.given prompt, .given completion])
      (read : prompt.IsNatural u.inputTokens.toNat)
      (written : completion.IsNatural u.outputTokens.toNat) : UsageOf (.given v) (some u)
  | null : UsageOf (.given .null) none
  | missing {slot : Slot} (nothing : ∀ v, slot ≠ .given v) : UsageOf slot none

/-- The reply that a value holds. -/
inductive ReplyOf : Value → Reply → Prop
  | fields {v : Value} {choices : List Value} {contents : List (Option String)} {model : String}
      {slot : Slot} {usage : Option Usage}
      (fields : v.HasFields ["choices", "model", "usage"]
        [.given (.array choices), .given (.text model), slot])
      (each : List.Forall₂ ContentOf choices contents) (tokens : UsageOf slot usage) :
      ReplyOf v ⟨contents, model, usage⟩

/-- The bytes of a body hold a reply. -/
def RepliesWith (bytes : List UInt8) (reply : Reply) : Prop :=
  ∃ v, read? (bodyText bytes) = some v ∧ ReplyOf v reply

/-- What is reported of an answer that is no success: the message of the error in its body, or else
its status and all of its body. -/
inductive ErrorSays (status : Nat) (body : String) : String → Prop
  | message {v e : Value} {text : String} (value : read? body = some v)
      (error : v.HasFields ["error"] [.given e])
      (holds : e.HasFields ["message"] [.given (.text text)]) : ErrorSays status body text
  | plain (nothing : ∀ v e text, read? body = some v → v.HasFields ["error"] [.given e] →
        ¬ e.HasFields ["message"] [.given (.text text)]) :
      ErrorSays status body ("HTTP " ++ statusText status ++ ": " ++ body)

theorem optional?_string?_eq_some_iff {slot : Slot} {c : Option String} :
    slot.optional? Value.string? = some c ↔
      (∃ s, slot = .given (.text s) ∧ c = some s) ∨
        (slot = .given .null ∨ slot = .absent) ∧ c = none := by
  cases slot with
  | given v =>
    cases v with
    | null => simp [Slot.optional?, Value.text, eq_comm]
    | string t => cases t <;> simp [Slot.optional?, Value.string?, Value.text, eq_comm]
    | _ => simp [Slot.optional?, Value.string?, Value.text]
  | absent => simp [Slot.optional?, eq_comm]
  | cut => simp [Slot.optional?]

theorem contentOf_iff {v : Value} {c : Option String} : ContentOf v c ↔ choice? v = some c := by
  constructor
  · intro h
    have hchoice : ∀ {message : Value} {slot : Slot}, v.HasFields ["message"] [.given message] →
        message.HasFields ["content"] [slot] → choice? v = slot.optional? Value.string? := by
      intro message slot hfield hcontent
      simp only [choice?, Value.hasFields_iff.mp hfield, Option.bind_eq_bind, Option.bind_some,
        Slot.required?, messageContent?, Value.hasFields_iff.mp hcontent]
    cases h with
    | text choice holds => exact (hchoice choice holds).trans rfl
    | null choice holds => exact (hchoice choice holds).trans rfl
    | absent choice holds => exact (hchoice choice holds).trans rfl
  · intro h
    obtain ⟨slots, hslots, h⟩ := Option.bind_eq_some_iff.mp h
    split at h
    · obtain ⟨message, rfl, h⟩ := Slot.required?_eq_some_iff.mp h
      obtain ⟨contents, hcontents, h⟩ := Option.bind_eq_some_iff.mp h
      have hfield := Value.hasFields_iff.mpr hslots
      have hcontent := Value.hasFields_iff.mpr hcontents
      split at h
      · rcases optional?_string?_eq_some_iff.mp h with ⟨s, rfl, rfl⟩ | ⟨rfl | rfl, rfl⟩
        · exact .text hfield hcontent
        · exact .null hfield hcontent
        · exact .absent hfield hcontent
      · cases h
    · cases h

theorem usage?_eq_some_iff {v : Value} {u : Usage} :
    usage? v = some u ↔ ∃ prompt completion : Value,
      v.HasFields ["prompt_tokens", "completion_tokens"] [.given prompt, .given completion] ∧
        prompt.IsNatural u.inputTokens.toNat ∧ completion.IsNatural u.outputTokens.toNat := by
  constructor
  · intro h
    obtain ⟨slots, hslots, h⟩ := Option.bind_eq_some_iff.mp h
    split at h
    · obtain ⟨input, hinput, h⟩ := Option.bind_eq_some_iff.mp h
      obtain ⟨output, houtput, h⟩ := Option.bind_eq_some_iff.mp h
      obtain rfl := Option.some.inj h
      obtain ⟨prompt, rfl, hprompt⟩ := Slot.required?_eq_some_iff.mp hinput
      obtain ⟨completion, rfl, hcompletion⟩ := Slot.required?_eq_some_iff.mp houtput
      exact ⟨prompt, completion, Value.hasFields_iff.mpr hslots, halfWord?_eq_some_iff.mp hprompt,
        halfWord?_eq_some_iff.mp hcompletion⟩
    · cases h
  · rintro ⟨prompt, completion, hfields, hread, hwritten⟩
    simp only [usage?, Value.hasFields_iff.mp hfields, Option.bind_eq_bind, Option.bind_some,
      Slot.required?, halfWord?_eq_some_iff.mpr hread, halfWord?_eq_some_iff.mpr hwritten,
      Option.pure_def]

theorem usageOf_iff {slot : Slot} {usage : Option Usage} :
    UsageOf slot usage ↔ slot.defaulted? (Value.nullable? usage?) none = some usage := by
  constructor
  · intro h
    cases h with
    | counted fields read written =>
      have hcounted := usage?_eq_some_iff.mpr ⟨_, _, fields, read, written⟩
      refine Value.nullable?_eq_some_iff.mpr (Or.inr ⟨?_, _, hcounted, rfl⟩)
      rintro rfl
      cases hcounted
    | null => rfl
    | missing nothing =>
      cases slot with
      | given v => exact absurd rfl (nothing v)
      | absent => rfl
      | cut => rfl
  · intro h
    cases slot with
    | given v =>
      rcases Value.nullable?_eq_some_iff.mp h with ⟨rfl, rfl⟩ | ⟨-, u, hu, rfl⟩
      · exact .null
      · obtain ⟨_, _, hfields, hread, hwritten⟩ := usage?_eq_some_iff.mp hu
        exact .counted hfields hread hwritten
    | absent =>
      obtain rfl := Option.some.inj h
      exact .missing fun v hv => by cases hv
    | cut =>
      obtain rfl := Option.some.inj h
      exact .missing fun v hv => by cases hv

theorem contents_iff {choices : List Value} {contents : List (Option String)} :
    List.Forall₂ ContentOf choices contents ↔ choices.mapM choice? = some contents :=
  forall₂_iff_mapM (f := choice?) fun _ _ => contentOf_iff

theorem replyOf_iff {v : Value} {reply : Reply} :
    ReplyOf v reply ↔ Reply.ofValue? v = some reply := by
  constructor
  · rintro ⟨hfields, heach, htokens⟩
    simp only [Reply.ofValue?, Value.hasFields_iff.mp hfields, Option.bind_eq_bind,
      Option.bind_some, Slot.required?, Value.list?, contents_iff.mp heach, Value.text, Value.string?,
      usageOf_iff.mp htokens, Option.pure_def]
  · intro h
    obtain ⟨slots, hslots, h⟩ := Option.bind_eq_some_iff.mp h
    split at h
    · obtain ⟨contents, hcontents, h⟩ := Option.bind_eq_some_iff.mp h
      obtain ⟨model, hmodel, h⟩ := Option.bind_eq_some_iff.mp h
      obtain ⟨usage, husage, h⟩ := Option.bind_eq_some_iff.mp h
      obtain rfl := Option.some.inj h
      obtain ⟨list, rfl, hlist⟩ := Slot.required?_eq_some_iff.mp hcontents
      obtain ⟨_, rfl, hname⟩ := Slot.required?_eq_some_iff.mp hmodel
      obtain rfl := Value.string?_eq_some_iff.mp hname
      cases list with
      | array choices =>
        exact .fields (Value.hasFields_iff.mpr hslots) (contents_iff.mpr hlist)
          (usageOf_iff.mpr husage)
      | _ => cases hlist
    · cases h

theorem repliesWith_iff {bytes : List UInt8} {reply : Reply} :
    RepliesWith bytes reply ↔ Reply.ofText? (bodyText bytes) = some reply := by
  rw [Reply.ofText?, Option.bind_eq_bind, Option.bind_eq_some_iff]
  exact exists_congr fun v => and_congr_right fun _ => replyOf_iff

theorem errorMessage?_eq_some_iff {v : Value} {text : String} :
    errorMessage? v = some text ↔ ∃ e : Value, v.HasFields ["error"] [.given e] ∧
      e.HasFields ["message"] [.given (.text text)] := by
  constructor
  · intro h
    obtain ⟨slots, hslots, h⟩ := Option.bind_eq_some_iff.mp h
    split at h
    · obtain ⟨e, rfl, h⟩ := Slot.required?_eq_some_iff.mp h
      obtain ⟨messages, hmessages, h⟩ := Option.bind_eq_some_iff.mp h
      split at h
      · obtain ⟨_, rfl, htext⟩ := Slot.required?_eq_some_iff.mp h
        obtain rfl := Value.string?_eq_some_iff.mp htext
        exact ⟨e, Value.hasFields_iff.mpr hslots, Value.hasFields_iff.mpr hmessages⟩
      · cases h
    · cases h
  · rintro ⟨e, herror, hmessage⟩
    simp only [errorMessage?, Value.hasFields_iff.mp herror, Option.bind_eq_bind, Option.bind_some,
      Slot.required?, Value.hasFields_iff.mp hmessage, Value.text, Value.string?]

theorem errorSays_errorText (status : Nat) (body : String) :
    ErrorSays status body (errorText status body) := by
  unfold errorText
  cases hmessage : (read? body).bind errorMessage? with
  | some text =>
    obtain ⟨v, hv, htext⟩ := Option.bind_eq_some_iff.mp hmessage
    obtain ⟨e, herror, hholds⟩ := errorMessage?_eq_some_iff.mp htext
    exact .message hv herror hholds
  | none =>
    refine .plain fun v e text hv herror hholds => ?_
    have htext := errorMessage?_eq_some_iff.mpr ⟨e, herror, hholds⟩
    rw [hv, Option.bind_some, htext] at hmessage
    cases hmessage

end Chat

end Triage.Service
