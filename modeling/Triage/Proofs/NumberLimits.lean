import Triage.Proofs.Deliveries
import Triage.Proofs.RetryLoop

/-!
# Where the numbers of the client end

Failures are counted and tokens are added up in words of 32 bits, and a pause has seconds of 64
bits. The count of failures stays in reach, since there are no more of them than retries. The pause
and the sum of tokens have no such bound, and both are out of reach exactly when the true number
is.
-/

namespace Triage.Service

open Json

/-- The tokens of an assessment are those of the reply that its service sent. -/
theorem Chat.exists_reply_of_outcomeOf {status : Nat} {bytes : List UInt8} {a : Assessment}
    (h : outcomeOf (.answered status (some bytes)) = .ok a) :
    ∃ v reply, read? (bodyText bytes) = some v ∧ ReplyOf v reply ∧
      a.usage = reply.usage.getD ⟨0, 0⟩ := by
  obtain ⟨content, reply, ⟨status', bytes', hdelivery, _, hread, _⟩, rfl⟩ :=
    outcomeOf_eq_ok_iff.mp h
  obtain ⟨rfl, hbytes⟩ := Delivery.answered.inj hdelivery
  obtain rfl := Option.some.inj hbytes
  obtain ⟨v, hv, hreply⟩ := hread
  exact ⟨v, reply, hv, hreply, rfl⟩

namespace Usage

theorem total?_eq_some_iff {u : Usage} {n : UInt32} :
    u.total? = some n ↔ n.toNat = u.inputTokens.toNat + u.outputTokens.toNat := by
  unfold total?
  split
  · rename_i hfits
    have hsum : (u.inputTokens + u.outputTokens).toNat =
        u.inputTokens.toNat + u.outputTokens.toNat := by
      rw [UInt32.toNat_add]
      exact Nat.mod_eq_of_lt hfits
    rw [Option.some.injEq, ← UInt32.toNat_inj, hsum, eq_comm]
  · rename_i hexceeds
    have hbound := n.toNat_lt_size
    refine iff_of_false nofun fun hsum => hexceeds ?_
    rwa [← hsum]

theorem total?_eq_none_iff {u : Usage} :
    u.total? = none ↔ UInt32.size ≤ u.inputTokens.toNat + u.outputTokens.toNat := by
  unfold total?
  split <;> simp_all

end Usage

/-- Neither the count of failures nor the pause of a loop of tries is ever out of reach, except a
pause that doubles beyond the longest time; and the total of an assessment's tokens is the sum of
those that were reported, or out of reach when that needs more than 32 bits. -/
theorem numbers_out_of_reach_iff {σ α : Type} (act : σ → Except Failure α × σ) (retries : UInt32)
    (pause : Duration) (s : σ) (status : Nat) (bytes : List UInt8) :
    (∃ k, IsLastTry act retries.toNat s k ∧
      (∃ log t e, Loop act retries 0 pause s log t e) ∧
      ∀ log t e, Loop act retries 0 pause s log t e →
        e ≠ .countOut ∧ (e = .pauseOut ↔ 0 < k ∧ Duration.limit ≤ pause.nanoseconds * 2 ^ k) ∧
        retry act retries.toNat pause s =
          ⟨log.count .call, log.filterMap Moment.pause?, t, e.result?⟩) ∧
      ∀ a, Chat.outcomeOf (.answered status (some bytes)) = .ok a →
        ∃ v reply, read? (Chat.bodyText bytes) = some v ∧ Chat.ReplyOf v reply ∧
          a.usage = reply.usage.getD ⟨0, 0⟩ ∧
          (∀ total, a.usage.total? = some total ↔
            total.toNat = a.usage.inputTokens.toNat + a.usage.outputTokens.toNat) ∧
          (a.usage.total? = none ↔
            UInt32.size ≤ a.usage.inputTokens.toNat + a.usage.outputTokens.toNat) := by
  constructor
  · obtain ⟨k, hk⟩ := exists_isLastTry act retries.toNat s
    refine ⟨k, hk, exists_loop act retries 0 pause s, fun log t e h => ?_⟩
    exact ⟨h.ne_countOut, h.pauseOut_iff hk, h.retry_eq⟩
  · intro a h
    obtain ⟨v, reply, hv, hreply, husage⟩ := Chat.exists_reply_of_outcomeOf h
    exact ⟨v, reply, hv, hreply, husage, fun _ => Usage.total?_eq_some_iff,
      Usage.total?_eq_none_iff⟩

/-- An action whose every call is lost. -/
def loseAll (calls : Nat) : Except Failure Nat × Nat := (.error (.network "closed"), calls + 1)

def fullReply : List UInt8 :=
  ("\x7b\"choices\":[\x7b\"message\":\x7b\"content\":\"ok\"\x7d\x7d],\"model\":\"m\"," ++
    "\"usage\":\x7b\"prompt_tokens\":4294967295,\"completion_tokens\":1\x7d\x7d").toUTF8.toList

/-- A pause of half the longest time cannot double, and one token more than a word holds leaves no
total. -/
theorem numbers_out_of_reach_iff_full :
    Loop loseAll 1 0 ⟨2 ^ 63 * 1000000000⟩ 0 [.call, .pause ⟨2 ^ 63 * 1000000000⟩] 1 .pauseOut ∧
      (retry loseAll 1 ⟨2 ^ 63 * 1000000000⟩ 0).result = none ∧
      Chat.outcomeOf (.answered 200 (some fullReply)) = .ok ⟨"ok", "m", ⟨4294967295, 1⟩⟩ ∧
      (∃ v reply, read? (Chat.bodyText fullReply) = some v ∧ Chat.ReplyOf v reply ∧
        reply.usage.getD ⟨0, 0⟩ = ⟨4294967295, 1⟩) ∧
      (⟨4294967295, 1⟩ : Usage).total? = none := by
  have hloop : Loop loseAll 1 0 ⟨2 ^ 63 * 1000000000⟩ 0
      [.call, .pause ⟨2 ^ 63 * 1000000000⟩] 1 .pauseOut :=
    .pauseOut rfl (by decide) (by decide) (by decide)
  have houtcome : Chat.outcomeOf (.answered 200 (some fullReply)) =
      .ok ⟨"ok", "m", ⟨4294967295, 1⟩⟩ := by decide +kernel
  obtain ⟨⟨k, -, -, hends⟩, htokens⟩ :=
    numbers_out_of_reach_iff loseAll 1 ⟨2 ^ 63 * 1000000000⟩ 0 200 fullReply
  obtain ⟨-, -, hsum⟩ := hends _ _ _ hloop
  obtain ⟨v, reply, hv, hreply, husage, -, htotal⟩ := htokens _ houtcome
  exact ⟨hloop, congrArg Attempts.result hsum, houtcome, ⟨v, reply, hv, hreply, husage.symm⟩,
    htotal.mpr (by decide)⟩

end Triage.Service
