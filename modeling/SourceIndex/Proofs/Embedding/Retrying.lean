import SourceIndex.Embedding.OpenAi
import SourceIndex.Proofs.Http.Rounds

/-!
# How embeddings are asked for again

A batch is asked for again while the service is too busy, connections fail or
replies break off, and as long as attempts are left.  After the last of them a
refusal for too many requests is an error, but any other complete reply is
handed on, also one that another attempt might have mended.

No wait is longer than half a minute, however many attempts came before it,
and the attempts end by themselves: nothing behind their loop is ever reached.

## Main results

* `judge_governs` — the verdicts are those of the policy.
* `ask_run` — asking follows the policy, in every world.
-/

namespace SourceIndex.Embedding.OpenAi

open Http Http.Online

/-! ## The policy -/

/-- Another attempt is worth while. -/
inductive Retryable : Received → Prop where
  | busy (head : Head) (body : List UInt8) :
      head.status = 429 ∨ (500 ≤ head.status ∧ head.status < 600) → Retryable (.whole head body)
  | broken (head : Head) (failure : Failure) : Retryable (.part head failure)
  | unconnected (failure : Failure) : failure.cause = .timedOut ∨ failure.cause = .refused →
      Retryable (.nothing failure)

/-- What an attempt means when there is no other. -/
inductive Means : Received → Except EmbedError Reply → Prop where
  | tooMany (head : Head) (body : List UInt8) : head.status = 429 →
      Means (.whole head body) (.error .rateLimited)
  | replied (head : Head) (body : List UInt8) : head.status ≠ 429 →
      Means (.whole head body) (.ok { status := head.status, body })
  | broken (head : Head) (failure : Failure) :
      Means (.part head failure) (.error (.http failure.message))
  | lost (failure : Failure) : Means (.nothing failure) (.error (.http failure.message))

/-- A complete reply defers the next attempt by the seconds it asks for. -/
def Defers (received : Received) (seconds : Nat) : Prop :=
  ∃ head body, received = .whole head body ∧ head.AsksFor seconds

/-- How embeddings are asked for again: after the wait that a complete reply
asks for, or else after one that doubles with each attempt, and never after
more than half a minute. -/
def policy : Policy EmbedError Reply where
  Retryable := Retryable
  Waits number received := Delays 30 (Defers received) (2 ^ number)
  Means := Means

/-! ## The judge -/

/-- The wait that is cut off does not depend on how far the numbers go. -/
theorem wait_eq (number : Nat) (found : Option Nat) :
    wait number found = min 30 (found.getD (2 ^ number)) := by
  have hLargest : Text.largest64 = 2 ^ 64 - 1 := rfl
  cases found with
  | some wanted => rfl
  | none =>
      rw [wait, Option.getD_none, Option.getD_none, backoff_eq_min, maxWait]
      omega

theorem wait_delays {number : Nat} {received : Received} {found : Option Nat}
    (hFound : ∀ wanted, found = some wanted ↔ Defers received wanted) :
    policy.Waits number received (wait number found) := by
  rw [wait_eq]
  exact delays_getD hFound

private theorem defers_of_not_whole {received : Received}
    (hReceived : ∀ head body, received ≠ .whole head body) (wanted : Nat) :
    none = some wanted ↔ Defers received wanted := by
  refine iff_of_false (by simp) ?_
  rintro ⟨head, body, hWhole, _⟩
  exact hReceived head body hWhole

theorem judge_governs : policy.Governs judge := by
  intro number received
  cases received with
  | nothing failure =>
      have hConnection : failure.isConnection = true ↔ Retryable (.nothing failure) := by
        have hCause : failure.isConnection = true ↔
            failure.cause = .timedOut ∨ failure.cause = .refused := by
          simp [Failure.isConnection, or_comm]
        rw [hCause]
        constructor
        · exact .unconnected failure
        · rintro (_ | _ | ⟨_, hCause⟩)
          exact hCause
      exact Policy.keeps_ite hConnection (wait_delays (defers_of_not_whole (by simp)))
        (.lost failure)
  | part head failure =>
      refine ⟨fun _ => ⟨_, rfl, wait_delays (defers_of_not_whole (by simp))⟩, ?_,
        .broken head failure⟩
      exact fun hFinal => absurd (.broken head failure) hFinal
  | whole head body =>
      have hBusy : (head.status = 429 || head.status.isServerError) = true ↔
          Retryable (.whole head body) := by
        have hStatus : (head.status = 429 || head.status.isServerError) = true ↔
            head.status = 429 ∨ (500 ≤ head.status ∧ head.status < 600) := by
          simp [Status.isServerError]
        rw [hStatus]
        constructor
        · exact .busy head body
        · rintro (⟨_, _, hStatus⟩ | _ | _)
          exact hStatus
      have hDefers : ∀ wanted,
          head.retryAfter? = some wanted ↔ Defers (.whole head body) wanted := by
        intro wanted
        rw [Head.retryAfter?_eq_some_iff]
        constructor
        · exact fun hAsksFor => ⟨head, body, rfl, hAsksFor⟩
        · rintro ⟨_, _, ⟨rfl⟩, hAsksFor⟩
          exact hAsksFor
      refine Policy.keeps_ite hBusy (wait_delays hDefers) ?_
      by_cases hMany : head.status = 429
      · rw [if_pos hMany]
        exact .tooMany head body hMany
      · rw [if_neg hMany]
        exact .replied head body hMany

/-! ## Asking -/

/--
**How embeddings are asked for**: the attempts, the waits between them, the
result and the session afterwards are those of the policy, whatever the
attempts receive.  There are no more attempts than allowed and no wait is longer
than half a minute.  In a loop over the numbers of the attempts it makes no
difference what stands behind it.
-/
theorem ask_run (service : OpenAi) (world : World) (texts : List String) {session : Session}
    (hRunning : session.cancelled = false) :
    (∃ wait last, policy.Run .cancelled
      ⟨world, service.draft texts, service.limits.maxRetries, session⟩ wait last
      ((service.ask world texts).run session).1 ((service.ask world texts).run session).2) ∧
    ((service.ask world texts).run session).2.log.length ≤
      session.log.length + (service.limits.maxRetries + 1) ∧
    (∃ waits, ((service.ask world texts).run session).2.waits = session.waits ++ waits ∧
      ∀ seconds ∈ waits, seconds ≤ 30) ∧
    ∀ behind, loop world .cancelled (service.draft texts) judge service.limits.maxRetries behind
        (List.range (service.limits.maxRetries + 1)) =
      service.ask world texts := by
  obtain ⟨wait, last, hRun⟩ := Rounds.retry_run
    ⟨world, service.draft texts, service.limits.maxRetries, session⟩ .cancelled judge_governs
    hRunning
  obtain ⟨waits, hWaits, hPlanned⟩ := hRun.waited_all
  refine ⟨⟨wait, last, hRun⟩, hRun.log_length_le, ⟨waits, hWaits, ?_⟩, ?_⟩
  · intro seconds hSeconds
    obtain ⟨number, _, hDelays⟩ := hPlanned seconds hSeconds
    exact Delays.le hDelays
  · exact fun behind => loop_range_eq_retry world .cancelled (service.draft texts) judge behind
      service.limits.maxRetries

/-! ### A service that is too busy to the end -/

namespace Busy

def service : OpenAi :=
  { base := "http://localhost", key := ⟨"k"⟩, model := "m"
    limits := { EmbeddingLimits.standard with maxRetries := 2 } }

def world : World :=
  { answer := fun before _ => match before with
      | [] => .reply ⟨429, [("retry-after", "75")]⟩ []
      | [_] => .interrupted ⟨200, [("retry-after", "9")]⟩
      | _ => .reply ⟨503, []⟩ [104, 105]
    interrupts := World.patient }

/-- The third attempt is the last, so its refusal is the reply.  The first wait
is cut off, the second is not the one that the broken reply asks for. -/
theorem ask_run_third :
    (Session.start false).cancelled = false ∧
      (∃ wait last, policy.Run .cancelled ⟨world, service.draft ["a"], 2, .start false⟩ wait last
        ((service.ask world ["a"]).run (.start false)).1
        ((service.ask world ["a"]).run (.start false)).2) ∧
      ((service.ask world ["a"]).run (.start false)).1.toOption = some ⟨503, [104, 105]⟩ ∧
      ((service.ask world ["a"]).run (.start false)).2.waits = [30, 2] :=
  ⟨rfl, (ask_run service world ["a"] rfl).1, by decide +kernel, by decide +kernel⟩

end Busy

end SourceIndex.Embedding.OpenAi
