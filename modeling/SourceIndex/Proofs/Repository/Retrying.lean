import SourceIndex.Proofs.Http.Rounds
import SourceIndex.Repository.GitHub

/-!
# How the service is asked again

A request for the contents of a URL is attempted until a complete reply grants
it, its error is one that another attempt would not mend, or no attempt is
left.  `policy` says so without the program's classification: which replies are
worth another attempt, how long the program waits before it, and what each of
them means when it is the last.

## Main results

* `statusError_refuses` — the error that a refusal means.
* `Refuses.isRetryable_iff` — the refusals that are worth another attempt.
* `get_run` — a request follows the policy, in every world.
-/

namespace SourceIndex.GitHub

open Http Http.Online

/-! ## Refusals -/

/-- A reply that tells that there were too many requests. -/
def Limited (head : Head) : Prop :=
  head.header? "x-ratelimit-remaining" = some "0" ∨ ∃ value, head.header? "retry-after" = some value

/-- The kind of error that a refusal means, with the given details. -/
inductive Refuses (head : Head) (detail : String) : FetchError → Prop where
  | tooMany : head.status = 429 → Refuses head detail (.rateLimited detail)
  | limited : head.status = 403 → Limited head → Refuses head detail (.rateLimited detail)
  | forbidden : head.status = 403 → ¬ Limited head → Refuses head detail (.auth detail)
  | unauthorized : head.status = 401 → Refuses head detail (.auth detail)
  | missing : head.status = 404 ∨ head.status = 409 ∨ head.status = 422 →
      Refuses head detail (.notFound detail)
  | overloaded : 500 ≤ head.status ∧ head.status < 600 → Refuses head detail (.network detail)
  | unexpected : head.status ∉ [401, 403, 404, 409, 422, 429] →
      ¬ (500 ≤ head.status ∧ head.status < 600) → Refuses head detail (.invalidResponse detail)

/-- A refusal that may be over later. -/
def Passing (head : Head) : Prop :=
  head.status = 429 ∨ (head.status = 403 ∧ Limited head) ∨
    (500 ≤ head.status ∧ head.status < 600)

theorem isRateLimit_iff {head : Head} :
    isRateLimit head = true ↔ head.status = 429 ∨ (head.status = 403 ∧ Limited head) := by
  simp [isRateLimit, Limited, Option.isSome_iff_exists]

/-- What a message tells of a refusal. -/
def refusal (url : String) (head : Head) (body : List UInt8) : String :=
  url ++ " returned " ++ head.status.describe ++ ": " ++ quote body

theorem statusError_refuses (url : String) (head : Head) (body : List UInt8) :
    Refuses head (refusal url head body) (statusError url head body) := by
  unfold statusError
  dsimp only
  by_cases hLimit : isRateLimit head = true
  · rw [if_pos hLimit]
    exact (isRateLimit_iff.mp hLimit).elim .tooMany fun hBoth => .limited hBoth.1 hBoth.2
  · rw [if_neg hLimit]
    rw [isRateLimit_iff, not_or, not_and] at hLimit
    by_cases hAuth : head.status = 401 ∨ head.status = 403
    · rw [if_pos hAuth]
      exact hAuth.elim .unauthorized fun hForbidden => .forbidden hForbidden (hLimit.2 hForbidden)
    · rw [if_neg hAuth]
      by_cases hMissing : head.status = 404 ∨ head.status = 409 ∨ head.status = 422
      · rw [if_pos hMissing]
        exact .missing hMissing
      · rw [if_neg hMissing]
        have hServer : head.status.isServerError = true ↔
            500 ≤ head.status ∧ head.status < 600 := by
          simp [Status.isServerError]
        by_cases hOverloaded : head.status.isServerError = true
        · rw [if_pos hOverloaded]
          exact .overloaded (hServer.mp hOverloaded)
        · rw [if_neg hOverloaded]
          have hOther : head.status ∉ [401, 403, 404, 409, 422, 429] := by
            simp only [not_or] at hAuth hMissing
            simp [hLimit.1, hAuth, hMissing]
          exact .unexpected hOther (mt hServer.mpr hOverloaded)

/-- Another attempt is worth while exactly after a refusal that may be over
later. -/
theorem Refuses.isRetryable_iff {head : Head} {detail : String} {error : FetchError}
    (hRefuses : Refuses head detail error) : error.isRetryable = true ↔ Passing head := by
  cases hRefuses with
  | tooMany hStatus => simp [FetchError.isRetryable, Passing, hStatus]
  | limited hStatus hLimited => simp [FetchError.isRetryable, Passing, hStatus, hLimited]
  | forbidden hStatus hLimited => simp [FetchError.isRetryable, Passing, hStatus, hLimited]
  | unauthorized hStatus => simp [FetchError.isRetryable, Passing, hStatus]
  | missing hStatus =>
      obtain hStatus | hStatus | hStatus := hStatus
      · simp [FetchError.isRetryable, Passing, hStatus]
      · simp [FetchError.isRetryable, Passing, hStatus]
      · simp [FetchError.isRetryable, Passing, hStatus]
  | overloaded hStatus => simp [FetchError.isRetryable, Passing, hStatus]
  | unexpected hStatus hServer =>
      have hOthers : head.status ≠ 403 ∧ head.status ≠ 429 := by
        simp only [List.mem_cons, not_or] at hStatus
        exact ⟨hStatus.2.1, hStatus.2.2.2.2.2.1⟩
      simp [FetchError.isRetryable, Passing, hOthers, hServer]

/-! ## The policy -/

/-- Another attempt is worth while when no complete reply came, unless a
refusal began that will not be over later. -/
inductive Retryable : Received → Prop where
  | lost (failure : Failure) : Retryable (.nothing failure)
  | broken (head : Head) (failure : Failure) : head.status.isSuccess = true →
      Retryable (.part head failure)
  | refused (received : Received) (head : Head) : received.head? = some head →
      ¬ head.status.isSuccess = true → Passing head → Retryable received

/-- What an attempt means when there is no other. -/
inductive Means (url : String) : Received → Except FetchError (List UInt8) → Prop where
  | granted (head : Head) (body : List UInt8) : head.status.isSuccess = true →
      Means url (.whole head body) (.ok body)
  | refused (head : Head) (body : List UInt8) (error : FetchError) :
      ¬ head.status.isSuccess = true → Refuses head (refusal url head body) error →
      Means url (.whole head body) (.error error)
  | refusedInPart (head : Head) (failure : Failure) (error : FetchError) :
      ¬ head.status.isSuccess = true → Refuses head (refusal url head []) error →
      Means url (.part head failure) (.error error)
  | broken (head : Head) (failure : Failure) : head.status.isSuccess = true →
      Means url (.part head failure)
        (.error (.network (url ++ ": body read failed: " ++ failure.message)))
  | lost (failure : Failure) :
      Means url (.nothing failure) (.error (.network (url ++ ": " ++ failure.message)))

/-- A refusal defers the next attempt by the seconds it asks for. -/
def Defers (received : Received) (seconds : Nat) : Prop :=
  ∃ head, received.head? = some head ∧ ¬ head.status.isSuccess = true ∧ head.AsksFor seconds

/-- How the service is asked again: after the wait that a refusal asks for, or
else after one that doubles with each attempt as far as 64 bits hold it, and
never after more than is allowed. -/
def policy (service : GitHub) (url : String) : Policy FetchError (List UInt8) where
  Retryable := Retryable
  Waits number received :=
    Delays service.settings.maxBackoffSecs (Defers received) (min (2 ^ number) Text.largest64)
  Means := Means url

/-! ## The judge -/

section Judge

variable (service : GitHub) (url : String) (number : Nat)

/-- The error after an attempt keeps the policy when it is mended by another
attempt just where the policy allows one. -/
private theorem refuse_keeps {received : Received} {error : FetchError} {found : Option Nat}
    (hMeans : Means url received (.error error))
    (hError : error.isRetryable = true ↔ Retryable received)
    (hFound : ∀ wanted, found = some wanted ↔ Defers received wanted) :
    (service.policy url).Keeps number received (service.refuse number error found) := by
  have hWaits : (service.policy url).Waits number received
      (min service.settings.maxBackoffSecs (found.getD (backoff number))) := by
    rw [backoff_eq_min]
    exact delays_getD hFound
  exact Policy.keeps_ite hError hWaits hMeans

/-- What is no refusal asks for nothing. -/
private theorem defers_of_not_refused {received : Received}
    (hGranted : ∀ head, received.head? = some head → head.status.isSuccess = true)
    (wanted : Nat) : none = some wanted ↔ Defers received wanted := by
  refine iff_of_false (by simp) ?_
  rintro ⟨head, hHead, hRefused, _⟩
  exact hRefused (hGranted head hHead)

/-- A refusal keeps the policy, also when its body breaks off. -/
private theorem refusal_keeps {received : Received} {head : Head} {body : List UInt8}
    (hHead : received.head? = some head) (hRefused : ¬ head.status.isSuccess = true)
    (hMeans : ∀ error, Refuses head (refusal url head body) error →
      Means url received (.error error)) :
    (service.policy url).Keeps number received
      (service.refuse number (statusError url head body) head.retryAfter?) := by
  have hOnly : ∀ other, received.head? = some other → other = head := by
    intro other hOther
    rw [hHead, Option.some.injEq] at hOther
    exact hOther.symm
  have hRefuses := statusError_refuses url head body
  refine refuse_keeps service url number (hMeans _ hRefuses) ?_ ?_
  · rw [hRefuses.isRetryable_iff]
    constructor
    · exact .refused received head hHead hRefused
    · intro hRetryable
      cases hRetryable with
      | lost failure => simp [Received.head?] at hHead
      | broken other failure hSuccess => exact absurd (hOnly other rfl ▸ hSuccess) hRefused
      | refused _ other hOther _ hPassing => exact hOnly other hOther ▸ hPassing
  · intro wanted
    rw [Head.retryAfter?_eq_some_iff]
    constructor
    · exact fun hDefers => ⟨head, hHead, hRefused, hDefers⟩
    · rintro ⟨other, hOther, _, hDefers⟩
      exact hOnly other hOther ▸ hDefers

theorem judge_governs : (service.policy url).Governs (service.judge url) := by
  intro number received
  cases received with
  | nothing failure =>
      exact refuse_keeps service url number (.lost failure) (iff_of_true rfl (.lost failure))
        (defers_of_not_refused (by simp [Received.head?]))
  | part head failure =>
      by_cases hSuccess : head.status.isSuccess = true
      · rw [judge, if_pos hSuccess]
        exact refuse_keeps service url number (.broken head failure hSuccess)
          (iff_of_true rfl (.broken head failure hSuccess))
          (defers_of_not_refused (by simpa [Received.head?]))
      · rw [judge, if_neg hSuccess]
        exact refusal_keeps service url number rfl hSuccess fun error =>
          .refusedInPart head failure error hSuccess
  | whole head body =>
      by_cases hSuccess : head.status.isSuccess = true
      · rw [judge, if_pos hSuccess]
        refine ⟨?_, fun _ => rfl, .granted head body hSuccess⟩
        intro hRetryable
        cases hRetryable with
        | refused _ other hOther hRefused =>
            obtain rfl : head = other := by simpa [Received.head?] using hOther
            exact absurd hSuccess hRefused
      · rw [judge, if_neg hSuccess]
        exact refusal_keeps service url number rfl hSuccess fun error =>
          .refused head body error hSuccess

/--
**How the service is asked**: the attempts, the waits between them, the result
and the session afterwards are those of the policy, whatever the attempts
receive.
-/
theorem get_run (world : World) (media : Media) {session : Session}
    (hRunning : session.cancelled = false) :
    ∃ wait last, (service.policy url).Run .cancelled
      ⟨world, service.draft media url, service.settings.maxRetries, session⟩ wait last
      ((service.get world media url).run session).1
      ((service.get world media url).run session).2 :=
  Rounds.retry_run ⟨world, service.draft media url, service.settings.maxRetries, session⟩
    .cancelled (judge_governs service url) hRunning

end Judge

/-! ### A server that is too busy and then drops a connection -/

namespace Unsteady

def service : GitHub := { base := "http://localhost", token := "t", settings := .standard }

def url : String := "http://localhost/f"

def world : World :=
  { answer := fun before _ => match before with
      | [] => .reply ⟨503, [("retry-after", " +3 ")]⟩ []
      | [_] => .dropped
      | _ => .reply ⟨200, []⟩ [104, 105]
    interrupts := World.patient }

/-- The contents are granted in the third attempt, after a wait that was asked
for and one that was not. -/
theorem get_run_third :
    (Session.start false).cancelled = false ∧
      (∃ wait last, (service.policy url).Run .cancelled
        ⟨world, service.draft .raw url, 3, .start false⟩ wait last
        ((service.get world .raw url).run (.start false)).1
        ((service.get world .raw url).run (.start false)).2) ∧
      ((service.get world .raw url).run (.start false)).1.toOption = some [104, 105] ∧
      ((service.get world .raw url).run (.start false)).2.waits = [3, 2] :=
  ⟨rfl, get_run service url world .raw rfl, by decide +kernel, by decide +kernel⟩

end Unsteady

end SourceIndex.GitHub
