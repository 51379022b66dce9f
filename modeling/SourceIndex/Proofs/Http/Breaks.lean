import SourceIndex.Proofs.Embedding.Retrying
import SourceIndex.Proofs.Repository.Retrying

/-!
# Connections that break

A connection may break at several places: there may be none, or none in time, it
may close before the reply begins, or in the middle of it.  The log of a session
tells the place, so what is said here of a run of retries is read off the
session after it: an attempt is in the log, the wait planned after it is among
the waits, and the next attempt follows in the log unless the run was cancelled
in that wait.

Contents are fetched again after every break, unless the reply that breaks off is
a refusal.  Embeddings are not asked for again after a connection that closes
before the reply begins, however many attempts are left: their client knows
connections that were refused or took too long, and this one was neither.

## Main results

* `Policy.Run.plans_another` — an attempt worth another one is followed by it.
* `Embedding.OpenAi.asks_again_after_break`, `Embedding.OpenAi.dropped_ends` —
  breaks while embeddings are asked for.
* `GitHub.fetches_again_after_break` — breaks while contents are fetched.
-/

namespace SourceIndex.Http

/-- The connection fails before a whole reply has been received. -/
inductive Outcome.Breaks : Outcome → Prop where
  | refused : Breaks .refused
  | timedOut : Breaks .timedOut
  | dropped : Breaks .dropped
  | interrupted (head : Head) : Breaks (.interrupted head)

namespace Online

/-- In a run from one session to another, the attempt with the given number is
followed by a wait of some seconds, and by the next attempt unless the run was
cancelled. -/
structure PlansAnother (before after : Session) (number seconds : Nat) : Prop where
  waited : after.waits[before.waits.length + number]? = some seconds
  next : after.cancelled = true ∨
    ∃ entry, after.log[before.log.length + (number + 1)]? = some entry

/-! ## Attempts in the log -/

section Rounds

variable {ε α : Type} {rounds : Rounds} {number count : Nat} {entry : Entry}

/-- An attempt in the log received what its row has there. -/
theorem Rounds.receives_of_entry (h : (rounds.entries count)[number]? = some entry) :
    number < count ∧ ∃ url, rounds.receives number = entry.outcome.received url := by
  unfold entries at h
  unfold receives
  cases hPrepare : rounds.draft.prepare with
  | error failure => simp [hPrepare] at h
  | ok prepared =>
      simp only [hPrepare, List.getElem?_map, Option.map_eq_some_iff] at h
      obtain ⟨found, hFound, rfl⟩ := h
      obtain ⟨hCount, hSame⟩ := List.getElem?_eq_some_iff.mp hFound
      rw [List.length_range] at hCount
      rw [List.getElem_range] at hSame
      subst hSame
      exact ⟨hCount, prepared.1, rfl⟩

/-- When one attempt is in the log, so are all that were made. -/
theorem Rounds.exists_entry (h : (rounds.entries count)[number]? = some entry) {other : Nat}
    (hOther : other < count) : ∃ found, (rounds.entries count)[other]? = some found := by
  unfold entries at h ⊢
  cases hPrepare : rounds.draft.prepare with
  | error failure => simp [hPrepare] at h
  | ok prepared => simp [List.getElem?_range hOther]

theorem Rounds.getElem?_waited (wait : Nat → Nat) (h : number < count) :
    (rounds.waited wait count)[rounds.session.waits.length + number]? = some (wait number) := by
  rw [waited, List.getElem?_append_right (Nat.le_add_right ..), Nat.add_sub_cancel_left,
    List.getElem?_map, List.getElem?_range h]
  rfl

variable {policy : Policy ε α} {cancelled : ε} {wait : Nat → Nat} {last : Nat}
  {result : Except ε α} {after : Session}

/-- Attempts that the run has added to the log. -/
theorem Policy.Run.getElem?_log (hRun : policy.Run cancelled rounds wait last result after)
    (number : Nat) :
    after.log[rounds.session.log.length + number]? = (rounds.entries (last + 1))[number]? := by
  rw [hRun.log, List.getElem?_append_right (Nat.le_add_right ..), Nat.add_sub_cancel_left]

/-- What comes of the attempts of a request. -/
def Rounds.ended (rounds : Rounds) (cancelled : ε) (judge : Nat → Received → Verdict ε α) :
    Except ε α × Session :=
  (retry rounds.world cancelled rounds.draft judge rounds.retries 0).run rounds.session

/-- A run with an attempt was not cancelled before it. -/
theorem Rounds.ended_run {judge : Nat → Received → Verdict ε α} (hGoverns : policy.Governs judge)
    (hEntry : (rounds.ended cancelled judge).2.log[rounds.session.log.length + number]? =
      some entry) :
    ∃ wait last, policy.Run cancelled rounds wait last (rounds.ended cancelled judge).1
      (rounds.ended cancelled judge).2 := by
  cases hCancelled : rounds.session.cancelled with
  | false => exact Rounds.retry_run rounds cancelled hGoverns hCancelled
  | true =>
      rw [ended, retry_cancelled _ _ _ _ _ hCancelled,
        List.getElem?_eq_none (Nat.le_add_right ..)] at hEntry
      cases hEntry

/-- The wait after an attempt that is worth another one, when attempts are left. -/
theorem Policy.Run.getElem?_waits (hRun : policy.Run cancelled rounds wait last result after)
    (hNumber : number ≤ last) (hLeft : number < rounds.retries)
    (hAgain : policy.Retryable (rounds.receives number)) :
    after.waits[rounds.session.waits.length + number]? = some (wait number) := by
  by_cases hDecides : last = rounds.retries ∨ ¬ policy.Retryable (rounds.receives last)
  · have hBefore : number ≠ last := by
      rintro rfl
      exact hDecides.elim (Nat.ne_of_lt hLeft) fun hFinal => hFinal hAgain
    rw [(hRun.decided hDecides).2.1]
    exact Rounds.getElem?_waited wait (by omega)
  · rw [not_or, Classical.not_not] at hDecides
    have hLess : last < rounds.retries := Nat.lt_of_le_of_ne hRun.last_le hDecides.1
    rw [(hRun.interrupted hLess hDecides.2).2.1]
    exact Rounds.getElem?_waited wait (by omega)

/-- **An attempt that is worth another one is followed by it**, after a wait
that the policy allows, when attempts are left. -/
theorem Policy.Run.plans_another (hRun : policy.Run cancelled rounds wait last result after)
    (hEntry : after.log[rounds.session.log.length + number]? = some entry)
    (hLeft : number < rounds.retries)
    (hAgain : ∀ url, policy.Retryable (entry.outcome.received url)) :
    ∃ url seconds, policy.Waits number (entry.outcome.received url) seconds ∧
      PlansAnother rounds.session after number seconds := by
  rw [hRun.getElem?_log] at hEntry
  obtain ⟨hNumber, url, hReceives⟩ := Rounds.receives_of_entry hEntry
  have hRetryable : policy.Retryable (rounds.receives number) := hReceives ▸ hAgain url
  refine ⟨url, wait number, hReceives ▸ hRun.planned number hRetryable,
    hRun.getElem?_waits (Nat.le_of_lt_succ hNumber) hLeft hRetryable, ?_⟩
  by_cases hLast : number = last
  · -- The attempt is the last one, so the run was cancelled in the wait after it.
    subst hLast
    exact .inl (hRun.interrupted hLeft hRetryable).2.2
  · right
    rw [hRun.getElem?_log]
    exact Rounds.exists_entry hEntry (by omega)

/-- An attempt that is not worth another one is the last, whatever attempts are
left. -/
theorem Policy.Run.ends (hRun : policy.Run cancelled rounds wait last result after)
    (hEntry : after.log[rounds.session.log.length + number]? = some entry)
    (hFinal : ∀ url, ¬ policy.Retryable (entry.outcome.received url)) :
    (∃ url, policy.Means (entry.outcome.received url) result) ∧
      ∀ seconds, ¬ PlansAnother rounds.session after number seconds := by
  rw [hRun.getElem?_log] at hEntry
  obtain ⟨hNumber, url, hReceives⟩ := Rounds.receives_of_entry hEntry
  have hStops : ¬ policy.Retryable (rounds.receives number) := hReceives ▸ hFinal url
  have hLast : last = number :=
    Nat.le_antisymm (hRun.least.2 (.inr (.inl hStops))) (Nat.le_of_lt_succ hNumber)
  subst hLast
  obtain ⟨hMeans, hWaits, _⟩ := hRun.decided (.inr hStops)
  refine ⟨⟨url, hReceives ▸ hMeans⟩, ?_⟩
  intro seconds hPlans
  have hWaited := hPlans.waited
  rw [hWaits, Rounds.waited, List.getElem?_eq_none (by simp)] at hWaited
  cases hWaited

end Rounds

end Online

end SourceIndex.Http

/-! ## Embeddings -/

namespace SourceIndex.Embedding.OpenAi

open Http Http.Online

variable {rounds : Rounds} {number : Nat} {entry : Entry}

theorem retryable_of_breaks {outcome : Outcome} (hBreaks : outcome.Breaks)
    (hBegun : outcome ≠ .dropped) (url : Url) : Retryable (outcome.received url) := by
  cases hBreaks with
  | refused => exact .unconnected _ (.inr rfl)
  | timedOut => exact .unconnected _ (.inl rfl)
  | dropped => exact absurd rfl hBegun
  | interrupted head => exact .broken head _

theorem not_retryable_dropped (url : Url) : ¬ Retryable (Outcome.dropped.received url) := by
  rintro (_ | _ | ⟨_, hCause⟩)
  rcases hCause with hCause | hCause
  · cases hCause
  · cases hCause

/-- Only a whole reply asks for a wait. -/
theorem not_defers_of_breaks {outcome : Outcome} (hBreaks : outcome.Breaks) (url : Url)
    (wanted : Nat) : ¬ Defers (outcome.received url) wanted := by
  rintro ⟨head, body, hWhole, _⟩
  cases hBreaks with
  | refused => cases hWhole
  | timedOut => cases hWhole
  | dropped => cases hWhole
  | interrupted begun => cases hWhole

/-- **A break is followed by another attempt** when attempts are left, unless
the connection closed before the reply began.  The request may be any; `ask` is
the case of the one for some texts. -/
theorem asks_again_after_break
    (hEntry : (rounds.ended .cancelled judge).2.log[rounds.session.log.length + number]? =
      some entry)
    (hLeft : number < rounds.retries) (hBreaks : entry.outcome.Breaks)
    (hBegun : entry.outcome ≠ .dropped) :
    PlansAnother rounds.session (rounds.ended .cancelled judge).2 number
      (min 30 (2 ^ number)) := by
  obtain ⟨wait, last, hRun⟩ := Rounds.ended_run judge_governs hEntry
  obtain ⟨url, seconds, hWaits, hPlans⟩ :=
    hRun.plans_another hEntry hLeft (retryable_of_breaks hBreaks hBegun)
  rwa [← hWaits.2 (not_defers_of_breaks hBreaks url)]

/-- The second reply of a busy service breaks off. -/
theorem busy_asks_again :
    ∃ entry, ((Busy.service.ask Busy.world ["a"]).run (.start false)).2.log[1]? = some entry ∧
      1 < Busy.service.limits.maxRetries ∧ entry.outcome.Breaks ∧ entry.outcome ≠ .dropped ∧
      PlansAnother (.start false)
        ((Busy.service.ask Busy.world ["a"]).run (.start false)).2 1 2 := by
  let given : Rounds := ⟨Busy.world, Busy.service.draft ["a"], 2, .start false⟩
  have hOutcome : (given.ended .cancelled judge).2.log[1]?.map (·.outcome) =
      some (.interrupted ⟨200, [("retry-after", "9")]⟩) := by decide +kernel
  obtain ⟨entry, hEntry, hBroken⟩ := Option.map_eq_some_iff.mp hOutcome
  have hBreaks : entry.outcome.Breaks := hBroken ▸ .interrupted _
  have hBegun : entry.outcome ≠ .dropped := by rw [hBroken]; decide
  refine ⟨entry, hEntry, by decide, hBreaks, hBegun, ?_⟩
  exact @asks_again_after_break given 1 entry hEntry (by decide) hBreaks hBegun

/-- **A connection that closes before the reply begins ends the asking**,
whatever attempts are left. -/
theorem dropped_ends
    (hEntry : (rounds.ended .cancelled judge).2.log[rounds.session.log.length + number]? =
      some entry)
    (hDropped : entry.outcome = .dropped) :
    (∃ message, (rounds.ended .cancelled judge).1 = .error (.http message)) ∧
      ∀ seconds,
        ¬ PlansAnother rounds.session (rounds.ended .cancelled judge).2 number seconds := by
  obtain ⟨wait, last, hRun⟩ := Rounds.ended_run judge_governs hEntry
  obtain ⟨⟨url, hMeans⟩, hEnds⟩ := hRun.ends hEntry (hDropped ▸ not_retryable_dropped)
  refine ⟨?_, hEnds⟩
  rw [hDropped] at hMeans
  generalize (rounds.ended .cancelled judge).1 = result at hMeans
  cases hMeans with
  | lost failure => exact ⟨_, rfl⟩

/-! ### A service that drops the first connection -/

namespace Dropping

def world : World :=
  { answer := fun before _ => if before.isEmpty then .dropped else .reply ⟨200, []⟩ []
    interrupts := World.patient }

/-- Nothing is asked again though two attempts are left. -/
theorem drop_gives_up :
    ∃ entry, ((Busy.service.ask world ["a"]).run (.start false)).2.log[0]? = some entry ∧
      0 < Busy.service.limits.maxRetries ∧ entry.outcome.Breaks ∧
      (∃ message, ((Busy.service.ask world ["a"]).run (.start false)).1 =
        .error (.http message)) ∧
      ∀ seconds, ¬ PlansAnother (.start false)
        ((Busy.service.ask world ["a"]).run (.start false)).2 0 seconds := by
  let given : Rounds := ⟨world, Busy.service.draft ["a"], 2, .start false⟩
  have hOutcome : (given.ended .cancelled judge).2.log[0]?.map (·.outcome) = some .dropped := by
    decide +kernel
  obtain ⟨entry, hEntry, hDropped⟩ := Option.map_eq_some_iff.mp hOutcome
  have hEnds := @dropped_ends given 0 entry hEntry hDropped
  exact ⟨entry, hEntry, by decide, hDropped ▸ .dropped, hEnds.1, hEnds.2⟩

end Dropping

end SourceIndex.Embedding.OpenAi

/-! ## Contents -/

namespace SourceIndex.GitHub

open Http Http.Online

variable {service : GitHub} {url : String} {rounds : Rounds} {number : Nat} {entry : Entry}

theorem retryable_of_breaks {outcome : Outcome} (hBreaks : outcome.Breaks)
    (hGranted : ∀ head, outcome = .interrupted head → head.status.isSuccess = true) (url : Url) :
    Retryable (outcome.received url) := by
  cases hBreaks with
  | refused => exact .lost _
  | timedOut => exact .lost _
  | dropped => exact .lost _
  | interrupted head => exact .broken head _ (hGranted head rfl)

/-- **A break is followed by another attempt** when attempts are left, unless a
refusal had begun. -/
theorem fetches_again_after_break
    (hEntry : (rounds.ended .cancelled (service.judge url)).2.log[
      rounds.session.log.length + number]? = some entry)
    (hLeft : number < rounds.retries) (hBreaks : entry.outcome.Breaks)
    (hGranted : ∀ head, entry.outcome = .interrupted head → head.status.isSuccess = true) :
    ∃ seconds, PlansAnother rounds.session (rounds.ended .cancelled (service.judge url)).2
      number seconds := by
  obtain ⟨wait, last, hRun⟩ := Rounds.ended_run (judge_governs service url) hEntry
  obtain ⟨_, seconds, _, hPlans⟩ :=
    hRun.plans_another hEntry hLeft (retryable_of_breaks hBreaks hGranted)
  exact ⟨seconds, hPlans⟩

end SourceIndex.GitHub
