import SourceIndex.Http.Session

/-!
# Attempts and retries

What the steps of a session do to it, as equations of their runs, and from
them what a whole run of retries can end with: the cancellation of the run, or
the final result of some attempt.  The world is arbitrary throughout, so each
statement covers every server.

## Main results

* `run_checkCancelled`, `run_attempt`, `run_pause` — one step, and what is done
  after it.
* `retry_zero_run`, `retry_succ_run` — one round of retries.
* `retry_ends` — how a run of retries can end.
* `retry_first` — a first attempt after which nothing else is worth while.
-/

namespace SourceIndex.Http.Online

variable {ε α β : Type}

/-- What is done in a session goes on in the session that is left, unless it
has failed. -/
theorem run_bind (first : Online ε α) (second : α → Online ε β) (session : Session) :
    (first >>= second).run session =
      match first.run session with
      | (.ok value, after) => (second value).run after
      | (.error error, after) => (.error error, after) := by
  show ExceptT.bindCont second (first.run session).1 (first.run session).2 = _
  rcases first.run session with ⟨_ | value, after⟩
  · rfl
  · rfl

theorem run_ofExcept (result : Except ε α) (session : Session) :
    (MonadExcept.ofExcept result : Online ε α).run session = (result, session) := by
  cases result with
  | error error => rfl
  | ok value => rfl

/-! ## Steps -/

theorem run_checkCancelled (cancelled : ε) (rest : Unit → Online ε α) (session : Session) :
    (checkCancelled cancelled >>= rest).run session =
      if session.cancelled then (.error cancelled, session) else (rest ()).run session := by
  have hCheck : (checkCancelled cancelled).run session =
      (if session.cancelled then (throw cancelled : Online ε Unit) else pure ()).run session := rfl
  rw [run_bind, hCheck]
  cases session.cancelled with
  | true => rfl
  | false => rfl

/-- What an attempt receives, and the session after it. -/
def attempted (world : World) (draft : Draft) (session : Session) : Received × Session :=
  match draft.prepare with
  | .error failure => (.nothing failure, session)
  | .ok (url, request) =>
      let outcome := world.answer session.sent request
      (outcome.received url, { session with log := session.log ++ [⟨request, outcome⟩] })

theorem run_attempt (world : World) (draft : Draft) (rest : Received → Online ε α)
    (session : Session) :
    (attempt world draft >>= rest).run session =
      (rest (attempted world draft session).1).run (attempted world draft session).2 := by
  rw [run_bind]
  unfold attempt attempted
  cases draft.prepare with
  | error failure => rfl
  | ok prepared => rfl

theorem attempted_cancelled (world : World) (draft : Draft) (session : Session) :
    (attempted world draft session).2.cancelled = session.cancelled := by
  unfold attempted
  cases draft.prepare with
  | error failure => rfl
  | ok prepared => rfl

/-- The session after a wait. -/
def paused (world : World) (seconds : Nat) (session : Session) : Session :=
  { session with
    waits := session.waits ++ [seconds]
    cancelled := session.cancelled || world.interrupts session.waits seconds }

theorem run_pause (world : World) (cancelled : ε) (seconds : Nat) (rest : Unit → Online ε α)
    (session : Session) :
    (pause world cancelled seconds >>= rest).run session =
      if (paused world seconds session).cancelled then
        (.error cancelled, paused world seconds session)
      else (rest ()).run (paused world seconds session) :=
  run_checkCancelled cancelled rest (paused world seconds session)

/-! ## Rounds -/

variable (world : World) (cancelled : ε) (draft : Draft) (judge : Nat → Received → Verdict ε α)

/-- The last round is one attempt. -/
theorem retry_zero_run (number : Nat) (session : Session) :
    (retry world cancelled draft judge 0 number).run session =
      if session.cancelled then (.error cancelled, session)
      else
        ((judge number (attempted world draft session).1).final,
          (attempted world draft session).2) := by
  rw [retry, run_checkCancelled, run_attempt, run_ofExcept]

/-- Another round is an attempt and, where trying again is worth while, a wait
and the rounds after it. -/
theorem retry_succ_run (left number : Nat) (session : Session) :
    (retry world cancelled draft judge (left + 1) number).run session =
      if session.cancelled then (.error cancelled, session)
      else
        match (judge number (attempted world draft session).1).again with
        | some seconds =>
            if (paused world seconds (attempted world draft session).2).cancelled then
              (.error cancelled, paused world seconds (attempted world draft session).2)
            else
              (retry world cancelled draft judge left (number + 1)).run
                (paused world seconds (attempted world draft session).2)
        | none =>
            ((judge number (attempted world draft session).1).final,
              (attempted world draft session).2) := by
  rw [retry, run_checkCancelled, run_attempt]
  dsimp only
  cases (judge number (attempted world draft session).1).again with
  | none => rw [run_ofExcept]
  | some seconds => rw [run_pause]

/--
**How a run of retries can end**: the run is cancelled, and so is the session,
or the result is the final one of some attempt.
-/
theorem retry_ends (left : Nat) :
    ∀ (number : Nat) (session : Session),
      (((retry world cancelled draft judge left number).run session).1 = .error cancelled ∧
          ((retry world cancelled draft judge left number).run session).2.cancelled = true) ∨
        ∃ attempt received,
          ((retry world cancelled draft judge left number).run session).1 =
            (judge attempt received).final := by
  induction left with
  | zero =>
      intro number session
      rw [retry_zero_run]
      split
      · next hCancelled => exact .inl ⟨rfl, hCancelled⟩
      · exact .inr ⟨number, _, rfl⟩
  | succ left ih =>
      intro number session
      rw [retry_succ_run]
      split
      · next hCancelled => exact .inl ⟨rfl, hCancelled⟩
      · split
        · next seconds _ =>
            split
            · next hCancelled => exact .inl ⟨rfl, hCancelled⟩
            · exact ih (number + 1) (paused world seconds (attempted world draft session).2)
        · exact .inr ⟨number, _, rfl⟩

/-- A first attempt after which no other one is worth while decides the
result. -/
theorem retry_first (left : Nat) {session : Session} (hRunning : session.cancelled = false)
    (hFinal : (judge 0 (attempted world draft session).1).again = none) :
    (retry world cancelled draft judge left 0).run session =
      ((judge 0 (attempted world draft session).1).final, (attempted world draft session).2) := by
  cases left with
  | zero =>
      rw [retry_zero_run, hRunning]
      rfl
  | succ left =>
      rw [retry_succ_run, hRunning, hFinal]
      rfl

/-- A run that has been cancelled already sends nothing. -/
theorem retry_cancelled (left : Nat) {number : Nat} {session : Session}
    (hCancelled : session.cancelled = true) :
    (retry world cancelled draft judge left number).run session = (.error cancelled, session) := by
  cases left with
  | zero => rw [retry_zero_run, if_pos hCancelled]
  | succ left => rw [retry_succ_run, if_pos hCancelled]

end SourceIndex.Http.Online
