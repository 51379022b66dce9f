import SourceIndex.Proofs.Http.Events

/-!
# Worlds that do not look at secrets

A request carries a secret in one header.  Without this header it is
*anonymous*, and a world is *blind* when its answers are the same for requests
that are anonymously the same.  Two actions *match* when, from sessions that
are anonymously the same, they come to the same result and again to such
sessions: then nothing but that one header tells them apart.

Actions that send the same draft with two secrets match in every blind world,
as long as both secrets can be sent at all, and actions that are composed of
matching ones match.  So only the places in which a secret is used need a
proof of their own.

## Main results

* `Draft.Twins.prepare` — a secret decides nothing but its header.
* `Matching.bind`, `Matching.mapError`, `Matching.checkCancelled` — composed
  actions.
* `retry_matching` — attempts with two secrets, as often as they are repeated.
-/

namespace SourceIndex.Http

/-! ## Without secrets -/

/-- A request without the header that carries a secret. -/
def Request.anonymous (request : Request) : Request :=
  { request with headers := request.headers.filter (·.1 ≠ "authorization") }

def Entry.anonymous (entry : Entry) : Entry := { entry with request := entry.request.anonymous }

namespace Session

/-- A session whose requests are anonymous. -/
def anonymous (session : Session) : Session :=
  { session with log := session.log.map Entry.anonymous }

variable {session twin : Session}

/-- Sessions are anonymously the same in each of their parts. -/
theorem anonymous_eq_iff :
    session.anonymous = twin.anonymous ↔
      session.log.map Entry.anonymous = twin.log.map Entry.anonymous ∧
        session.waits = twin.waits ∧ session.cancelled = twin.cancelled := by
  unfold anonymous
  rw [Session.mk.injEq]

theorem sent_anonymous (session : Session) :
    session.anonymous.sent = session.sent.map Request.anonymous := by
  unfold sent anonymous
  rw [List.map_map, List.map_map]
  rfl

/-- What was sent is anonymously the same. -/
theorem sent_eq (h : session.anonymous = twin.anonymous) :
    session.sent.map Request.anonymous = twin.sent.map Request.anonymous := by
  rw [← sent_anonymous, h, sent_anonymous]

theorem cancelled_eq (h : session.anonymous = twin.anonymous) :
    session.cancelled = twin.cancelled :=
  (anonymous_eq_iff.mp h).2.2

end Session

/-- The answers of a world do not depend on secrets. -/
def World.Blind (world : World) : Prop :=
  ∀ (before earlier : List Request) (request other : Request),
    before.map Request.anonymous = earlier.map Request.anonymous →
    request.anonymous = other.anonymous →
    world.answer before request = world.answer earlier other

namespace Draft

/-- The same draft with another secret. -/
def withBearer (draft : Draft) (bearer : String) : Draft := { draft with bearer }

/-- A draft whose secret can be sent, and the same draft with another such
secret. -/
def Twins (draft twin : Draft) : Prop :=
  isHeaderValue draft.bearer = true ∧ isHeaderValue twin.bearer = true ∧
    twin = draft.withBearer twin.bearer

/-- **A secret that can be sent decides nothing but its header.** -/
theorem Twins.prepare {draft twin : Draft} (h : Twins draft twin) :
    (∃ failure, draft.prepare = .error failure ∧ twin.prepare = .error failure) ∨
      ∃ url request other, draft.prepare = .ok (url, request) ∧
        twin.prepare = .ok (url, other) ∧ request.anonymous = other.anonymous := by
  obtain ⟨hBearer, hOther, hTwin⟩ := h
  rw [hTwin]
  unfold Draft.prepare
  rw [show (draft.withBearer twin.bearer).url = draft.url from rfl,
    show (draft.withBearer twin.bearer).bearer = twin.bearer from rfl, hBearer, hOther]
  cases (Url.read? draft.url).map Url.withoutUser with
  | none => exact .inl ⟨_, rfl, rfl⟩
  | some url =>
      by_cases hHost : url.hasHost = true
      · by_cases hWeb : url.isWeb = true
        · simp only [hHost, hWeb, Bool.not_true, Bool.false_eq_true, if_false]
          refine .inr ⟨url, _, _, rfl, rfl, ?_⟩
          rfl
        · simp only [hHost, hWeb, Bool.not_true, Bool.not_false, Bool.false_eq_true, if_false,
            if_true]
          exact .inl ⟨_, rfl, rfl⟩
      · simp only [hHost, Bool.not_false, if_true]
        exact .inl ⟨_, rfl, rfl⟩

end Draft

/-! ## Matching actions -/

/-- From sessions that are anonymously the same, two actions come to the same
result, and to sessions that are so again. -/
def Mirrored {β : Type} (action twin : Session → β × Session) : Prop :=
  ∀ session other, session.anonymous = other.anonymous →
    (action session).1 = (twin other).1 ∧
      (action session).2.anonymous = (twin other).2.anonymous

namespace Online

variable {ε δ α β : Type}

/-- Two actions that may fail match. -/
abbrev Matching (action twin : Online ε α) : Prop :=
  Mirrored (fun session => action.run session) fun session => twin.run session

section Rules

variable {action twin : Online ε α} {rest others : α → Online ε β}

/-- A result that is known matches itself. -/
theorem Matching.ofExcept (result : Except ε α) :
    Matching (MonadExcept.ofExcept result : Online ε α) (MonadExcept.ofExcept result) := by
  intro session other hSame
  dsimp only
  rw [run_ofExcept, run_ofExcept]
  exact ⟨rfl, hSame⟩

theorem Matching.pure (value : α) :
    Matching (Pure.pure value : Online ε α) (Pure.pure value) :=
  Matching.ofExcept (.ok value)

/-- **What follows matching actions has to match for each result.** -/
theorem Matching.bind (h : Matching action twin)
    (hRest : ∀ value, Matching (rest value) (others value)) :
    Matching (action >>= rest) (twin >>= others) := by
  intro session other hSame
  dsimp only
  obtain ⟨hResult, hAfter⟩ := h session other hSame
  dsimp only at hResult hAfter
  rw [run_bind, run_bind]
  rcases hAction : action.run session with ⟨error | value, after⟩
  · rw [hAction] at hResult hAfter
    rcases hTwin : twin.run other with ⟨found, left⟩
    rw [hTwin] at hResult hAfter
    cases hResult
    exact ⟨rfl, hAfter⟩
  · rw [hAction] at hResult hAfter
    rcases hTwin : twin.run other with ⟨found, left⟩
    rw [hTwin] at hResult hAfter
    cases hResult
    exact hRest value after left hAfter

/-- Known values may differ, as long as what follows them matches. -/
theorem Matching.bind_ok {value other : α} (h : Matching (rest value) (others other)) :
    Matching (MonadExcept.ofExcept (.ok value) >>= rest)
      (MonadExcept.ofExcept (.ok other) >>= others) := by
  intro session mirror hSame
  dsimp only
  rw [run_bind, run_bind, run_ofExcept, run_ofExcept]
  exact h session mirror hSame

/-- Nothing follows a known error. -/
theorem Matching.bind_error (error : ε) :
    Matching (MonadExcept.ofExcept (.error error) >>= rest)
      (MonadExcept.ofExcept (.error error) >>= others) := by
  intro session mirror hSame
  dsimp only
  rw [run_bind, run_bind, run_ofExcept, run_ofExcept]
  exact ⟨rfl, hSame⟩

theorem Matching.mapError (convert : ε → δ) (h : Matching action twin) :
    Matching (mapError convert action) (mapError convert twin) := by
  intro session other hSame
  obtain ⟨hResult, hAfter⟩ := h session other hSame
  exact ⟨congrArg (Except.mapError convert) hResult, hAfter⟩

/-- Both runs have been cancelled, or neither. -/
theorem Matching.checkCancelled (cancelled : ε) {rest others : Unit → Online ε α}
    (h : Matching (rest ()) (others ())) :
    Matching (checkCancelled cancelled >>= rest) (checkCancelled cancelled >>= others) := by
  intro session other hSame
  dsimp only
  rw [run_checkCancelled, run_checkCancelled, Session.cancelled_eq hSame]
  cases other.cancelled with
  | true => exact ⟨rfl, hSame⟩
  | false => exact h session other hSame

end Rules

/-! ## Attempts -/

section Attempts

variable {world : World} {draft twin : Draft} {session other : Session}

/-- An attempt receives the same with another secret. -/
theorem attempted_matching (hBlind : world.Blind) (hTwins : draft.Twins twin) :
    Mirrored (attempted world draft) (attempted world twin) := by
  intro session other hSame
  unfold attempted
  rcases hTwins.prepare with
    ⟨failure, hDraft, hTwin⟩ | ⟨url, request, masked, hDraft, hTwin, hAlike⟩
  · rw [hDraft, hTwin]
    exact ⟨rfl, hSame⟩
  · rw [hDraft, hTwin]
    have hAnswer : world.answer session.sent request = world.answer other.sent masked :=
      hBlind _ _ _ _ (Session.sent_eq hSame) hAlike
    obtain ⟨hLog, hRest⟩ := Session.anonymous_eq_iff.mp hSame
    refine ⟨congrArg (Outcome.received url) hAnswer, Session.anonymous_eq_iff.mpr ⟨?_, hRest⟩⟩
    have hEntry : Entry.anonymous ⟨request, world.answer session.sent request⟩ =
        Entry.anonymous ⟨masked, world.answer other.sent masked⟩ := by
      rw [Entry.anonymous, Entry.anonymous, Entry.mk.injEq]
      exact ⟨hAlike, hAnswer⟩
    rw [List.map_append, List.map_append, hLog, List.map_singleton, List.map_singleton, hEntry]

theorem paused_matching (world : World) (seconds : Nat)
    (hSame : session.anonymous = other.anonymous) :
    (paused world seconds session).anonymous = (paused world seconds other).anonymous := by
  obtain ⟨hLog, hWaits, hCancelled⟩ := Session.anonymous_eq_iff.mp hSame
  refine Session.anonymous_eq_iff.mpr ⟨hLog, ?_, ?_⟩
  · exact congrArg (· ++ [seconds]) hWaits
  · unfold paused
    dsimp only
    rw [hWaits, hCancelled]

/-- **Attempts match as often as they are repeated.** -/
theorem retry_matching (hBlind : world.Blind) (hTwins : draft.Twins twin) (cancelled : ε)
    (judge : Nat → Received → Verdict ε α) (left number : Nat) :
    Matching (retry world cancelled draft judge left number)
      (retry world cancelled twin judge left number) := by
  induction left generalizing number with
  | zero =>
      intro session other hSame
      obtain ⟨hReceived, hAfter⟩ := attempted_matching hBlind hTwins session other hSame
      dsimp only
      rw [retry_zero_run, retry_zero_run, Session.cancelled_eq hSame, hReceived]
      cases other.cancelled with
      | true => exact ⟨rfl, hSame⟩
      | false => exact ⟨rfl, hAfter⟩
  | succ left ih =>
      intro session other hSame
      obtain ⟨hReceived, hAfter⟩ := attempted_matching hBlind hTwins session other hSame
      dsimp only
      rw [retry_succ_run, retry_succ_run, Session.cancelled_eq hSame, hReceived]
      cases other.cancelled with
      | true => exact ⟨rfl, hSame⟩
      | false =>
          cases (judge number (attempted world twin other).1).again with
          | none => exact ⟨rfl, hAfter⟩
          | some seconds =>
              have hPaused := paused_matching world seconds hAfter
              dsimp only
              rw [Session.cancelled_eq hPaused]
              cases (paused world seconds (attempted world twin other).2).cancelled with
              | true => exact ⟨rfl, hPaused⟩
              | false => exact ih (number + 1) _ _ hPaused

end Attempts

end Online

end SourceIndex.Http
