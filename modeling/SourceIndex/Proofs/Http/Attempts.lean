import SourceIndex.Proofs.Http.Events

/-!
# The events of retried requests

A retried request is a row of attempts, each but the last followed by the wait
that it asks for.  An attempt is one request, or nothing when its draft cannot
be sent at all.

`Retries` follows the rounds of `retry` one by one and says everything about
its events and its result; what callers need of it is drawn from it by
induction.

## Main results

* `retry_acts` — the events of a retried request.
* `Retries.asks` — all its requests are those of its draft, they are not more
  than allowed, and each wait follows an attempt that asks for it.
-/

namespace SourceIndex.Http.Online

variable {ε α : Type}

/-- The events of one attempt, and what it receives. -/
inductive Attempts (draft : Draft) : List Event → Received → Prop where
  | unusable {failure : Failure} : draft.prepare = .error failure →
      Attempts draft [] (.nothing failure)
  | sent {url : Url} {request : Request} (outcome : Outcome) :
      draft.prepare = .ok (url, request) →
      Attempts draft [.sent ⟨request, outcome⟩] (outcome.received url)

/-- The events of a request from the attempt with the given number on, with
some attempts left after it, and the result. -/
inductive Retries (cancelled : ε) (draft : Draft) (judge : Nat → Received → Verdict ε α) :
    (left number : Nat) → List Event → Except ε α → Prop where
  | stopped {left number : Nat} : Retries cancelled draft judge left number [] (.error cancelled)
  | last {left number : Nat} {events : List Event} {received : Received} :
      Attempts draft events received → (left = 0 ∨ (judge number received).again = none) →
      Retries cancelled draft judge left number events (judge number received).final
  | again {left number seconds : Nat} {events later : List Event} {received : Received}
      {result : Except ε α} :
      Attempts draft events received → (judge number received).again = some seconds →
      Retries cancelled draft judge left (number + 1) later result →
      Retries cancelled draft judge (left + 1) number (events ++ .waited seconds :: later) result

/-! ## Attempts -/

section Attempt

variable (world : World) (draft : Draft) {session : Session}

/-- What an attempt does in a session that goes on. -/
structure Attempted (world : World) (draft : Draft) (session : Session)
    (events : List Event) : Prop where
  attempts : Attempts draft events (attempted world draft session).1
  after : (attempted world draft session).2 = session.after world events
  live : session.Live world events
  told : Agrees world world session session events
  replayed : ∀ other mirror, Agrees world other session mirror events →
    attempted other draft mirror =
      ((attempted world draft session).1, mirror.after other events)

theorem attempted_events (hRunning : session.cancelled = false) :
    ∃ events, Attempted world draft session events := by
  cases hPrepare : draft.prepare with
  | error failure =>
      have hRun : ∀ world session, attempted world draft session = (.nothing failure, session) := by
        intro world session
        rw [attempted, hPrepare]
      refine ⟨[], ⟨?_, ?_, trivial, trivial, ?_⟩⟩
      · rw [hRun]
        exact .unusable hPrepare
      · rw [hRun]
        rfl
      · intro other mirror _
        rw [hRun, hRun]
        rfl
  | ok prepared =>
      obtain ⟨url, request⟩ := prepared
      have hRun : ∀ (world : World) (session : Session), attempted world draft session =
          ((world.answer session.sent request).received url,
            session.step world (.sent ⟨request, world.answer session.sent request⟩)) := by
        intro world session
        rw [attempted, hPrepare]
        rfl
      refine ⟨[.sent ⟨request, world.answer session.sent request⟩],
        ⟨?_, ?_, ⟨hRunning, trivial⟩, ⟨rfl, trivial⟩, ?_⟩⟩
      · rw [hRun]
        exact .sent _ hPrepare
      · rw [hRun]
        rfl
      · intro other mirror hAgrees
        have hAnswer : other.answer mirror.sent request = world.answer session.sent request :=
          hAgrees.1
        rw [hRun, hRun, hAnswer]
        rfl

end Attempt

/-- A request asks as its draft does, with the headers of its draft at the
end. -/
theorem request_of_prepare {draft : Draft} {url : Url} {request : Request}
    (h : draft.prepare = .ok (url, request)) :
    request.method = draft.method ∧
      request.headers = ("user-agent", Draft.userAgent) ::
        ("authorization", "Bearer " ++ draft.bearer) :: draft.headers := by
  unfold Draft.prepare at h
  split at h
  · cases h
  · split at h
    · cases h
    · split at h
      · cases h
      · split at h
        · cases h
        · cases h
          exact ⟨rfl, rfl⟩

/-- A request goes where its draft points to, on the web. -/
theorem url_of_prepare {draft : Draft} {url : Url} {request : Request}
    (h : draft.prepare = .ok (url, request)) :
    ∃ whole, Url.read? draft.url = some whole ∧ whole.withoutUser.isWeb = true ∧
      request.url = whole.withoutUser.withoutFragment := by
  unfold Draft.prepare at h
  split at h
  · cases h
  · next found hFound =>
      obtain ⟨whole, hWhole, rfl⟩ := Option.map_eq_some_iff.mp hFound
      split at h
      · cases h
      · split at h
        · cases h
        · split at h
          · cases h
          · next hWeb =>
              cases h
              exact ⟨whole, hWhole, by simpa using hWeb, rfl⟩

/-! ## Rounds -/

section Rounds

variable (cancelled : ε) (draft : Draft) (judge : Nat → Received → Verdict ε α)

/-- The retries from an attempt on do some events in a session. -/
def Retrying (left number : Nat) (world : World) (session : Session)
    (events : List Event) : Prop :=
  Does (· = .error cancelled)
      (fun world session => (retry world cancelled draft judge left number).run session) world
      session events ∧
    Retries cancelled draft judge left number events
      ((retry world cancelled draft judge left number).run session).1

variable {cancelled draft judge}

/-- A cancelled session ends retries before they begin. -/
theorem Retrying.nil (world : World) (left number : Nat) {session : Session}
    (hCancelled : session.cancelled = true) :
    Retrying cancelled draft judge left number world session [] := by
  have hRun : ∀ (world : World) {session : Session}, session.cancelled = true →
      (retry world cancelled draft judge left number).run session = (.error cancelled, session) :=
    fun world _ h => retry_cancelled world cancelled draft judge left h
  refine ⟨⟨congrArg Prod.snd (hRun world hCancelled), trivial, trivial, ?_, ?_⟩, ?_⟩
  · exact fun _ _ => congrArg Prod.fst (hRun world hCancelled)
  · intro other mirror hMirror _
    rw [hRun world hCancelled, hRun other (hMirror.trans hCancelled)]
    rfl
  · rw [hRun world hCancelled]
    exact .stopped

/-- The last attempt of a request. -/
theorem Retrying.last {world : World} {left number : Nat} {session : Session}
    {events : List Event} (hRunning : session.cancelled = false)
    (hAttempted : Attempted world draft session events)
    (hLast : left = 0 ∨ (judge number (attempted world draft session).1).again = none) :
    Retrying cancelled draft judge left number world session events := by
  have hRun : ∀ (world : World) {session : Session} {received : Received} {after : Session},
      session.cancelled = false → attempted world draft session = (received, after) →
      (left = 0 ∨ (judge number received).again = none) →
      (retry world cancelled draft judge left number).run session =
        ((judge number received).final, after) := by
    intro world session received after hSession hReceived hEnd
    cases left with
    | zero =>
        rw [retry_zero_run, hSession, hReceived]
        rfl
    | succ left =>
        have hAgain : (judge number received).again = none := hEnd.resolve_left (by omega)
        rw [retry_succ_run, hSession, hReceived, hAgain]
        rfl
  have hPair : attempted world draft session =
      ((attempted world draft session).1, session.after world events) :=
    Prod.ext rfl hAttempted.after
  have hOwn := hRun world hRunning hPair hLast
  refine ⟨⟨congrArg Prod.snd hOwn, hAttempted.live, hAttempted.told, ?_, ?_⟩, ?_⟩
  · intro _ hCancelled
    rw [← hAttempted.after, attempted_cancelled, hRunning] at hCancelled
    cases hCancelled
  · intro other mirror hMirror hAgrees
    rw [hOwn]
    exact hRun other (hMirror.trans hRunning) (hAttempted.replayed other mirror hAgrees) hLast
  · rw [hOwn]
    exact .last hAttempted.attempts hLast

/-- An attempt, the wait that it asks for, and what is done after it. -/
theorem Retrying.again {world : World} {left number seconds : Nat} {session : Session}
    {events later : List Event} (hRunning : session.cancelled = false)
    (hAttempted : Attempted world draft session events)
    (hAgain : (judge number (attempted world draft session).1).again = some seconds)
    (hRetrying : Retrying cancelled draft judge left (number + 1) world
      (session.after world (events ++ [.waited seconds])) later) :
    Retrying cancelled draft judge (left + 1) number world session
      (events ++ .waited seconds :: later) := by
  obtain ⟨hLater, hHistory⟩ := hRetrying
  have hJoin : events ++ .waited seconds :: later = (events ++ [.waited seconds]) ++ later := by
    rw [List.append_assoc]
    rfl
  -- A wait that is interrupted ends the retries, and so does the round after it.
  have hRun : ∀ (world : World) {session : Session} {received : Received} {after : Session},
      session.cancelled = false → attempted world draft session = (received, after) →
      (judge number received).again = some seconds →
      (retry world cancelled draft judge (left + 1) number).run session =
        (retry world cancelled draft judge left (number + 1)).run
          (after.step world (.waited seconds)) := by
    intro world session received after hSession hReceived hWait
    rw [retry_succ_run, hSession, hReceived, hWait]
    dsimp only
    rw [if_neg Bool.false_ne_true]
    split
    · next hCancelled => exact (retry_cancelled world cancelled draft judge left hCancelled).symm
    · rfl
  have hPair : attempted world draft session =
      ((attempted world draft session).1, session.after world events) :=
    Prod.ext rfl hAttempted.after
  have hStep : ∀ (world : World) (session : Session),
      (session.after world events).step world (.waited seconds) =
        session.after world (events ++ [.waited seconds]) := by
    intro world session
    rw [Session.after_append]
    rfl
  have hOwn := hRun world hRunning hPair hAgain
  rw [hStep] at hOwn
  have hSame : (session.after world events).cancelled = false := by
    rw [← hAttempted.after, attempted_cancelled, hRunning]
  refine ⟨⟨?_, ?_, ?_, ?_, ?_⟩, ?_⟩
  · rw [hOwn, hLater.after, ← Session.after_append, ← hJoin]
  · rw [hJoin, Session.live_append, Session.live_append]
    exact ⟨⟨hAttempted.live, hSame, trivial⟩, hLater.live⟩
  · rw [hJoin, agrees_append, agrees_append]
    exact ⟨⟨hAttempted.told, rfl, trivial⟩, hLater.told⟩
  · intro _ hCancelled
    rw [hJoin, Session.after_append] at hCancelled
    rw [hOwn]
    cases hWait : (session.after world (events ++ [.waited seconds])).cancelled with
    | true => rw [retry_cancelled world cancelled draft judge left hWait]
    | false => exact hLater.stopped hWait hCancelled
  · intro other mirror hMirror hAgrees
    rw [hJoin, agrees_append] at hAgrees
    have hFirst := hAttempted.replayed other mirror (agrees_append.mp hAgrees.1).1
    have hOther := hRun other (hMirror.trans hRunning) hFirst hAgain
    rw [hStep] at hOther
    rw [hOwn, hOther, hJoin, Session.after_append (events ++ [Event.waited seconds])]
    exact hLater.replayed other _ (hAgrees.1.cancelled_after hMirror) hAgrees.2
  · rw [hOwn]
    exact .again hAttempted.attempts hAgain hHistory

/-- **The events of a retried request.** -/
theorem retry_acts (left : Nat) :
    ∀ number, Acts cancelled (fun world => retry world cancelled draft judge left number)
      (Retries cancelled draft judge left number) := by
  induction left with
  | zero =>
      intro number world session
      cases hSession : session.cancelled with
      | true => exact ⟨[], Retrying.nil world 0 number hSession⟩
      | false =>
          obtain ⟨events, hAttempted⟩ := attempted_events world draft hSession
          exact ⟨events, Retrying.last hSession hAttempted (.inl rfl)⟩
  | succ left ih =>
      intro number world session
      cases hSession : session.cancelled with
      | true => exact ⟨[], Retrying.nil world (left + 1) number hSession⟩
      | false =>
          obtain ⟨events, hAttempted⟩ := attempted_events world draft hSession
          cases hAgain : (judge number (attempted world draft session).1).again with
          | none => exact ⟨events, Retrying.last hSession hAttempted (.inr hAgain)⟩
          | some seconds =>
              obtain ⟨later, hLater⟩ :=
                ih (number + 1) world (session.after world (events ++ [.waited seconds]))
              exact ⟨_, Retrying.again hSession hAttempted hAgain hLater⟩

end Rounds

/-! ## What a request asks -/

/-- The events of a request whose draft may be tried some times again.  How
long to wait before another attempt is told by the number of an attempt and
what it received. -/
structure Asks (draft : Draft) (again : Nat → Received → Option Nat) (retries : Nat)
    (events : List Event) : Prop where
  /-- Nothing but the draft is sent. -/
  drafted : ∀ entry ∈ entries events, ∃ url, draft.prepare = .ok (url, entry.request)
  count : (entries events).length ≤ retries + 1
  /-- Each wait comes right after the attempt that asks for it. -/
  waits : ∀ earlier seconds later, events = earlier ++ .waited seconds :: later →
    ∃ before attempt received number, earlier = before ++ attempt ∧
      Attempts draft attempt received ∧ again number received = some seconds

section Asking

variable {cancelled : ε} {draft : Draft} {judge : Nat → Received → Verdict ε α}
  {left number : Nat} {events : List Event} {received : Received} {result : Except ε α}

/-- An attempt is at most one request, of its draft. -/
theorem Attempts.entries (h : Attempts draft events received) :
    (entries events).length ≤ 1 ∧
      ∀ entry ∈ Http.entries events, ∃ url, draft.prepare = .ok (url, entry.request) := by
  cases h with
  | unusable _ => exact ⟨Nat.zero_le 1, fun _ hMem => absurd hMem List.not_mem_nil⟩
  | sent outcome hPrepare =>
      refine ⟨Nat.le_refl 1, ?_⟩
      intro entry hEntry
      obtain rfl := List.mem_singleton.mp hEntry
      exact ⟨_, hPrepare⟩

/-- An attempt waits for nothing. -/
theorem Attempts.no_wait (h : Attempts draft events received) (seconds : Nat) :
    .waited seconds ∉ events := by
  intro hMem
  cases h with
  | unusable _ => cases hMem
  | sent outcome _ => cases List.mem_singleton.mp hMem

theorem Attempts.asks (h : Attempts draft events received)
    (again : Nat → Received → Option Nat) (retries : Nat) : Asks draft again retries events := by
  refine ⟨h.entries.2, Nat.le_trans h.entries.1 (Nat.le_add_left 1 retries), ?_⟩
  rintro earlier seconds later rfl
  exact absurd (List.mem_append_right earlier List.mem_cons_self) (h.no_wait seconds)

theorem Asks.nil (draft : Draft) (again : Nat → Received → Option Nat) (retries : Nat) :
    Asks draft again retries [] := by
  refine ⟨fun _ hMem => absurd hMem List.not_mem_nil, Nat.zero_le _, ?_⟩
  intro earlier seconds later hEvents
  have hLength := congrArg List.length hEvents
  rw [List.length_append, List.length_cons, List.length_nil] at hLength
  omega

/-- An attempt and the wait that it asks for come before the others. -/
theorem Asks.cons {again : Nat → Received → Option Nat} {retries seconds : Nat}
    {later : List Event} (hLater : Asks draft again retries later)
    (hAttempt : Attempts draft events received) (hAgain : again number received = some seconds) :
    Asks draft again (retries + 1) (events ++ .waited seconds :: later) := by
  have hEntries : entries (events ++ .waited seconds :: later) =
      entries events ++ entries later := by
    rw [entries_append, entries_waited]
  refine ⟨?_, ?_, ?_⟩
  · rw [hEntries]
    intro entry hEntry
    rcases List.mem_append.mp hEntry with hHere | hThere
    · exact hAttempt.entries.2 entry hHere
    · exact hLater.drafted entry hThere
  · rw [hEntries, List.length_append]
    have hOne := hAttempt.entries.1
    have hRest := hLater.count
    omega
  · intro earlier found rest hEvents
    rcases List.append_eq_append_iff.mp hEvents with ⟨middle, rfl, hMiddle⟩ | ⟨middle, rfl, hMiddle⟩
    · cases middle with
      | nil =>
          obtain ⟨rfl, rfl⟩ : seconds = found ∧ later = rest := by simpa using hMiddle
          exact ⟨[], events, received, number, by simp, hAttempt, hAgain⟩
      | cons event middle =>
          obtain ⟨rfl, hSplit⟩ : .waited seconds = event ∧
              later = middle ++ .waited found :: rest := by simpa using hMiddle
          obtain ⟨before, attempt, other, position, rfl, hOther, hAsked⟩ :=
            hLater.waits middle found rest hSplit
          exact ⟨events ++ .waited seconds :: before, attempt, other, position, by simp, hOther,
            hAsked⟩
    · -- The attempt itself holds no wait, so this one is the wait after it.
      cases middle with
      | nil =>
          obtain ⟨rfl, rfl⟩ : found = seconds ∧ rest = later := by simpa using hMiddle
          rw [List.append_nil] at hAttempt
          exact ⟨[], earlier, received, number, rfl, hAttempt, hAgain⟩
      | cons event middle =>
          obtain ⟨rfl, _⟩ : .waited found = event ∧ rest = middle ++ .waited seconds :: later := by
            simpa using hMiddle
          exact absurd (List.mem_append_right earlier List.mem_cons_self) (hAttempt.no_wait found)

/-- **What a retried request asks.** -/
theorem Retries.asks (h : Retries cancelled draft judge left number events result) :
    Asks draft (fun number received => (judge number received).again) left events := by
  induction h with
  | stopped => exact .nil _ _ _
  | last hAttempt _ => exact hAttempt.asks _ _
  | again hAttempt hAgain _ ih => exact ih.cons hAttempt hAgain

end Asking

end SourceIndex.Http.Online
