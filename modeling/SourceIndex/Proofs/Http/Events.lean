import SourceIndex.Proofs.Http.Retry

/-!
# What is done in a session

A session keeps what was sent and what was waited for in two lists, so it does
not tell in which order the one came after the other.  Here the two are joined
again: an action of a session *does* a list of events, and the session after
it is the one before with these events applied.

Two facts about the events of an action carry what is proved of whole runs.
Each event happens while the session is not cancelled, so the wait that ends
with the cancellation of a run is its last event.  And the world is asked
nothing but what the events tell: another world that acts alike along the
events gets the same result and the same events.

## Main results

* `Session.log_after`, `Session.waits_after` — events are what a session gains.
* `Does.last_of_interrupted` — nothing follows the wait that was interrupted.
* `Acts.ofExcept`, `Acts.bind`, `Acts.mapError` — the events of composed actions.
-/

namespace SourceIndex.Http

/-- What is done in a session. -/
inductive Event where
  /-- A request is sent, and this becomes of it. -/
  | sent (entry : Entry)
  /-- A wait between two attempts begins. -/
  | waited (seconds : Nat)
deriving Repr, DecidableEq

namespace Event

/-- What was sent. -/
def entry? : Event → Option Entry
  | sent entry => some entry
  | waited _ => none

/-- The seconds of a wait. -/
def seconds? : Event → Option Nat
  | sent _ => none
  | waited seconds => some seconds

end Event

/-- What was sent, in its order. -/
def entries (events : List Event) : List Entry := events.filterMap Event.entry?

/-- The waits, in their order. -/
def waits (events : List Event) : List Nat := events.filterMap Event.seconds?

theorem entries_append (first second : List Event) :
    entries (first ++ second) = entries first ++ entries second :=
  List.filterMap_append

theorem entries_sent (entry : Entry) (events : List Event) :
    entries (.sent entry :: events) = entry :: entries events := rfl

theorem entries_waited (seconds : Nat) (events : List Event) :
    entries (.waited seconds :: events) = entries events := rfl

theorem mem_entries {entry : Entry} {events : List Event} :
    entry ∈ entries events ↔ .sent entry ∈ events := by
  rw [entries, List.mem_filterMap]
  constructor
  · rintro ⟨event, hEvent, hEntry⟩
    cases event with
    | sent found =>
        obtain rfl : found = entry := Option.some.inj hEntry
        exact hEvent
    | waited seconds => cases hEntry
  · exact fun h => ⟨_, h, rfl⟩

theorem waits_append (first second : List Event) :
    waits (first ++ second) = waits first ++ waits second :=
  List.filterMap_append

/-! ## Sessions after events -/

namespace Session

/-- The session after an event. -/
def step (world : World) (session : Session) : Event → Session
  | .sent entry => { session with log := session.log ++ [entry] }
  | .waited seconds => Online.paused world seconds session

/-- The session after some events. -/
def after (world : World) (session : Session) (events : List Event) : Session :=
  events.foldl (step world) session

/-- Each of some events happens while the session is not cancelled. -/
def Live (world : World) : Session → List Event → Prop
  | _, [] => True
  | session, event :: rest => session.cancelled = false ∧ Live world (session.step world event) rest

variable {world : World} {session : Session}

theorem after_append (first second : List Event) :
    session.after world (first ++ second) = (session.after world first).after world second :=
  List.foldl_append

theorem after_cons (event : Event) (rest : List Event) :
    session.after world (event :: rest) = (session.step world event).after world rest := rfl

/-- **The requests among some events are what the log gains.** -/
theorem log_after (events : List Event) :
    (session.after world events).log = session.log ++ entries events := by
  induction events generalizing session with
  | nil => exact (List.append_nil _).symm
  | cons event rest ih =>
      rw [after_cons, ih]
      cases event with
      | sent entry => exact List.append_assoc _ _ _
      | waited seconds => rfl

/-- **The waits among some events are those that the session gains.** -/
theorem waits_after (events : List Event) :
    (session.after world events).waits = session.waits ++ Http.waits events := by
  induction events generalizing session with
  | nil => exact (List.append_nil _).symm
  | cons event rest ih =>
      rw [after_cons, ih]
      cases event with
      | sent entry => rfl
      | waited seconds => exact List.append_assoc _ _ _

theorem sent_after (events : List Event) :
    (session.after world events).sent = session.sent ++ (entries events).map (·.request) := by
  rw [sent, sent, log_after, List.map_append]

/-- A cancelled session stays so. -/
theorem cancelled_after (events : List Event) (h : session.cancelled = true) :
    (session.after world events).cancelled = true := by
  induction events generalizing session with
  | nil => exact h
  | cons event rest ih =>
      rw [after_cons]
      apply ih
      cases event with
      | sent entry => exact h
      | waited seconds =>
          show (session.cancelled || world.interrupts session.waits seconds) = true
          rw [h, Bool.true_or]

theorem live_cons {event : Event} {rest : List Event} :
    session.Live world (event :: rest) ↔
      session.cancelled = false ∧ (session.step world event).Live world rest := Iff.rfl

theorem live_append {first second : List Event} :
    session.Live world (first ++ second) ↔
      session.Live world first ∧ (session.after world first).Live world second := by
  induction first generalizing session with
  | nil => exact ⟨fun h => ⟨trivial, h⟩, fun h => h.2⟩
  | cons event rest ih =>
      rw [List.cons_append, live_cons, live_cons, ih, after_cons, and_assoc]

/-- In a cancelled session nothing happens. -/
theorem Live.eq_nil {events : List Event} (h : session.Live world events)
    (hCancelled : session.cancelled = true) : events = [] := by
  cases events with
  | nil => rfl
  | cons event rest =>
      have hRunning := h.1
      rw [hCancelled] at hRunning
      cases hRunning

/-- **Nothing follows a wait that is interrupted.** -/
theorem Live.last_of_interrupted {earlier later : List Event} {seconds : Nat}
    (h : session.Live world (earlier ++ .waited seconds :: later))
    (hInterrupted : world.interrupts (session.after world earlier).waits seconds = true) :
    later = [] := by
  rw [live_append, live_cons] at h
  apply h.2.2.eq_nil
  show ((session.after world earlier).cancelled ||
    world.interrupts (session.after world earlier).waits seconds) = true
  rw [hInterrupted, Bool.or_true]

end Session

/-! ## Worlds that act alike -/

/-- Another world does what came of an event in a session, in a session of its
own. -/
def Alike (world other : World) (session mirror : Session) : Event → Prop
  | .sent entry => other.answer mirror.sent entry.request = entry.outcome
  | .waited seconds =>
      other.interrupts mirror.waits seconds = world.interrupts session.waits seconds

/-- Another world does what came of some events, one after the other. -/
def Agrees (world other : World) : Session → Session → List Event → Prop
  | _, _, [] => True
  | session, mirror, event :: rest =>
      Alike world other session mirror event ∧
        Agrees world other (session.step world event) (mirror.step other event) rest

section Agreement

variable {world other : World} {session mirror : Session}

theorem agrees_cons {event : Event} {rest : List Event} :
    Agrees world other session mirror (event :: rest) ↔
      Alike world other session mirror event ∧
        Agrees world other (session.step world event) (mirror.step other event) rest := Iff.rfl

theorem agrees_append {first second : List Event} :
    Agrees world other session mirror (first ++ second) ↔
      Agrees world other session mirror first ∧
        Agrees world other (session.after world first) (mirror.after other first) second := by
  induction first generalizing session mirror with
  | nil => exact ⟨fun h => ⟨trivial, h⟩, fun h => h.2⟩
  | cons event rest ih =>
      rw [List.cons_append, agrees_cons, agrees_cons, ih, Session.after_cons, Session.after_cons,
        and_assoc]

theorem Alike.cancelled_step {event : Event} (h : Alike world other session mirror event)
    (hCancelled : mirror.cancelled = session.cancelled) :
    (mirror.step other event).cancelled = (session.step world event).cancelled := by
  cases event with
  | sent entry => exact hCancelled
  | waited seconds =>
      show (mirror.cancelled || other.interrupts mirror.waits seconds) =
        (session.cancelled || world.interrupts session.waits seconds)
      rw [hCancelled, show other.interrupts _ _ = _ from h]

/-- Worlds that act alike cancel a run at the same moment. -/
theorem Agrees.cancelled_after {events : List Event}
    (h : Agrees world other session mirror events)
    (hCancelled : mirror.cancelled = session.cancelled) :
    (mirror.after other events).cancelled = (session.after world events).cancelled := by
  induction events generalizing session mirror with
  | nil => exact hCancelled
  | cons event rest ih =>
      rw [Session.after_cons, Session.after_cons]
      exact ih h.2 (h.1.cancelled_step hCancelled)

end Agreement

/-! ## What actions do -/

/-- What an action does in a session of a world. -/
structure Does {β : Type} (Stopped : β → Prop) (action : World → Session → β × Session)
    (world : World) (session : Session) (events : List Event) : Prop where
  after : (action world session).2 = session.after world events
  live : session.Live world events
  /-- The events tell what came of each request. -/
  told : Agrees world world session session events
  /-- An action during which the run is cancelled has a result that says so. -/
  stopped : session.cancelled = false → (session.after world events).cancelled = true →
    Stopped (action world session).1
  /-- Nothing but its events depends on the world. -/
  replayed : ∀ other mirror, mirror.cancelled = session.cancelled →
    Agrees world other session mirror events →
      action other mirror = ((action world session).1, mirror.after other events)

/-- An action that leaves the session as it is does nothing. -/
theorem Does.nothing {β : Type} {Stopped : β → Prop} {action : World → Session → β × Session}
    (result : Bool → β)
    (h : ∀ world session, action world session = (result session.cancelled, session))
    (world : World) (session : Session) : Does Stopped action world session [] := by
  refine ⟨congrArg Prod.snd (h world session), trivial, trivial, ?_, ?_⟩
  · intro hRunning hCancelled
    rw [show session.after world [] = session from rfl, hRunning] at hCancelled
    cases hCancelled
  · intro other mirror hMirror _
    rw [h, h, hMirror]
    rfl

/-- A session that is not cancelled after an action was not cancelled before it. -/
theorem Does.running {β : Type} {Stopped : β → Prop} {action : World → Session → β × Session}
    {world : World} {session : Session} {events : List Event}
    (h : Does Stopped action world session events)
    (hAfter : (action world session).2.cancelled = false) : session.cancelled = false := by
  cases hSession : session.cancelled with
  | false => rfl
  | true =>
      rw [h.after, Session.cancelled_after events hSession] at hAfter
      cases hAfter

/-- In every world and session an action does some events, which with its
result are such as `History` says. -/
def Acts {β : Type} (Stopped : β → Prop) (action : World → Session → β × Session)
    (History : List Event → β → Prop) : Prop :=
  ∀ world session, ∃ events,
    Does Stopped action world session events ∧ History events (action world session).1

/-- What is known about the events of an action may be weakened. -/
theorem Acts.mono {β : Type} {Stopped : β → Prop} {action : World → Session → β × Session}
    {History Weaker : List Event → β → Prop} (h : Acts Stopped action History)
    (hWeaker : ∀ events result, History events result → Weaker events result) :
    Acts Stopped action Weaker := by
  intro world session
  obtain ⟨events, hDoes, hHistory⟩ := h world session
  exact ⟨events, hDoes, hWeaker _ _ hHistory⟩

/-- An action leaves in the log what is there and adds its own requests. -/
theorem Acts.log_isPrefix {β : Type} {Stopped : β → Prop} {action : World → Session → β × Session}
    {History : List Event → β → Prop} (h : Acts Stopped action History) (world : World)
    (session : Session) : session.log <+: (action world session).2.log := by
  obtain ⟨events, hDoes, _⟩ := h world session
  rw [hDoes.after, Session.log_after]
  exact List.prefix_append _ _

namespace Online

variable {ε δ α β : Type}

/-- The same of an action that may fail, and fails with `cancelled` when the
run is cancelled meanwhile. -/
abbrev Acts (cancelled : ε) (action : World → Online ε α)
    (History : List Event → Except ε α → Prop) : Prop :=
  Http.Acts (· = .error cancelled) (fun world session => (action world).run session) History

/-- The events of one action and then, unless it failed, of another. -/
def Then (First : List Event → Except ε α → Prop)
    (Second : α → List Event → Except ε β → Prop) (events : List Event)
    (result : Except ε β) : Prop :=
  (∃ error, First events (.error error) ∧ result = .error error) ∨
    ∃ value first second, events = first ++ second ∧ First first (.ok value) ∧
      Second value second result

/-- An action whose errors are worded otherwise. -/
def mapError (convert : ε → δ) (action : Online ε α) : Online δ α :=
  ExceptT.mk do return (← action.run).mapError convert

theorem run_mapError (convert : ε → δ) (action : Online ε α) (session : Session) :
    (mapError convert action).run session =
      ((action.run session).1.mapError convert, (action.run session).2) := rfl

theorem mapError_bind (convert : ε → δ) (action : Online ε α) (rest : α → Online ε β) :
    mapError convert (action >>= rest) =
      mapError convert action >>= fun value => mapError convert (rest value) := by
  apply ExceptT.ext
  apply StateT.ext
  intro session
  show (mapError convert (action >>= rest)).run session =
    (mapError convert action >>= fun value => mapError convert (rest value)).run session
  rw [run_mapError, run_bind, run_bind, run_mapError]
  rcases action.run session with ⟨error | value, after⟩
  · rfl
  · rfl

theorem run_bind_ok {action : Online ε α} {session after : Session} {value : α}
    (rest : α → Online ε β) (h : action.run session = (.ok value, after)) :
    (action >>= rest).run session = (rest value).run after := by
  rw [run_bind, h]

/-- Composed actions that succeed have both succeeded. -/
theorem run_bind_eq_ok {action : Online ε α} {rest : α → Online ε β} {session after : Session}
    {value : β} (h : (action >>= rest).run session = (.ok value, after)) :
    ∃ found between, action.run session = (.ok found, between) ∧
      (rest found).run between = (.ok value, after) := by
  rw [run_bind] at h
  rcases hAction : action.run session with ⟨error | found, between⟩
  · rw [hAction] at h
    cases h
  · rw [hAction] at h
    exact ⟨found, between, rfl, h⟩

theorem run_bind_error {action : Online ε α} {session after : Session} {error : ε}
    (rest : α → Online ε β) (h : action.run session = (.error error, after)) :
    (action >>= rest).run session = (.error error, after) := by
  rw [run_bind, h]

section Rules

variable {cancelled : ε} {first : World → Online ε α} {second : α → World → Online ε β}
  {First : List Event → Except ε α → Prop} {Second : α → List Event → Except ε β → Prop}

/-- Actions with the same runs do the same. -/
theorem Acts.congr {action other : World → Online ε α} {History : List Event → Except ε α → Prop}
    (h : ∀ world session, (action world).run session = (other world).run session)
    (hOther : Acts cancelled other History) : Acts cancelled action History := by
  have hSame : (fun world session => (action world).run session) =
      fun world session => (other world).run session := by
    funext world session
    exact h world session
  unfold Acts at hOther ⊢
  rw [hSame]
  exact hOther

/-- A result that is known does nothing. -/
theorem Acts.ofExcept (cancelled : ε) (result : Except ε α) :
    Acts cancelled (fun _ => MonadExcept.ofExcept result)
      fun events found => events = [] ∧ found = result := by
  have hRun : ∀ (world : World) (session : Session),
      (fun (_ : World) session => (MonadExcept.ofExcept result : Online ε α).run session) world
        session = (result, session) :=
    fun _ => run_ofExcept result
  intro world session
  exact ⟨[], .nothing (fun _ => result) hRun world session, rfl,
    congrArg Prod.fst (hRun world session)⟩

theorem Acts.pure (cancelled : ε) (value : α) :
    Acts cancelled (fun _ => (Pure.pure value : Online ε α))
      fun events found => events = [] ∧ found = .ok value :=
  Acts.ofExcept cancelled (.ok value)

/-- A run that was cancelled is stopped before anything is done. -/
theorem Acts.checkCancelled (cancelled : ε) :
    Acts cancelled (fun _ => Online.checkCancelled cancelled)
      fun events found => events = [] ∧ (found = .ok () ∨ found = .error cancelled) := by
  have hRun : ∀ (world : World) (session : Session),
      (fun (_ : World) session => (Online.checkCancelled cancelled).run session) world session =
        (if session.cancelled then .error cancelled else .ok (), session) := by
    intro world session
    have hCheck : (Online.checkCancelled cancelled).run session =
        (if session.cancelled then (throw cancelled : Online ε Unit)
          else Pure.pure ()).run session := rfl
    dsimp only
    rw [hCheck]
    cases session.cancelled with
    | true => rfl
    | false => rfl
  intro world session
  refine ⟨[], .nothing (fun stopped => if stopped then .error cancelled else .ok ()) hRun world session,
    rfl, ?_⟩
  rw [hRun world session]
  cases session.cancelled with
  | true => exact .inr rfl
  | false => exact .inl rfl

/-- **The events of composed actions** follow each other. -/
theorem Acts.bind (hFirst : Acts cancelled first First)
    (hSecond : ∀ value, Acts cancelled (second value) (Second value)) :
    Acts cancelled (fun world => first world >>= fun value => second value world)
      (Then First Second) := by
  intro world session
  obtain ⟨events, hDoes, hHistory⟩ := hFirst world session
  dsimp only at hHistory
  cases hResult : ((first world).run session).1 with
  | error error =>
      have hPair : (first world).run session = (.error error, session.after world events) :=
        Prod.ext hResult hDoes.after
      have hRun := run_bind_error (fun value => second value world) hPair
      rw [hResult] at hHistory
      refine ⟨events, ⟨congrArg Prod.snd hRun, hDoes.live, hDoes.told, ?_, ?_⟩,
        .inl ⟨error, hHistory, congrArg Prod.fst hRun⟩⟩
      · intro hRunning hCancelled
        have hStopped := hDoes.stopped hRunning hCancelled
        rw [hPair] at hStopped
        cases hStopped
        exact congrArg Prod.fst hRun
      · intro other mirror hMirror hAgrees
        have hOther := hDoes.replayed other mirror hMirror hAgrees
        rw [hPair] at hOther
        dsimp only
        rw [hRun, run_bind_error _ hOther]
  | ok value =>
      have hPair : (first world).run session = (.ok value, session.after world events) :=
        Prod.ext hResult hDoes.after
      have hRun := run_bind_ok (fun value => second value world) hPair
      rw [hResult] at hHistory
      obtain ⟨more, hMore, hLater⟩ := hSecond value world (session.after world events)
      refine ⟨events ++ more, ⟨?_, ?_, ?_, ?_, ?_⟩,
        .inr ⟨value, events, more, rfl, hHistory, ?_⟩⟩
      · dsimp only
        rw [hRun, hMore.after, Session.after_append]
      · exact Session.live_append.mpr ⟨hDoes.live, hMore.live⟩
      · exact agrees_append.mpr ⟨hDoes.told, hMore.told⟩
      · -- The first action went well, so the run was not cancelled during it.
        intro hRunning hCancelled
        rw [Session.after_append] at hCancelled
        dsimp only
        rw [hRun]
        cases hBetween : (session.after world events).cancelled with
        | true =>
            have hStopped := hDoes.stopped hRunning hBetween
            rw [hPair] at hStopped
            cases hStopped
        | false => exact hMore.stopped hBetween hCancelled
      · intro other mirror hMirror hAgrees
        rw [agrees_append] at hAgrees
        have hOther := hDoes.replayed other mirror hMirror hAgrees.1
        rw [hPair] at hOther
        dsimp only
        rw [hRun, run_bind_ok _ hOther, Session.after_append]
        exact hMore.replayed other _ (hAgrees.1.cancelled_after hMirror) hAgrees.2
      · dsimp only
        rw [hRun]
        exact hLater

/-- What follows a result that is known has all the events. -/
theorem Then.of_known {known : Except ε α} {events : List Event} {result : Except ε β}
    (h : Then (fun events found => events = [] ∧ found = known) Second events result) :
    (∃ error, known = .error error ∧ events = [] ∧ result = .error error) ∨
      ∃ value, known = .ok value ∧ Second value events result := by
  rcases h with ⟨error, ⟨rfl, rfl⟩, rfl⟩ | ⟨value, _, second, rfl, ⟨rfl, rfl⟩, hSecond⟩
  · exact .inl ⟨error, rfl, rfl, rfl⟩
  · exact .inr ⟨value, rfl, hSecond⟩

/-- What follows an action whose errors are worded otherwise. -/
theorem Then.of_mapError {First : List Event → Except δ α → Prop} {convert : δ → ε}
    {events : List Event} {result : Except ε β}
    (h : Then (fun events result => ∃ found, First events found ∧ result = found.mapError convert)
      Second events result) :
    (∃ error, First events (.error error) ∧ result = .error (convert error)) ∨
      ∃ value first second, events = first ++ second ∧ First first (.ok value) ∧
        Second value second result := by
  rcases h with ⟨error, ⟨found, hFirst, hFound⟩, rfl⟩ |
    ⟨value, first, second, rfl, ⟨found, hFirst, hFound⟩, hSecond⟩
  · cases found with
    | error other =>
        cases hFound
        exact .inl ⟨other, hFirst, rfl⟩
    | ok value => cases hFound
  · cases found with
    | error other => cases hFound
    | ok other =>
        cases hFound
        exact .inr ⟨value, first, second, rfl, hFirst, hSecond⟩

/-- Other words for its errors change nothing else about an action. -/
theorem Acts.mapError (convert : ε → δ) (h : Acts cancelled first First) :
    Acts (convert cancelled) (fun world => Online.mapError convert (first world))
      fun events result => ∃ found, First events found ∧ result = found.mapError convert := by
  intro world session
  obtain ⟨events, hDoes, hHistory⟩ := h world session
  refine ⟨events, ⟨hDoes.after, hDoes.live, hDoes.told, ?_, ?_⟩, _, hHistory, rfl⟩
  · intro hRunning hCancelled
    have hStopped := hDoes.stopped hRunning hCancelled
    dsimp only at hStopped ⊢
    rw [run_mapError, hStopped]
    rfl
  · intro other mirror hMirror hAgrees
    have hOther := hDoes.replayed other mirror hMirror hAgrees
    dsimp only at hOther ⊢
    rw [run_mapError, run_mapError, hOther]

end Rules

end Online

end SourceIndex.Http
