import Mathlib.Algebra.Group.Nat.Defs
import Mathlib.Order.Bounds.Defs
import SourceIndex.Proofs.Http.Retry
import SourceIndex.Proofs.Text.Numerals

/-!
# The rounds of a request

A world answers each attempt of a request after those before it, so what all
attempts would receive is settled before the first one: `receives` lists it for
every number, also for attempts that are never made.  Against this row a run of
retries has a closed form.  Its last attempt is the least number at which
something stops it, and the log, the waits and the result are read off there.

What is worth another attempt, how long to wait for it and what a last attempt
means are given by a `Policy`, a relation that does not mention the judge.

## Main results

* `Rounds.retry_run` — the closed form, for each judge that keeps a policy.
* `loop_range_eq_retry` — a loop over the numbers of the attempts never gets to
  what stands behind it.
* `Policy.Run.waited_all`, `Policy.Run.log_length_le` — every wait is one that
  the policy allows, and the attempts are not more than allowed.
* `Head.retryAfter?_eq_some_iff`, `backoff_eq_min` — what a reply asks for, and
  the wait that doubles and is cut off where 64 bits end.
-/

namespace SourceIndex.Http

/-! ## Waits between attempts -/

/-- The head of what is received. -/
def Received.head? : Received → Option Head
  | .nothing _ => none
  | .part head _ | .whole head _ => some head

/-- The first header for it names the seconds for which the server wants to be
left alone. -/
def Head.AsksFor (head : Head) (seconds : Nat) : Prop :=
  ∃ value, head.header? "retry-after" = some value ∧
    (∀ c ∈ value.toList, Head.isPlain c = true) ∧
    Text.Names (Text.trim value.toList) seconds ∧ seconds ≤ Text.largest64

theorem Head.retryAfter?_eq_some_iff {head : Head} {seconds : Nat} :
    head.retryAfter? = some seconds ↔ head.AsksFor seconds := by
  unfold retryAfter? AsksFor
  cases head.header? "retry-after" with
  | none => simp
  | some value =>
      by_cases hPlain : value.toList.all isPlain = true
      · have hAll : ∀ c ∈ value.toList, isPlain c = true := List.all_eq_true.mp hPlain
        simp only [Option.bind_eq_bind, Option.bind_some, hPlain, if_true,
          Text.readNat?_eq_some_iff]
        constructor
        · exact fun hNames => ⟨value, rfl, hAll, hNames⟩
        · rintro ⟨_, ⟨rfl⟩, _, hNames⟩
          exact hNames
      · simp only [Option.bind_eq_bind, Option.bind_some, hPlain]
        constructor
        · intro hNone
          simp at hNone
        · rintro ⟨_, ⟨rfl⟩, hAll, _⟩
          exact absurd (List.all_eq_true.mpr hAll) hPlain

/-- A wait as long as it is asked for, or else of another length, but never
longer than allowed. -/
def Delays (longest : Nat) (asked : Nat → Prop) (otherwise seconds : Nat) : Prop :=
  (∀ wanted, asked wanted → seconds = min longest wanted) ∧
    ((∀ wanted, ¬ asked wanted) → seconds = min longest otherwise)

theorem delays_getD {longest otherwise : Nat} {asked : Nat → Prop} {found : Option Nat}
    (hFound : ∀ wanted, found = some wanted ↔ asked wanted) :
    Delays longest asked otherwise (min longest (found.getD otherwise)) := by
  constructor
  · intro wanted hAsked
    rw [(hFound wanted).mpr hAsked, Option.getD_some]
  · intro hNone
    cases found with
    | none => rw [Option.getD_none]
    | some wanted => exact absurd ((hFound wanted).mp rfl) (hNone wanted)

theorem Delays.le {longest otherwise seconds : Nat} {asked : Nat → Prop}
    (hDelays : Delays longest asked otherwise seconds) : seconds ≤ longest := by
  by_cases hAsked : ∃ wanted, asked wanted
  · obtain ⟨wanted, hWanted⟩ := hAsked
    rw [hDelays.1 wanted hWanted]
    exact Nat.min_le_left longest wanted
  · rw [hDelays.2 (not_exists.mp hAsked)]
    exact Nat.min_le_left longest otherwise

namespace Online

theorem backoff_eq_min (number : Nat) : backoff number = min (2 ^ number) Text.largest64 := by
  have hLargest : Text.largest64 = 2 ^ 64 - 1 := rfl
  by_cases hNumber : number < 64
  · have hPower : 2 ^ number < 2 ^ 64 := Nat.pow_lt_pow_right (by omega) hNumber
    rw [backoff, if_pos hNumber, Nat.pow_eq]
    omega
  · have hPower : 2 ^ 64 ≤ 2 ^ number := Nat.pow_le_pow_right (by omega) (by omega)
    rw [backoff, if_neg hNumber]
    omega

/-! ## Policies -/

variable {ε α : Type}

/-- How a client deals with what its attempts receive. -/
structure Policy (ε α : Type) where
  /-- Another attempt is worth while after this one. -/
  Retryable : Received → Prop
  /-- The seconds before the next attempt, after the one with the given number. -/
  Waits : Nat → Received → Nat → Prop
  /-- The result when there is no other attempt. -/
  Means : Received → Except ε α → Prop

/-- A verdict on what an attempt receives is the one that a policy asks for. -/
structure Policy.Keeps (policy : Policy ε α) (number : Nat) (received : Received)
    (verdict : Verdict ε α) : Prop where
  again : policy.Retryable received →
    ∃ seconds, verdict.again = some seconds ∧ policy.Waits number received seconds
  enough : ¬ policy.Retryable received → verdict.again = none
  final : policy.Means received verdict.final

/-- A verdict that plans a wait just where the policy allows another
attempt. -/
theorem Policy.keeps_ite {policy : Policy ε α} {number seconds : Nat} {received : Received}
    {final : Except ε α} {worth : Bool} (hWorth : worth = true ↔ policy.Retryable received)
    (hWaits : policy.Waits number received seconds) (hMeans : policy.Means received final) :
    policy.Keeps number received { final, again := if worth then some seconds else none } where
  again hRetryable := ⟨seconds, if_pos (hWorth.mpr hRetryable), hWaits⟩
  enough hFinal := if_neg fun hAgain => hFinal (hWorth.mp hAgain)
  final := hMeans

/-- A judge whose verdicts are all those that a policy asks for. -/
def Policy.Governs (policy : Policy ε α) (judge : Nat → Received → Verdict ε α) : Prop :=
  ∀ number received, policy.Keeps number received (judge number received)

/-! ## Rounds -/

/-- A request that may be attempted several times, and the session in which
its attempts begin. -/
structure Rounds where
  world : World
  draft : Draft
  /-- How often the request may be attempted again. -/
  retries : Nat
  session : Session

namespace Rounds

/-- What the attempt with the given number receives, when it is made. -/
def receives (rounds : Rounds) (number : Nat) : Received :=
  match rounds.draft.prepare with
  | .error failure => .nothing failure
  | .ok (url, request) =>
      (rounds.world.answer (rounds.session.sent ++ List.replicate number request)
        request).received url

/-- What is asked in the first attempts, and what comes of it. -/
def entries (rounds : Rounds) (count : Nat) : List Entry :=
  match rounds.draft.prepare with
  | .error _ => []
  | .ok (_, request) => (List.range count).map fun number =>
      ⟨request, rounds.world.answer (rounds.session.sent ++ List.replicate number request) request⟩

/-- The waits after the first attempts. -/
def waited (rounds : Rounds) (wait : Nat → Nat) (count : Nat) : List Nat :=
  rounds.session.waits ++ (List.range count).map wait

/-- The run is cancelled in the wait after an attempt. -/
def Interrupted (rounds : Rounds) (wait : Nat → Nat) (number : Nat) : Prop :=
  rounds.world.interrupts (rounds.waited wait number) (wait number) = true

/-- No attempt follows the one with the given number: none is left, none is
worth while, or the run is cancelled before it. -/
def Stops (rounds : Rounds) (policy : Policy ε α) (wait : Nat → Nat) (number : Nat) : Prop :=
  number = rounds.retries ∨ ¬ policy.Retryable (rounds.receives number) ∨
    rounds.Interrupted wait number

end Rounds

/-- What comes of a request that is attempted under a policy: the waits it
plans, the number of its last attempt, its result and the session after it. -/
structure Policy.Run (policy : Policy ε α) (cancelled : ε) (rounds : Rounds) (wait : Nat → Nat)
    (last : Nat) (result : Except ε α) (after : Session) : Prop where
  least : IsLeast { number | rounds.Stops policy wait number } last
  planned : ∀ number, policy.Retryable (rounds.receives number) →
    policy.Waits number (rounds.receives number) (wait number)
  log : after.log = rounds.session.log ++ rounds.entries (last + 1)
  /-- The run is cancelled in the wait after its last attempt. -/
  interrupted : last < rounds.retries → policy.Retryable (rounds.receives last) →
    result = .error cancelled ∧ after.waits = rounds.waited wait (last + 1) ∧
      after.cancelled = true
  /-- The last attempt decides. -/
  decided : last = rounds.retries ∨ ¬ policy.Retryable (rounds.receives last) →
    policy.Means (rounds.receives last) result ∧ after.waits = rounds.waited wait last ∧
      after.cancelled = false

namespace Rounds

variable (rounds : Rounds) (wait : Nat → Nat)

/-! ### The sessions between the attempts -/

/-- The session in which the attempt with the given number begins. -/
def reaching (number : Nat) : Session :=
  { log := rounds.session.log ++ rounds.entries number
    waits := rounds.waited wait number
    cancelled := false }

theorem reaching_zero (hRunning : rounds.session.cancelled = false) :
    rounds.reaching wait 0 = rounds.session := by
  have hEntries : rounds.entries 0 = [] := by
    unfold entries
    split <;> rfl
  have hSession : rounds.session = ⟨rounds.session.log, rounds.session.waits, false⟩ := by
    rw [← hRunning]
  rw [hSession, reaching, waited, hEntries]
  simp

theorem entries_length_le (count : Nat) : (rounds.entries count).length ≤ count := by
  unfold entries
  split
  · exact Nat.zero_le count
  · simp

/-- The attempt with the given number receives what its row has there. -/
theorem attempted_reaching (number : Nat) :
    attempted rounds.world rounds.draft (rounds.reaching wait number) =
      (rounds.receives number,
        { rounds.reaching wait number with
          log := rounds.session.log ++ rounds.entries (number + 1) }) := by
  unfold attempted receives
  cases hPrepare : rounds.draft.prepare with
  | error failure =>
      have hEntries : ∀ count, rounds.entries count = [] := by
        intro count
        simp only [entries, hPrepare]
      simp only [reaching, hEntries]
  | ok prepared =>
      have hEntries : ∀ count, rounds.entries count = (List.range count).map fun number =>
          ⟨prepared.2, rounds.world.answer
            (rounds.session.sent ++ List.replicate number prepared.2) prepared.2⟩ := by
        intro count
        simp only [entries, hPrepare]
      have hSent : (rounds.reaching wait number).sent =
          rounds.session.sent ++ List.replicate number prepared.2 := by
        simp [reaching, Session.sent, hEntries, Function.comp_def, List.map_const']
      simp only [hSent]
      simp [reaching, hEntries, List.range_succ]

/-- The wait after an attempt leads to the next one, unless the run is
cancelled in it. -/
theorem paused_reaching (number : Nat) :
    paused rounds.world (wait number)
        { rounds.reaching wait number with
          log := rounds.session.log ++ rounds.entries (number + 1) } =
      { rounds.reaching wait (number + 1) with
        cancelled := rounds.world.interrupts (rounds.waited wait number) (wait number) } := by
  simp [paused, reaching, waited, List.range_succ]

/-! ### The last attempt -/

variable {rounds wait} {policy : Policy ε α} {number : Nat}

theorem isLeast_of_stops (hStops : rounds.Stops policy wait number)
    (hBefore : ∀ earlier < number, ¬ rounds.Stops policy wait earlier) :
    IsLeast { number | rounds.Stops policy wait number } number := by
  refine ⟨hStops, ?_⟩
  intro other hOther
  exact Nat.not_lt.mp fun hLess => hBefore other hLess hOther

/-- An attempt that does not stop the run is followed by the next one. -/
theorem not_stops_succ (hLeft : number < rounds.retries)
    (hAgain : policy.Retryable (rounds.receives number))
    (hInterrupted : ¬ rounds.Interrupted wait number)
    (hBefore : ∀ earlier < number, ¬ rounds.Stops policy wait earlier) :
    ∀ earlier < number + 1, ¬ rounds.Stops policy wait earlier := by
  intro earlier hEarlier
  by_cases hSame : earlier = number
  · rw [hSame]
    rintro (hNone | hFinal | hStop)
    · omega
    · exact hFinal hAgain
    · exact hInterrupted hStop
  · exact hBefore earlier (by omega)

variable (cancelled : ε) {judge : Nat → Received → Verdict ε α}

/-- An attempt that decides ends the run. -/
private theorem run_decided (hGoverns : policy.Governs judge)
    (hPlanned : ∀ number, policy.Retryable (rounds.receives number) →
      policy.Waits number (rounds.receives number) (wait number))
    (hBefore : ∀ earlier < number, ¬ rounds.Stops policy wait earlier)
    (hDecides : number = rounds.retries ∨ ¬ policy.Retryable (rounds.receives number)) :
    policy.Run cancelled rounds wait number (judge number (rounds.receives number)).final
      { rounds.reaching wait number with
        log := rounds.session.log ++ rounds.entries (number + 1) } := by
  refine ⟨isLeast_of_stops ?_ hBefore, hPlanned, rfl, ?_, ?_⟩
  · exact hDecides.elim .inl fun hFinal => .inr (.inl hFinal)
  · intro hLeft hAgain
    exact absurd hDecides (by simp [hAgain, Nat.ne_of_lt hLeft])
  · exact fun _ => ⟨(hGoverns number _).final, rfl, rfl⟩

/-- A wait in which the run is cancelled ends it. -/
private theorem run_interrupted
    (hPlanned : ∀ number, policy.Retryable (rounds.receives number) →
      policy.Waits number (rounds.receives number) (wait number))
    (hBefore : ∀ earlier < number, ¬ rounds.Stops policy wait earlier)
    (hLeft : number < rounds.retries) (hAgain : policy.Retryable (rounds.receives number))
    (hInterrupted : rounds.Interrupted wait number) :
    policy.Run cancelled rounds wait number (.error cancelled)
      { rounds.reaching wait (number + 1) with cancelled := true } := by
  refine ⟨isLeast_of_stops (.inr (.inr hInterrupted)) hBefore, hPlanned, rfl, ?_, ?_⟩
  · exact fun _ _ => ⟨rfl, rfl, rfl⟩
  · intro hDecides
    exact absurd hDecides (by simp [hAgain, Nat.ne_of_lt hLeft])

variable (rounds)

/-- The wait that a judge plans after an attempt, none when it plans no other
attempt. -/
def planned (judge : Nat → Received → Verdict ε α) (number : Nat) : Nat :=
  ((judge number (rounds.receives number)).again).getD 0

/-- The closed form from the attempt with the given number on, which is reached
because none before it stops the run. -/
private theorem retry_reaching (hGoverns : policy.Governs judge) (left : Nat) :
    ∀ number, number + left = rounds.retries →
      (∀ earlier < number, ¬ rounds.Stops policy (rounds.planned judge) earlier) →
      ∃ last, policy.Run cancelled rounds (rounds.planned judge) last
        ((retry rounds.world cancelled rounds.draft judge left number).run
          (rounds.reaching (rounds.planned judge) number)).1
        ((retry rounds.world cancelled rounds.draft judge left number).run
          (rounds.reaching (rounds.planned judge) number)).2 := by
  have hPlanned : ∀ number, policy.Retryable (rounds.receives number) →
      policy.Waits number (rounds.receives number) (rounds.planned judge number) := by
    intro number hAgain
    obtain ⟨seconds, hSeconds, hWaits⟩ := (hGoverns number _).again hAgain
    rwa [planned, hSeconds]
  have hRunning : ∀ number,
      ¬ (rounds.reaching (rounds.planned judge) number).cancelled = true := by
    simp [reaching]
  induction left with
  | zero =>
      intro number hNumber hBefore
      rw [retry_zero_run, if_neg (hRunning number), attempted_reaching]
      exact ⟨number, run_decided cancelled hGoverns hPlanned hBefore (.inl hNumber)⟩
  | succ left ih =>
      intro number hNumber hBefore
      have hLeft : number < rounds.retries := by omega
      rw [retry_succ_run, if_neg (hRunning number), attempted_reaching]
      by_cases hAgain : policy.Retryable (rounds.receives number)
      · obtain ⟨seconds, hSeconds, -⟩ := (hGoverns number _).again hAgain
        have hSame : seconds = rounds.planned judge number := by
          rw [planned, hSeconds, Option.getD_some]
        simp only [hSeconds, hSame, paused_reaching]
        by_cases hInterrupted : rounds.Interrupted (rounds.planned judge) number
        · have hEnds := run_interrupted cancelled hPlanned hBefore hLeft hAgain hInterrupted
          unfold Interrupted at hInterrupted
          simp only [hInterrupted, if_true]
          exact ⟨number, hEnds⟩
        · have hOn := not_stops_succ hLeft hAgain hInterrupted hBefore
          rw [Interrupted, Bool.not_eq_true] at hInterrupted
          simp only [hInterrupted, Bool.false_eq_true, if_false]
          exact ih (number + 1) (by omega) hOn
      · simp only [(hGoverns number _).enough hAgain]
        exact ⟨number, run_decided cancelled hGoverns hPlanned hBefore (.inr hAgain)⟩

/--
**The closed form of a run of retries**: its attempts are those up to the first
that stops it, and the result is what this one means, or the cancellation of
the run in the wait after it.
-/
theorem retry_run (hGoverns : policy.Governs judge)
    (hRunning : rounds.session.cancelled = false) :
    ∃ wait last, policy.Run cancelled rounds wait last
      ((retry rounds.world cancelled rounds.draft judge rounds.retries 0).run rounds.session).1
      ((retry rounds.world cancelled rounds.draft judge rounds.retries 0).run
        rounds.session).2 := by
  have hRun := retry_reaching rounds cancelled hGoverns rounds.retries 0 (Nat.zero_add _)
    (fun _ hEarlier => absurd hEarlier (Nat.not_lt_zero _))
  rw [reaching_zero rounds _ hRunning] at hRun
  exact ⟨_, hRun⟩

end Rounds

namespace Policy.Run

variable {policy : Policy ε α} {cancelled : ε} {rounds : Rounds} {wait : Nat → Nat} {last : Nat}
  {result : Except ε α} {after : Session}

/-- No attempt is made beyond those that are allowed. -/
theorem last_le (hRun : policy.Run cancelled rounds wait last result after) :
    last ≤ rounds.retries :=
  hRun.least.2 (.inl rfl)

theorem log_length_le (hRun : policy.Run cancelled rounds wait last result after) :
    after.log.length ≤ rounds.session.log.length + (rounds.retries + 1) := by
  have hEntries := rounds.entries_length_le (last + 1)
  have hLast := hRun.last_le
  rw [hRun.log, List.length_append]
  omega

/-- An attempt that is followed by another one was worth it. -/
theorem retryable_of_lt (hRun : policy.Run cancelled rounds wait last result after) {number : Nat}
    (hNumber : number < last) : policy.Retryable (rounds.receives number) := by
  refine Classical.byContradiction fun hFinal => ?_
  have hLast : last ≤ number := hRun.least.2 (.inr (.inl hFinal))
  omega

/-- Each wait of the run is one that the policy allows after an attempt. -/
theorem waited_all (hRun : policy.Run cancelled rounds wait last result after) :
    ∃ waits, after.waits = rounds.session.waits ++ waits ∧ ∀ seconds ∈ waits,
      ∃ number, policy.Retryable (rounds.receives number) ∧
        policy.Waits number (rounds.receives number) seconds := by
  have hAll : ∀ count, (∀ number < count, policy.Retryable (rounds.receives number)) →
      ∀ seconds ∈ (List.range count).map wait, ∃ number,
        policy.Retryable (rounds.receives number) ∧
          policy.Waits number (rounds.receives number) seconds := by
    intro count hCount seconds hSeconds
    obtain ⟨number, hNumber, rfl⟩ := List.mem_map.mp hSeconds
    have hAgain := hCount number (List.mem_range.mp hNumber)
    exact ⟨number, hAgain, hRun.planned number hAgain⟩
  by_cases hDecides : last = rounds.retries ∨ ¬ policy.Retryable (rounds.receives last)
  · exact ⟨_, (hRun.decided hDecides).2.1, hAll last fun _ => hRun.retryable_of_lt⟩
  · rw [not_or, Classical.not_not] at hDecides
    have hLeft : last < rounds.retries := by
      have hLast := hRun.last_le
      omega
    refine ⟨_, (hRun.interrupted hLeft hDecides.2).2.1, hAll (last + 1) ?_⟩
    intro number hNumber
    by_cases hSame : number = last
    · rw [hSame]
      exact hDecides.2
    · exact hRun.retryable_of_lt (by omega)

end Policy.Run

/-! ## Loops over the attempts -/

section Loop

variable (world : World) (cancelled : ε) (draft : Draft) (judge : Nat → Received → Verdict ε α)

/-- Attempts a request once for each of the given numbers, the last of which is
known beforehand, and goes on behind the loop when no attempt ended it. -/
def loop (retries : Nat) (behind : Online ε α) : List Nat → Online ε α
  | [] => behind
  | number :: later => do
    checkCancelled cancelled
    let verdict := judge number (← attempt world draft)
    match if number = retries then none else verdict.again with
    | some seconds =>
      pause world cancelled seconds
      loop retries behind later
    | none => MonadExcept.ofExcept verdict.final

theorem loop_eq_retry (behind : Online ε α) (left : Nat) :
    ∀ number, loop world cancelled draft judge (number + left) behind
        (List.range' number (left + 1)) =
      retry world cancelled draft judge left number := by
  induction left with
  | zero =>
      intro number
      simp [loop, retry]
  | succ left ih =>
      intro number
      have hLater : number + (left + 1) = (number + 1) + left := by omega
      have hLast : ¬ number = (number + 1) + left := by omega
      rw [List.range'_succ, loop, retry, hLater]
      refine bind_congr fun _ => bind_congr fun received => ?_
      simp only [if_neg hLast]
      cases (judge number received).again with
      | none => rfl
      | some seconds => exact bind_congr fun _ => ih (number + 1)

/-- **Nothing behind the loop is reached**: over the numbers of all attempts
that are allowed it does the same, whatever stands there. -/
theorem loop_range_eq_retry (behind : Online ε α) (retries : Nat) :
    loop world cancelled draft judge retries behind (List.range (retries + 1)) =
      retry world cancelled draft judge retries 0 := by
  have hLoop := loop_eq_retry world cancelled draft judge behind retries 0
  rwa [Nat.zero_add, ← List.range_eq_range'] at hLoop

end Loop

end Online

end SourceIndex.Http
