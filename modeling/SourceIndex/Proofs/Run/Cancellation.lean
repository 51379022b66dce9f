import SourceIndex.Proofs.Run.Trace

/-!
# Cancelled runs

A run may be cancelled before it starts or during any wait between two
attempts, of whatever request.  Whichever it is, the run ends as cancelled,
with nothing found and no failure in the place of what was cancelled, and it
sends nothing from then on.

This is about runs whose downloads and batches are asked for one at a time,
as `GitHub.fetchFiles` and `OpenAi.embedBatches` do it.  Nothing is told about
several in flight: there another request can fail in the same instant in which
a wait is interrupted, and its error may come first.

## Main results

* `run_of_cancelled` — a run that was cancelled before does nothing.
* `Ran.error_cancelled` — a run that is cancelled meanwhile ends so.
* `run_cancelled` — both, and that the cancelling wait is the last event.
-/

namespace SourceIndex.Run

open Http

section Cancelled

variable {bench : Workbench} {plan : RunPlan} {world : World} {state : RunState}

/-- A run that was cancelled before does nothing. -/
theorem run_of_cancelled (h : state.session.cancelled = true) :
    plan.run bench world state = (.error .cancelled, state) :=
  if_pos h

/-- Embedding turns the errors of batches into failures, but not this one: a
run that is cancelled when it ends has ended because of that. -/
theorem Ran.error_cancelled {events : List Event} (h : Ran bench plan world state events)
    (hCancelled : (plan.run bench world state).2.session.cancelled = true) :
    (plan.run bench world state).1 = .error .cancelled := by
  cases hState : state.session.cancelled with
  | true => exact congrArg Prod.fst (run_of_cancelled hState)
  | false =>
      rw [h.after] at hCancelled
      exact h.stopped hState hCancelled

/-- Nothing follows the wait during which a run is cancelled. -/
theorem Ran.interrupted {earlier later : List Event} {seconds : Nat}
    (h : Ran bench plan world state (earlier ++ .waited seconds :: later))
    (hInterrupts : world.interrupts (state.session.after world earlier).waits seconds = true) :
    (plan.run bench world state).1 = .error .cancelled ∧ later = [] := by
  obtain rfl := h.live.last_of_interrupted hInterrupts
  refine ⟨h.error_cancelled ?_, rfl⟩
  rw [h.after, Session.after_append]
  show ((state.session.after world earlier).cancelled ||
    world.interrupts (state.session.after world earlier).waits seconds) = true
  rw [hInterrupts, Bool.or_true]

/--
**Cancellation.**  A run that was cancelled before sends nothing and changes
nothing, a run that is cancelled when it ends has ended as cancelled, and a
wait that is interrupted is the last thing that a run does.
-/
theorem run_cancelled (bench : Workbench) (plan : RunPlan) (world : World) (state : RunState) :
    (state.session.cancelled = true → plan.run bench world state = (.error .cancelled, state)) ∧
      ((plan.run bench world state).2.session.cancelled = true →
        (plan.run bench world state).1 = .error .cancelled) ∧
      ∃ events, (plan.run bench world state).2.session = state.session.after world events ∧
        Traced bench plan state.standIn events ∧
        ∀ earlier seconds later, events = earlier ++ .waited seconds :: later →
          world.interrupts (state.session.after world earlier).waits seconds = true →
            (plan.run bench world state).1 = .error .cancelled ∧ later = [] := by
  obtain ⟨events, hRan⟩ := run_ran bench plan world state
  refine ⟨run_of_cancelled, hRan.error_cancelled, events, hRan.after, hRan.planning.traced, ?_⟩
  rintro earlier seconds later rfl hInterrupts
  exact hRan.interrupted hInterrupts

end Cancelled

/-- A server that is never reached, and a first wait that is interrupted. -/
example :
    (Moving.plan.run Moving.bench (.unreachable World.impatient)
        ⟨.start false, Moving.standIn⟩).2.session =
      { log := [{ request := Moving.commitRequest, outcome := .refused }], waits := [1]
        cancelled := true } := by
  decide +kernel

end SourceIndex.Run
