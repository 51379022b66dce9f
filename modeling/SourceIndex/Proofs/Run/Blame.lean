import SourceIndex.Proofs.Run.Completion

/-!
# Where the errors of a run come from

Each error of a run can be told from the stage that it comes from: cancelling,
the repository, the choice of an embedder, or the embedder.  A stage that asks
for nothing in a run has no part in its errors, and only the choice of the
embedder finds fault with a configuration.

## Main results

* `Errs.bind` — the errors of composed actions.
* `run_blamed` — the errors of a run.
* `Blamed.of_unembedded`, `Blamed.config` — what some errors tell.
-/

namespace SourceIndex.Http.Online

variable {ε δ α β : Type} {Blames : ε → Prop}

/-- Whatever error an action ends with, it is such as `Blames` says. -/
def Errs (Blames : ε → Prop) (action : Online ε α) : Prop :=
  ∀ session error, (action.run session).1 = .error error → Blames error

theorem Errs.pure (value : α) : Errs Blames (Pure.pure value : Online ε α) := by
  intro session error hError
  cases hError

/-- **The errors of composed actions** are those of the first and of what
follows it. -/
theorem Errs.bind {action : Online ε α} {rest : α → Online ε β} (h : Errs Blames action)
    (hRest : ∀ value, Errs Blames (rest value)) : Errs Blames (action >>= rest) := by
  intro session error hError
  rw [run_bind] at hError
  rcases hAction : action.run session with ⟨found | value, after⟩
  · rw [hAction] at hError
    cases hError
    exact h session error (congrArg Prod.fst hAction)
  · rw [hAction] at hError
    exact hRest value after error hError

/-- What follows a result that is known is blamed for its own errors. -/
theorem Errs.bind_ofExcept {result : Except ε α} {rest : α → Online ε β}
    (h : ∀ error, result = .error error → Blames error)
    (hRest : ∀ value, result = .ok value → Errs Blames (rest value)) :
    Errs Blames (MonadExcept.ofExcept result >>= rest) := by
  intro session error hError
  rw [run_bind, run_ofExcept] at hError
  cases hResult : result with
  | error found =>
      rw [hResult] at hError
      cases hError
      exact h error hResult
  | ok value =>
      rw [hResult] at hError
      exact hRest value hResult session error hError

theorem Errs.mapError {convert : δ → ε} (action : Online δ α)
    (h : ∀ error, Blames (convert error)) : Errs Blames (mapError convert action) := by
  intro session error hError
  rw [run_mapError] at hError
  rcases hAction : action.run session with ⟨found | value, after⟩
  · rw [hAction] at hError
    cases hError
    exact h found
  · rw [hAction] at hError
    cases hError

theorem Errs.checkCancelled {cancelled : ε} {rest : Unit → Online ε α} (h : Blames cancelled)
    (hRest : Errs Blames (rest ())) : Errs Blames (checkCancelled cancelled >>= rest) := by
  intro session error hError
  rw [run_checkCancelled] at hError
  cases hCancelled : session.cancelled with
  | true =>
      rw [hCancelled] at hError
      cases hError
      exact h
  | false =>
      rw [hCancelled] at hError
      exact hRest session error hError

end SourceIndex.Http.Online

namespace SourceIndex.Run

open Http Http.Online
open SourceIndex.Embedding (Embedder Mock)

/-- The errors of a run, by the stages that they come from. -/
inductive Blamed (bench : Workbench) (plan : RunPlan) (standIn : Option Mock) :
    RunError → Prop where
  | cancelled : Blamed bench plan standIn .cancelled
  | fetching (error : FetchError) : Blamed bench plan standIn (.ofFetch error)
  | choosing {error : RunError} : chosen bench plan standIn = .error error →
      Blamed bench plan standIn error
  | embedding {embedder : Embedder} (error : EmbedError) :
      chosen bench plan standIn = .ok (some embedder) → Blamed bench plan standIn (.ofEmbed error)

section Blame

variable {bench : Workbench} {plan : RunPlan} {standIn : Option Mock} {world : World}

theorem blamed_of_connected {error : RunError} (h : connected bench plan = .error error) :
    Blamed bench plan standIn error := by
  unfold connected at h
  cases hConnect : GitHub.connect plan.githubToken bench.settings.github with
  | error found =>
      rw [hConnect] at h
      cases h
      exact .fetching found
  | ok service =>
      rw [hConnect] at h
      cases h

theorem embedding_errs {embedder : Option Embedder} (chunks : List Chunk)
    (hChosen : chosen bench plan standIn = .ok embedder) :
    Errs (Blamed bench plan standIn) (embedding bench chunks embedder world) := by
  cases embedder with
  | none => exact Errs.pure _
  | some embedder =>
      exact (Errs.mapError _ fun error => .embedding error hChosen).bind fun report =>
        Errs.pure (some report)

theorem planned_errs : Errs (Blamed bench plan standIn) (planned bench plan standIn world) := by
  unfold planned staged proceeding building
  refine Errs.checkCancelled .cancelled ?_
  refine Errs.bind_ofExcept (fun _ => blamed_of_connected) fun service _ => ?_
  refine (Errs.mapError _ .fetching).bind fun commit => ?_
  refine (Errs.mapError _ .fetching).bind fun listing => ?_
  refine Errs.bind_ofExcept (fun _ => .choosing) fun embedder hChosen => ?_
  refine (Errs.mapError _ .fetching).bind fun fetched => ?_
  exact (embedding_errs _ hChosen).bind fun embedded => Errs.pure _

/-- **Each error of a run comes from one of its stages.** -/
theorem run_blamed {state : RunState} {error : RunError}
    (h : (plan.run bench world state).1 = .error error) :
    Blamed bench plan state.standIn error := by
  rw [(run_shows plan bench world state).1] at h
  exact planned_errs state.session error h

/-- Without embeddings only cancelling and the repository make a run fail. -/
theorem Blamed.of_unembedded {error : RunError} (h : Blamed bench plan standIn error)
    (hNeeds : plan.format.needsEmbeddings = false) :
    error = .cancelled ∨ ∃ found, error = .ofFetch found := by
  have hChosen : chosen bench plan standIn = .ok none := chosen_of_unembedded standIn hNeeds
  cases h with
  | cancelled => exact .inl rfl
  | fetching found => exact .inr ⟨found, rfl⟩
  | choosing hError =>
      rw [hChosen] at hError
      cases hError
  | embedding _ hSome =>
      rw [hChosen] at hSome
      cases hSome

/-- Only the choice of the embedder finds fault with a configuration. -/
theorem Blamed.config {detail : String} (h : Blamed bench plan standIn (.config detail)) :
    chosen bench plan standIn = .error (.config detail) := by
  generalize hError : RunError.config detail = error at h
  cases h with
  | cancelled => cases hError
  | fetching found => cases found <;> cases hError
  | choosing hChosen => exact hChosen
  | embedding found _ => cases found <;> cases hError

end Blame

end SourceIndex.Run
