import SourceIndex.RunPlan

/-!
# Valid requests

A request is valid exactly when it passes each check, whatever the order of the
checks; its plan is made of what they have found.

## Main results

* `ofRequest_eq_ok_iff` — which requests are valid, with their plans.
* `repository_of_ofRequest`, `secrets_of_ofRequest` — what a plan takes from its
  request.
* `fault_of_ofRequest` — what can be wrong with a request.
-/

namespace SourceIndex.RunPlan

section Checks

variable {ε δ α β : Type}

theorem bind_eq_ok_iff {found : Except ε α} {rest : α → Except ε β} {value : β} :
    (found >>= rest) = .ok value ↔ ∃ first, found = .ok first ∧ rest first = .ok value := by
  cases found with
  | error error =>
      constructor
      · intro h
        cases h
      · rintro ⟨_, h, _⟩
        cases h
  | ok first =>
      constructor
      · exact fun h => ⟨first, rfl, h⟩
      · rintro ⟨_, h, hRest⟩
        cases h
        exact hRest

theorem mapError_eq_ok_iff {convert : ε → δ} {found : Except ε α} {value : α} :
    found.mapError convert = .ok value ↔ found = .ok value := by
  cases found with
  | error error =>
      constructor
      · intro h
        cases h
      · intro h
        cases h
  | ok first =>
      constructor
      · intro h
        cases h
        rfl
      · intro h
        cases h
        rfl

theorem requireText_eq_ok_iff {field value : String} {passed : Unit} :
    requireText field value = .ok passed ↔ Text.isBlankText value = false := by
  unfold requireText
  cases Text.isBlankText value with
  | true => simp
  | false => simp

theorem requireName_eq_ok_iff {field name choices : String} {found : Option α} {value : α} :
    requireName field name choices found = .ok value ↔ found = some value := by
  cases found with
  | none => simp [requireName]
  | some first => simp [requireName]

/-- A check that finds nothing. -/
theorem unless_eq_ok_iff {refused : Prop} [Decidable refused] {error : ε} {value result : α} :
    (if refused then (do throw error; pure value) else pure value : Except ε α) = .ok result ↔
      ¬ refused ∧ value = result := by
  by_cases h : refused
  · rw [if_pos h]
    constructor
    · intro hThrown
      cases hThrown
    · intro hPassed
      exact absurd h hPassed.1
  · rw [if_neg h]
    constructor
    · intro hPassed
      exact ⟨h, Except.ok.inj hPassed⟩
    · rintro ⟨_, rfl⟩
      rfl

end Checks

/-- The plan of a request whose names and lists mean these. -/
def checked (request : IndexRequest) (environment : Environment) (strategy : Strategy)
    (format : OutputFormat) (provider : Provider) (filter : FileFilter) : RunPlan :=
  { repository :=
      { owner := Text.trimmed request.owner, repo := Text.trimmed request.repo
        branch := Text.trimmed request.branch }
    githubToken := (firstNonBlank? (githubSources request environment)).getD ⟨""⟩
    openaiApiKey := firstNonBlank? (openaiSources request environment)
    provider
    format
    maxFiles := request.maxFiles
    filter
    options := { strategy, docstrings := request.includeDocstrings } }

variable {request : IndexRequest} {environment : Environment} {plan : RunPlan}

/-- **A request is valid exactly when it passes each check.** -/
theorem ofRequest_eq_ok_iff :
    ofRequest request environment = .ok plan ↔
      Text.isBlankText request.owner = false ∧ Text.isBlankText request.repo = false ∧
      Text.isBlankText request.branch = false ∧
      ∃ strategy format provider filter,
        Strategy.ofName? request.chunkStrategy = some strategy ∧
        OutputFormat.ofName? request.outputFormat = some format ∧
        Provider.ofName? request.embeddingProvider = some provider ∧
        FileFilter.ofLists request.fileExtensions request.excludePatterns = .ok filter ∧
        ¬ (provider = .openAi ∧ format.needsEmbeddings = true ∧
          firstNonBlank? (openaiSources request environment) = none) ∧
        checked request environment strategy format provider filter = plan := by
  unfold ofRequest checked
  simp only [bind_eq_ok_iff, requireText_eq_ok_iff, requireName_eq_ok_iff, mapError_eq_ok_iff,
    unless_eq_ok_iff, exists_const, exists_and_left]

/-- A plan is made of what the checks have found. -/
theorem exists_checked_eq (h : ofRequest request environment = .ok plan) :
    ∃ strategy format provider filter,
      checked request environment strategy format provider filter = plan := by
  obtain ⟨_, _, _, strategy, format, provider, filter, _, _, _, _, _, hPlan⟩ :=
    ofRequest_eq_ok_iff.mp h
  exact ⟨strategy, format, provider, filter, hPlan⟩

/-- The repository of a plan is that of its request, trimmed. -/
theorem repository_of_ofRequest (h : ofRequest request environment = .ok plan) :
    plan.repository =
      { owner := Text.trimmed request.owner, repo := Text.trimmed request.repo
        branch := Text.trimmed request.branch } := by
  obtain ⟨strategy, format, provider, filter, rfl⟩ := exists_checked_eq h
  rfl

/-- The secrets of a plan are those that its request finds first. -/
theorem secrets_of_ofRequest (h : ofRequest request environment = .ok plan) :
    plan.githubToken = (firstNonBlank? (githubSources request environment)).getD ⟨""⟩ ∧
      plan.openaiApiKey = firstNonBlank? (openaiSources request environment) := by
  obtain ⟨strategy, format, provider, filter, rfl⟩ := exists_checked_eq h
  exact ⟨rfl, rfl⟩

/-! ## Faults -/

/-- What can be wrong with a request. -/
inductive Fault (request : IndexRequest) : RunError → Prop where
  | blank (field : String) : Fault request (.config ("`" ++ field ++ "` must not be empty"))
  | unknown (field name choices : String) :
      Fault request
        (.config ("unknown " ++ field ++ " `" ++ name ++ "` (expected " ++ choices ++ ")"))
  | noExtension : Fault request (.ofIndex .noExtension)
  | noKey {format : OutputFormat} : OutputFormat.ofName? request.outputFormat = some format →
      format.needsEmbeddings = true → Fault request missingKey

section Faults

variable {error : RunError}

theorem bind_eq_error {ε α β : Type} {found : Except ε α} {rest : α → Except ε β} {error : ε}
    (h : (found >>= rest) = .error error) :
    found = .error error ∨ ∃ first, found = .ok first ∧ rest first = .error error := by
  cases found with
  | error other => exact .inl (congrArg Except.error (Except.error.inj h))
  | ok first => exact .inr ⟨first, rfl, h⟩

theorem fault_of_requireText {field value : String}
    (h : requireText field value = .error error) : Fault request error := by
  unfold requireText at h
  split at h
  · cases h
    exact .blank field
  · cases h

theorem fault_of_requireName {α : Type} {field name choices : String} {found : Option α}
    (h : requireName field name choices found = .error error) : Fault request error := by
  cases found with
  | none =>
      cases h
      exact .unknown field name choices
  | some value => cases h

theorem fault_of_ofLists {extensions exclude : List String}
    (h : (FileFilter.ofLists extensions exclude).mapError RunError.ofIndex = .error error) :
    Fault request error := by
  unfold FileFilter.ofLists at h
  dsimp only at h
  split at h
  · cases h
    exact .noExtension
  · cases h

/-- **Each check that refuses a request finds one of these faults.** -/
theorem fault_of_ofRequest (h : ofRequest request environment = .error error) :
    Fault request error := by
  unfold ofRequest at h
  rcases bind_eq_error h with hOwner | ⟨_, _, h⟩
  · exact fault_of_requireText hOwner
  rcases bind_eq_error h with hRepo | ⟨_, _, h⟩
  · exact fault_of_requireText hRepo
  rcases bind_eq_error h with hBranch | ⟨_, _, h⟩
  · exact fault_of_requireText hBranch
  rcases bind_eq_error h with hStrategy | ⟨strategy, _, h⟩
  · exact fault_of_requireName hStrategy
  rcases bind_eq_error h with hFormat | ⟨format, hFormat, h⟩
  · exact fault_of_requireName hFormat
  rcases bind_eq_error h with hProvider | ⟨provider, _, h⟩
  · exact fault_of_requireName hProvider
  rcases bind_eq_error h with hFilter | ⟨filter, _, h⟩
  · exact fault_of_ofLists hFilter
  dsimp only at h
  split at h
  · next hMissing =>
      cases h
      exact .noKey (requireName_eq_ok_iff.mp hFormat) hMissing.2.1
  · cases h

/-- What is wrong with a request is its configuration. -/
theorem Fault.config (h : Fault request error) : ∃ detail, error = .config detail := by
  cases h with
  | blank field => exact ⟨_, rfl⟩
  | unknown field name choices => exact ⟨_, rfl⟩
  | noExtension => exact ⟨_, rfl⟩
  | noKey _ _ => exact ⟨_, rfl⟩

/-- A missing key is told apart from all other faults. -/
theorem Fault.needsEmbeddings (h : Fault request missingKey) :
    ∃ format, OutputFormat.ofName? request.outputFormat = some format ∧
      format.needsEmbeddings = true := by
  generalize hError : missingKey = error at h
  -- The messages of the faults begin with different signs.
  have hFirst : ∀ {detail : String}, missingKey = .config detail →
      detail.toList.head? = some 'a' ∧ detail.toList[1]? = some 'n' := by
    intro detail hDetail
    cases hDetail
    exact ⟨rfl, rfl⟩
  cases h with
  | blank field => simpa using (hFirst hError).1
  | unknown field name choices => simpa using (hFirst hError).1
  | noExtension => simpa using (hFirst hError).2
  | noKey hFormat hNeeds => exact ⟨_, hFormat, hNeeds⟩

end Faults

end SourceIndex.RunPlan
