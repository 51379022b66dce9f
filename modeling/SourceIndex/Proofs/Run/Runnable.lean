import SourceIndex.Proofs.Run.Validation
import SourceIndex.Proofs.Selection

/-!
# Which requests can be run

The checks of a request are the steps of one computation, and each of them
prepares what a plan needs.  Here they are eight conditions on the request and
its environment, each of which can be read alone: none of them says how blanks
are found, names are compared or secrets are collected.  Their order matters
only to the error, which is that of the first condition that does not hold.

## Main results

* `firstNonBlank?_eq_some_iff`, `firstNonBlank?_three_iff` — which of several secrets is
  used, and which of three.
* `ofRequest_examines` — the conditions are examined one after the other.
* `planned_of_ofRequest` — what a plan takes from its request.
* `ofRequest_runnable` — which requests can be run, with their plans and with
  the errors of the others.
-/

namespace SourceIndex

/-! ## Names -/

section Names

variable {text : String}

theorem Strategy.ofName?_eq_some_iff {strategy : Strategy} :
    ofName? text = some strategy ↔ Text.Spells text strategy.name := by
  rw [Text.spells_iff, ofName?]
  generalize Text.normalizedName text = found
  split
  · cases strategy <;> simp [name]
  · cases strategy <;> simp [name]
  · cases strategy <;> simp [name]
  · cases strategy <;> simp_all [name]

theorem OutputFormat.ofName?_eq_some_iff {format : OutputFormat} :
    ofName? text = some format ↔ Text.Spells text format.name := by
  rw [Text.spells_iff, ofName?]
  generalize Text.normalizedName text = found
  split
  · cases format <;> simp [name]
  · cases format <;> simp [name]
  · cases format <;> simp [name]
  · cases format <;> simp [name]
  · cases format <;> simp_all [name]

/-- The formats that need embeddings, by their names. -/
theorem OutputFormat.needsEmbeddings_iff {format : OutputFormat}
    (h : ofName? text = some format) :
    format.needsEmbeddings = true ↔
      Text.Spells text "chunks_embeddings" ∨ Text.Spells text "full" := by
  have hSpells : ∀ other : OutputFormat, Text.Spells text other.name ↔ format = other := by
    intro other
    rw [← ofName?_eq_some_iff, h, Option.some.injEq]
  have hEmbeddings : Text.Spells text "chunks_embeddings" ↔ format = chunksEmbeddings :=
    hSpells chunksEmbeddings
  have hFull : Text.Spells text "full" ↔ format = full := hSpells full
  rw [hEmbeddings, hFull]
  cases format <;> simp [needsEmbeddings]

theorem Provider.ofName?_eq_some_iff {provider : Provider} :
    ofName? text = some provider ↔ Text.Spells text provider.name := by
  rw [Text.spells_iff, ofName?]
  generalize Text.normalizedName text = found
  split
  · cases provider <;> simp [name]
  · cases provider <;> simp [name]
  · cases provider <;> simp_all [name]

end Names

namespace RunPlan

/-! ## Secrets -/

/-- A text with a character that is no blank. -/
def Filled (text : String) : Prop := ∃ c ∈ text.toList, Text.isBlank c = false

theorem isBlankText_eq_false_iff {text : String} :
    Text.isBlankText text = false ↔ Filled text := by
  simp [Text.isBlankText, Text.allBlank, Filled]

/-- The first secret among some sources that is not blank. -/
def FirstFilled (sources : List (Option Secret)) (secret : Secret) : Prop :=
  ∃ earlier later, sources = earlier ++ some secret :: later ∧ Filled secret.exposed ∧
    ∀ other, some other ∈ earlier → ¬ Filled other.exposed

/-- Which secret is used of one that is nested in a request, one in a field of
its own and the value of a variable: the first that is not blank. -/
inductive Supplies (nested flat : Option Secret) (exported : Option String) : Secret → Prop where
  | nested {secret : Secret} (given : nested = some secret) (filled : Filled secret.exposed) :
    Supplies nested flat exported secret
  | flat {secret : Secret} (unnested : ∀ other, nested = some other → ¬ Filled other.exposed)
    (given : flat = some secret) (filled : Filled secret.exposed) :
    Supplies nested flat exported secret
  | exported {text : String} (unnested : ∀ other, nested = some other → ¬ Filled other.exposed)
    (unflat : ∀ other, flat = some other → ¬ Filled other.exposed)
    (given : exported = some text) (filled : Filled text) :
    Supplies nested flat exported ⟨text⟩

section Secrets

variable {sources : List (Option Secret)} {secret : Secret}

theorem firstFilled_cons_iff {source : Option Secret} :
    FirstFilled (source :: sources) secret ↔
      (source = some secret ∧ Filled secret.exposed) ∨
        (∀ other, source = some other → ¬ Filled other.exposed) ∧ FirstFilled sources secret := by
  constructor
  · rintro ⟨earlier, later, hSources, hFilled, hEarlier⟩
    cases earlier with
    | nil =>
        cases hSources
        exact .inl ⟨rfl, hFilled⟩
    | cons first earlier =>
        cases hSources
        refine .inr ⟨fun other hOther => hEarlier other (by simp [hOther]), ?_⟩
        exact ⟨earlier, later, rfl, hFilled, fun other hOther => hEarlier other (by simp [hOther])⟩
  · rintro (⟨rfl, hFilled⟩ | ⟨hSource, earlier, later, rfl, hFilled, hEarlier⟩)
    · exact ⟨[], sources, rfl, hFilled, by simp⟩
    · refine ⟨source :: earlier, later, rfl, hFilled, ?_⟩
      intro other hOther
      rcases List.mem_cons.mp hOther with hHere | hLater
      · exact hSource other hHere.symm
      · exact hEarlier other hLater

/-- **Which of several secrets is used.** -/
theorem firstNonBlank?_eq_some_iff :
    firstNonBlank? sources = some secret ↔ FirstFilled sources secret := by
  induction sources with
  | nil => simp [firstNonBlank?, FirstFilled]
  | cons source rest ih =>
      rw [firstFilled_cons_iff, ← ih]
      cases source with
      | none => simp [firstNonBlank?]
      | some found =>
          by_cases hFilled : Filled found.exposed
          · have hKept : found.isBlank = false := isBlankText_eq_false_iff.mpr hFilled
            have hSame : found = secret → Filled secret.exposed := by
              rintro rfl
              exact hFilled
            simpa [firstNonBlank?, hKept, hFilled] using hSame
          · have hPassed : found.isBlank = true := by
              simpa [Secret.isBlank, ← isBlankText_eq_false_iff] using hFilled
            have hRest : firstNonBlank? (some found :: rest) = firstNonBlank? rest := by
              simp [firstNonBlank?, hPassed]
            have hOther : ¬ (some found = some secret ∧ Filled secret.exposed) := by
              rintro ⟨hSame, hSecret⟩
              cases hSame
              exact hFilled hSecret
            rw [hRest, or_iff_right hOther]
            simp [hFilled]

end Secrets

section Three

variable {nested flat : Option Secret} {exported : Option String} {secret : Secret}

/-- **Which of three secrets is used.** -/
theorem firstNonBlank?_three_iff :
    firstNonBlank? [nested, flat, exported.map Secret.mk] = some secret ↔
      Supplies nested flat exported secret := by
  have hNone : ¬ FirstFilled [] secret := by simp [FirstFilled]
  rw [firstNonBlank?_eq_some_iff, firstFilled_cons_iff, firstFilled_cons_iff, firstFilled_cons_iff]
  constructor
  · rintro (⟨hGiven, hFilled⟩ | ⟨hNested, ⟨hGiven, hFilled⟩ | ⟨hFlat, ⟨hGiven, hFilled⟩ | ⟨-, h⟩⟩⟩)
    · exact .nested hGiven hFilled
    · exact .flat hNested hGiven hFilled
    · obtain ⟨text, hText, rfl⟩ := Option.map_eq_some_iff.mp hGiven
      exact .exported hNested hFlat hText hFilled
    · exact absurd h hNone
  · rintro (⟨hGiven, hFilled⟩ | ⟨hNested, hGiven, hFilled⟩ | ⟨hNested, hFlat, hGiven, hFilled⟩)
    · exact .inl ⟨hGiven, hFilled⟩
    · exact .inr ⟨hNested, .inl ⟨hGiven, hFilled⟩⟩
    · refine .inr ⟨hNested, .inr ⟨hFlat, .inl ⟨?_, hFilled⟩⟩⟩
      rw [hGiven]
      rfl

/-- One of three secrets is used when any of them is not blank. -/
theorem exists_supplies_iff :
    (∃ secret, Supplies nested flat exported secret) ↔
      (∃ secret, nested = some secret ∧ Filled secret.exposed) ∨
      (∃ secret, flat = some secret ∧ Filled secret.exposed) ∨
      ∃ text, exported = some text ∧ Filled text := by
  constructor
  · rintro ⟨_, ⟨hGiven, hFilled⟩ | ⟨_, hGiven, hFilled⟩ | ⟨_, _, hGiven, hFilled⟩⟩
    · exact .inl ⟨_, hGiven, hFilled⟩
    · exact .inr (.inl ⟨_, hGiven, hFilled⟩)
    · exact .inr (.inr ⟨_, hGiven, hFilled⟩)
  · intro h
    by_cases hNested : ∃ secret, nested = some secret ∧ Filled secret.exposed
    · obtain ⟨secret, hGiven, hFilled⟩ := hNested
      exact ⟨secret, .nested hGiven hFilled⟩
    have hUnnested : ∀ other, nested = some other → ¬ Filled other.exposed :=
      fun other hGiven hFilled => hNested ⟨other, hGiven, hFilled⟩
    by_cases hFlat : ∃ secret, flat = some secret ∧ Filled secret.exposed
    · obtain ⟨secret, hGiven, hFilled⟩ := hFlat
      exact ⟨secret, .flat hUnnested hGiven hFilled⟩
    obtain ⟨text, hGiven, hFilled⟩ := (h.resolve_left hNested).resolve_left hFlat
    exact ⟨⟨text⟩, .exported hUnnested
      (fun other hGiven hFilled => hFlat ⟨other, hGiven, hFilled⟩) hGiven hFilled⟩

end Three

/-! ## Conditions -/

/-- What a request must be like to be run. -/
inductive Condition where
  | owner
  | repo
  | branch
  | strategy
  | format
  | provider
  | extension
  | key
deriving DecidableEq

namespace Condition

/-- Conditions with lower numbers are examined first. -/
def number : Condition → Nat
  | owner => 0
  | repo => 1
  | branch => 2
  | strategy => 3
  | format => 4
  | provider => 5
  | extension => 6
  | key => 7

/-- What a condition asks of a request and its environment. -/
def Holds (request : IndexRequest) (environment : Environment) : Condition → Prop
  | owner => Filled request.owner
  | repo => Filled request.repo
  | branch => Filled request.branch
  | strategy => ∃ name ∈ ["file", "class", "function"], Text.Spells request.chunkStrategy name
  | format => ∃ name ∈ ["metadata", "chunks", "chunks_embeddings", "full"],
      Text.Spells request.outputFormat name
  | provider => ∃ name ∈ ["local", "openai"], Text.Spells request.embeddingProvider name
  | extension => ∃ extension ∈ request.fileExtensions, ¬ FileFilter.Names extension []
  | key => Text.Spells request.embeddingProvider "openai" →
      (Text.Spells request.outputFormat "chunks_embeddings" ∨
        Text.Spells request.outputFormat "full") →
        (∃ secret, request.credentials.openaiApiKey = some secret ∧ Filled secret.exposed) ∨
        (∃ secret, request.openaiApiKey = some secret ∧ Filled secret.exposed) ∨
        ∃ text, environment "OPENAI_API_KEY" = some text ∧ Filled text

/-- What is wrong with a request that does not meet a condition. -/
def error (request : IndexRequest) : Condition → RunError
  | owner => .config "`owner` must not be empty"
  | repo => .config "`repo` must not be empty"
  | branch => .config "`branch` must not be empty"
  | strategy => .config ("unknown chunkStrategy `" ++ request.chunkStrategy ++
      "` (expected file, class or function)")
  | format => .config ("unknown outputFormat `" ++ request.outputFormat ++
      "` (expected metadata, chunks, chunks_embeddings or full)")
  | provider => .config ("unknown embeddingProvider `" ++ request.embeddingProvider ++
      "` (expected local or openai)")
  | extension => .config "at least one file extension is required"
  | key => .config "an OpenAI API key is required for openai embeddings"

/-- The first condition from a number on that a request does not meet. -/
structure Violated (request : IndexRequest) (environment : Environment) (start : Nat)
    (condition : Condition) : Prop where
  among : start ≤ condition.number
  fails : ¬ condition.Holds request environment
  first : ∀ earlier : Condition, start ≤ earlier.number → earlier.number < condition.number →
    earlier.Holds request environment

theorem number_inj {condition other : Condition} :
    condition.number = other.number ↔ condition = other := by
  cases condition <;> cases other <;> decide

/-- Only one condition is the first that a request does not meet. -/
theorem Violated.unique {request : IndexRequest} {environment : Environment} {start : Nat}
    {condition other : Condition} (h : Violated request environment start condition)
    (hOther : Violated request environment start other) : condition = other := by
  have hLe : ¬ condition.number < other.number :=
    fun hLess => h.fails (hOther.first condition h.among hLess)
  have hGe : ¬ other.number < condition.number :=
    fun hLess => hOther.fails (h.first other hOther.among hLess)
  exact number_inj.mp (by omega)

end Condition

/-- What a plan takes from a valid request and its environment. -/
structure Planned (request : IndexRequest) (environment : Environment) (plan : RunPlan) :
    Prop where
  owner : Text.Trims request.owner.toList plan.repository.owner.toList
  repo : Text.Trims request.repo.toList plan.repository.repo.toList
  branch : Text.Trims request.branch.toList plan.repository.branch.toList
  githubToken : ∀ secret,
    Supplies request.credentials.githubToken request.githubToken (environment "GITHUB_TOKEN")
      secret → plan.githubToken = secret
  /-- Without a token the plan has an empty one. -/
  noToken : (¬ ∃ secret, Supplies request.credentials.githubToken request.githubToken
    (environment "GITHUB_TOKEN") secret) → plan.githubToken = ⟨""⟩
  openaiApiKey : ∀ secret, plan.openaiApiKey = some secret ↔
    Supplies request.credentials.openaiApiKey request.openaiApiKey
      (environment "OPENAI_API_KEY") secret
  strategy : Text.Spells request.chunkStrategy plan.options.strategy.name
  format : Text.Spells request.outputFormat plan.format.name
  provider : Text.Spells request.embeddingProvider plan.provider.name
  docstrings : plan.options.docstrings = request.includeDocstrings
  maxFiles : plan.maxFiles = request.maxFiles
  filter : FileFilter.ofLists request.fileExtensions request.excludePatterns = .ok plan.filter
  accepts : ∀ path, plan.filter.accepts path = true ↔
    FileFilter.Selects request.fileExtensions request.excludePatterns path

variable {request : IndexRequest} {environment : Environment} {plan : RunPlan}

/-! ## Checks -/

/-- A check succeeds when a condition holds, and otherwise says that it does
not. -/
structure Decides {α : Type} (request : IndexRequest) (environment : Environment)
    (condition : Condition) (found : Except RunError α) : Prop where
  ok : ∀ value, found = .ok value → condition.Holds request environment
  error : ∀ error, found = .error error →
    ¬ condition.Holds request environment ∧ condition.error request = error

/-- Checks one after the other, of the conditions from a number on. -/
structure Examines {α : Type} (request : IndexRequest) (environment : Environment) (start : Nat)
    (found : Except RunError α) : Prop where
  ok : ∀ value, found = .ok value → ∀ condition : Condition, start ≤ condition.number →
    condition.Holds request environment
  error : ∀ error, found = .error error → ∃ condition : Condition,
    condition.Violated request environment start ∧ condition.error request = error

section Checks

variable {α β : Type} {condition : Condition} {found : Except RunError α}

/-- **A check and those after it.** -/
theorem Decides.bind {rest : α → Except RunError β}
    (h : Decides request environment condition found)
    (hRest : ∀ value, found = .ok value →
      Examines request environment (condition.number + 1) (rest value)) :
    Examines request environment condition.number (found >>= rest) := by
  -- The conditions from the number on are this one and those beyond it.
  have hFrom : ∀ {other : Condition}, condition.number ≤ other.number →
      other = condition ∨ condition.number + 1 ≤ other.number := by
    intro other hOther
    rw [← Condition.number_inj]
    omega
  cases found with
  | error error =>
      obtain ⟨hFails, hError⟩ := h.error error rfl
      refine ⟨fun value hValue => (by cases hValue), ?_⟩
      intro other hOther
      cases hOther
      refine ⟨condition, ⟨Nat.le_refl _, hFails, ?_⟩, hError⟩
      intro earlier hStart hEarlier
      exact absurd hEarlier (Nat.not_lt.mpr hStart)
  | ok value =>
      have hHolds := h.ok value rfl
      have hLater := hRest value rfl
      constructor
      · intro result hResult other hOther
        rcases hFrom hOther with rfl | hBeyond
        · exact hHolds
        · exact hLater.ok result hResult other hBeyond
      · intro error hError
        obtain ⟨failing, ⟨hStart, hFails, hFirst⟩, hSame⟩ := hLater.error error hError
        refine ⟨failing, ⟨by omega, hFails, ?_⟩, hSame⟩
        intro earlier hEarlier hLess
        rcases hFrom hEarlier with rfl | hBeyond
        · exact hHolds
        · exact hFirst earlier hBeyond hLess

/-- The last check. -/
theorem Decides.last (h : Decides request environment .key found) :
    Examines request environment Condition.key.number found := by
  have hOnly : ∀ {other : Condition}, Condition.key.number ≤ other.number → other = .key := by
    intro other hOther
    cases other <;> simp [Condition.number] at hOther ⊢
  constructor
  · intro value hValue other hOther
    rw [hOnly hOther]
    exact h.ok value hValue
  · intro error hError
    obtain ⟨hFails, hSame⟩ := h.error error hError
    exact ⟨.key, ⟨Nat.le_refl _, hFails, fun earlier hStart hLess => by omega⟩, hSame⟩

theorem requireText_decides {field value : String}
    (hHolds : condition.Holds request environment ↔ Filled value)
    (hError : condition.error request = .config ("`" ++ field ++ "` must not be empty")) :
    Decides request environment condition (requireText field value) := by
  rw [← isBlankText_eq_false_iff] at hHolds
  by_cases hBlank : Text.isBlankText value = true
  · rw [requireText, if_pos hBlank]
    refine ⟨fun value hValue => (by cases hValue), ?_⟩
    intro error hSame
    cases hSame
    exact ⟨by simp [hHolds, hBlank], hError⟩
  · rw [requireText, if_neg hBlank]
    refine ⟨fun value _ => by simp [hHolds, hBlank], ?_⟩
    intro error hSame
    cases hSame

theorem requireName_decides {field text choices : String} {found : Option α} {nameOf : α → String}
    (values : List α) (hAll : ∀ value, value ∈ values)
    (hHolds : condition.Holds request environment ↔
      ∃ name ∈ values.map nameOf, Text.Spells text name)
    (hFound : ∀ value, found = some value ↔ Text.Spells text (nameOf value))
    (hError : condition.error request =
      .config ("unknown " ++ field ++ " `" ++ text ++ "` (expected " ++ choices ++ ")")) :
    Decides request environment condition (requireName field text choices found) := by
  have hKnown : (∃ name ∈ values.map nameOf, Text.Spells text name) ↔
      ∃ value, found = some value := by
    constructor
    · rintro ⟨name, hName, hSpells⟩
      obtain ⟨value, _, rfl⟩ := List.mem_map.mp hName
      exact ⟨value, (hFound value).mpr hSpells⟩
    · rintro ⟨value, hValue⟩
      exact ⟨nameOf value, List.mem_map_of_mem (hAll value), (hFound value).mp hValue⟩
  rw [hKnown] at hHolds
  cases found with
  | none =>
      refine ⟨fun value hValue => (by cases hValue), ?_⟩
      intro error hSame
      cases hSame
      exact ⟨by simp [hHolds], hError⟩
  | some value =>
      refine ⟨fun other _ => by simp [hHolds], ?_⟩
      intro error hSame
      cases hSame

theorem ofLists_decides :
    Decides request environment .extension
      ((FileFilter.ofLists request.fileExtensions request.excludePatterns).mapError .ofIndex) := by
  rcases FileFilter.ofLists_cases request.fileExtensions request.excludePatterns with
    ⟨hNone, hError⟩ | ⟨hSome, filter, hOk, -⟩
  · rw [hError]
    refine ⟨fun value hValue => (by cases hValue), ?_⟩
    intro error hSame
    cases hSame
    refine ⟨?_, rfl⟩
    rintro ⟨extension, hMem, hNames⟩
    exact hNames (hNone extension hMem)
  · rw [hOk]
    refine ⟨fun _ _ => hSome, ?_⟩
    intro error hSame
    cases hSame

theorem key_decides {format : OutputFormat} {provider : Provider} {value : α}
    (hFormat : OutputFormat.ofName? request.outputFormat = some format)
    (hProvider : Provider.ofName? request.embeddingProvider = some provider) :
    Decides request environment .key
      (if provider = .openAi ∧ format.needsEmbeddings = true ∧
          firstNonBlank? (openaiSources request environment) = none then
        (do throw missingKey; pure value)
      else pure value) := by
  have hSpelled : Text.Spells request.embeddingProvider "openai" ↔ provider = .openAi := by
    have hOpenAi : Text.Spells request.embeddingProvider Provider.openAi.name ↔
        provider = .openAi := by
      rw [← Provider.ofName?_eq_some_iff, hProvider, Option.some.injEq]
    exact hOpenAi
  have hFound : (∃ secret, firstNonBlank? (openaiSources request environment) = some secret) ↔ _ :=
    (exists_congr fun _ => firstNonBlank?_three_iff).trans exists_supplies_iff
  by_cases hRefused : provider = .openAi ∧ format.needsEmbeddings = true ∧
      firstNonBlank? (openaiSources request environment) = none
  · rw [if_pos hRefused]
    refine ⟨fun value hValue => (by cases hValue), ?_⟩
    intro error hSame
    cases hSame
    refine ⟨?_, rfl⟩
    intro hHolds
    obtain ⟨rfl, hNeeds, hNone⟩ := hRefused
    have hGiven := hHolds (hSpelled.mpr rfl) ((OutputFormat.needsEmbeddings_iff hFormat).mp hNeeds)
    obtain ⟨secret, hFirst⟩ := hFound.mpr hGiven
    rw [hNone] at hFirst
    cases hFirst
  · rw [if_neg hRefused]
    constructor
    · intro _ _ hName hNeeds
      cases hFirst : firstNonBlank? (openaiSources request environment) with
      | none =>
          refine absurd ⟨hSpelled.mp hName, ?_, hFirst⟩ hRefused
          exact (OutputFormat.needsEmbeddings_iff hFormat).mpr hNeeds
      | some secret => exact hFound.mp ⟨secret, hFirst⟩
    · intro error hSame
      cases hSame

end Checks

/-- **The conditions are examined one after the other.** -/
theorem ofRequest_examines :
    Examines request environment 0 (ofRequest request environment) := by
  unfold ofRequest
  have hOwner : Decides request environment .owner (requireText "owner" request.owner) :=
    requireText_decides Iff.rfl rfl
  refine hOwner.bind fun _ _ => ?_
  have hRepo : Decides request environment .repo (requireText "repo" request.repo) :=
    requireText_decides Iff.rfl rfl
  refine hRepo.bind fun _ _ => ?_
  have hBranch : Decides request environment .branch (requireText "branch" request.branch) :=
    requireText_decides Iff.rfl rfl
  refine hBranch.bind fun _ _ => ?_
  have hStrategy : Decides request environment .strategy
      (requireName "chunkStrategy" request.chunkStrategy "file, class or function"
        (Strategy.ofName? request.chunkStrategy)) :=
    requireName_decides [.wholeFile, .classes, .functions] (by rintro ⟨⟩ <;> decide) Iff.rfl
      (fun _ => Strategy.ofName?_eq_some_iff)
      (by simp [Condition.error, String.append_assoc])
  refine hStrategy.bind fun _ _ => ?_
  have hFormat : Decides request environment .format
      (requireName "outputFormat" request.outputFormat
        "metadata, chunks, chunks_embeddings or full"
        (OutputFormat.ofName? request.outputFormat)) :=
    requireName_decides [.metadata, .chunks, .chunksEmbeddings, .full]
      (by rintro ⟨⟩ <;> decide) Iff.rfl (fun _ => OutputFormat.ofName?_eq_some_iff)
      (by simp [Condition.error, String.append_assoc])
  refine hFormat.bind fun format hFormatOk => ?_
  have hProvider : Decides request environment .provider
      (requireName "embeddingProvider" request.embeddingProvider "local or openai"
        (Provider.ofName? request.embeddingProvider)) :=
    requireName_decides [.localModel, .openAi] (by rintro ⟨⟩ <;> decide) Iff.rfl
      (fun _ => Provider.ofName?_eq_some_iff)
      (by simp [Condition.error, String.append_assoc])
  refine hProvider.bind fun provider hProviderOk => ?_
  refine ofLists_decides.bind fun _ _ => ?_
  exact (key_decides (requireName_eq_ok_iff.mp hFormatOk)
    (requireName_eq_ok_iff.mp hProviderOk)).last

/-! ## Plans -/

theorem planned_of_ofRequest (h : ofRequest request environment = .ok plan) :
    Planned request environment plan := by
  obtain ⟨_, _, _, strategy, format, provider, filter, hStrategy, hFormat, hProvider, hFilter, _,
    rfl⟩ := ofRequest_eq_ok_iff.mp h
  refine
    { owner := Text.trims_trimmed _, repo := Text.trims_trimmed _, branch := Text.trims_trimmed _
      githubToken := ?_, noToken := ?_, openaiApiKey := fun _ => firstNonBlank?_three_iff
      strategy := Strategy.ofName?_eq_some_iff.mp hStrategy
      format := OutputFormat.ofName?_eq_some_iff.mp hFormat
      provider := Provider.ofName?_eq_some_iff.mp hProvider
      docstrings := rfl, maxFiles := rfl, filter := hFilter
      accepts := fun _ => (FileFilter.madeOf_of_ofLists hFilter).accepts_iff }
  · intro secret hSupplies
    have hFirst : firstNonBlank? (githubSources request environment) = some secret :=
      firstNonBlank?_three_iff.mpr hSupplies
    rw [checked, hFirst]
    rfl
  · intro hNone
    have hFirst : firstNonBlank? (githubSources request environment) = none := by
      apply Option.eq_none_iff_forall_ne_some.mpr
      intro secret hSecret
      exact hNone ⟨secret, firstNonBlank?_three_iff.mp hSecret⟩
    rw [checked, hFirst]
    rfl

/--
**Which requests can be run.**  A request is valid exactly when it meets every
condition.  Otherwise its error is that of the first condition that it does not
meet, and a valid one is planned with what its texts, lists and secrets say.
-/
theorem ofRequest_runnable (request : IndexRequest) (environment : Environment) :
    ((∃ plan, ofRequest request environment = .ok plan) ↔
      ∀ condition : Condition, condition.Holds request environment) ∧
    (∀ error, ofRequest request environment = .error error ↔ ∃ condition : Condition,
      condition.Violated request environment 0 ∧ condition.error request = error) ∧
    ∀ plan, ofRequest request environment = .ok plan → Planned request environment plan := by
  have hExamines : Examines request environment 0 (ofRequest request environment) :=
    ofRequest_examines
  refine ⟨⟨?_, ?_⟩, fun error => ⟨hExamines.error error, ?_⟩, fun _ => planned_of_ofRequest⟩
  · rintro ⟨plan, hOk⟩ condition
    exact hExamines.ok plan hOk condition (Nat.zero_le _)
  · intro hHolds
    cases hFound : ofRequest request environment with
    | ok plan => exact ⟨plan, rfl⟩
    | error error =>
        obtain ⟨condition, hViolated, -⟩ := hExamines.error error hFound
        exact absurd (hHolds condition) hViolated.fails
  · rintro ⟨condition, hViolated, rfl⟩
    cases hFound : ofRequest request environment with
    | ok plan =>
        exact absurd (hExamines.ok plan hFound condition (Nat.zero_le _)) hViolated.fails
    | error error =>
        obtain ⟨other, hOther, rfl⟩ := hExamines.error error hFound
        rw [hOther.unique hViolated]

/-! ### A token and a key in each of their three places -/

namespace Supplied

/-- A request for embeddings, with a nested and a flat secret for both services. -/
def asked (nested flat : Secret) : IndexRequest :=
  { owner := "octo", repo := " hello", branch := "main", credentials := ⟨nested, nested⟩
    githubToken := flat, openaiApiKey := flat, embeddingProvider := " OpenAI"
    outputFormat := "FULL\n", maxFiles := 0, fileExtensions := [" .rs"], excludePatterns := []
    includeDocstrings := true, chunkStrategy := "Class" }

def exports : Environment := fun name =>
  if name = "GITHUB_TOKEN" then some "ghp" else if name = "OPENAI_API_KEY" then some " sk" else none

theorem filled {text : String} (h : Text.isBlankText text = false) : Filled text :=
  isBlankText_eq_false_iff.mp h

theorem blank : ∀ other, some (Secret.mk "\u3000") = some other → ¬ Filled other.exposed := by
  intro other hOther
  obtain rfl := Option.some.inj hOther
  rw [← isBlankText_eq_false_iff]
  decide

/-- The key of the environment is enough. -/
theorem holds (nested flat : Secret) (condition : Condition) :
    condition.Holds (asked nested flat) exports := by
  cases condition with
  | owner => exact filled (by decide : Text.isBlankText "octo" = false)
  | repo => exact filled (by decide : Text.isBlankText " hello" = false)
  | branch => exact filled (by decide : Text.isBlankText "main" = false)
  | strategy =>
      have hName : Text.normalizedName "Class" = "class" := by decide
      exact ⟨"class", by decide, Text.spells_iff.mpr hName⟩
  | format =>
      have hName : Text.normalizedName "FULL\n" = "full" := by decide
      exact ⟨"full", by decide, Text.spells_iff.mpr hName⟩
  | provider =>
      have hName : Text.normalizedName " OpenAI" = "openai" := by decide
      exact ⟨"openai", by decide, Text.spells_iff.mpr hName⟩
  | extension =>
      refine ⟨" .rs", List.mem_singleton_self _, fun hNames => ?_⟩
      exact absurd (FileFilter.names_iff.mp hNames) (by decide)
  | key => exact fun _ _ => .inr (.inr ⟨" sk", rfl, filled (by decide)⟩)

end Supplied

open Supplied in
/-- The nested secrets are used, the flat ones if those are blank, and those of
the environment if both are. -/
theorem ofRequest_runnable_supplied :
    (∃ plan, ofRequest (asked ⟨"nested"⟩ ⟨"flat"⟩) exports = .ok plan ∧
        plan.githubToken = ⟨"nested"⟩ ∧ plan.openaiApiKey = some ⟨"nested"⟩) ∧
      (∃ plan, ofRequest (asked ⟨"\u3000"⟩ ⟨"flat"⟩) exports = .ok plan ∧
        plan.githubToken = ⟨"flat"⟩ ∧ plan.openaiApiKey = some ⟨"flat"⟩) ∧
      ∃ plan, ofRequest (asked ⟨"\u3000"⟩ ⟨"\u3000"⟩) exports = .ok plan ∧
        plan.githubToken = ⟨"ghp"⟩ ∧ plan.openaiApiKey = some ⟨" sk"⟩ := by
  have hUsed : ∀ {nested flat token key : Secret},
      Supplies (some nested) (some flat) (some "ghp") token →
      Supplies (some nested) (some flat) (some " sk") key →
      ∃ plan, ofRequest (asked nested flat) exports = .ok plan ∧
        plan.githubToken = token ∧ plan.openaiApiKey = some key := by
    intro nested flat token key hToken hKey
    obtain ⟨hValid, -, hPlanned⟩ := ofRequest_runnable (asked nested flat) exports
    obtain ⟨plan, hPlan⟩ := hValid.mpr (holds nested flat)
    exact ⟨plan, hPlan, (hPlanned plan hPlan).githubToken token hToken,
      ((hPlanned plan hPlan).openaiApiKey key).mpr hKey⟩
  refine ⟨hUsed (.nested rfl (filled (by decide))) (.nested rfl (filled (by decide))), ?_, ?_⟩
  · exact hUsed (.flat blank rfl (filled (by decide))) (.flat blank rfl (filled (by decide)))
  · exact hUsed (.exported blank blank rfl (filled (by decide)))
      (.exported blank blank rfl (filled (by decide)))

end RunPlan

end SourceIndex
