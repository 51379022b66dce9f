import SourceIndex.CommandLine
import SourceIndex.Proofs.Run.Records
import SourceIndex.Proofs.Run.Validation

/-!
# What the command says

A run of the command prints one document on one line.  It is read back as what
was printed, so a caller can tell by it whether the run gave a result, and the
exit status says the same.

Errors come from four places: the settings, the text of the request, its form,
and the run.  All of them end in one record, and only the last place knows
cancellation.

## Main results

* `says_print` — what is printed for an outcome says it.
* `execute_of_unprepared` — a run that cannot be prepared fails before it starts.
* `respond_says` — so the command says what became of a run.
-/

namespace SourceIndex.CommandLine

open RunPlan (bind_eq_error bind_eq_ok_iff mapError_eq_ok_iff)

/-! ## Documents that are printed -/

/-- The record of an error. -/
def errorRecord (message kind : String) : Json :=
  .record [("error", .text message), ("errorType", .text kind)]

theorem payload_eq (error : RunError) : error.payload = errorRecord error.message error.kind := rfl

theorem errorRecord_inj {message other kind second : String}
    (h : errorRecord message kind = errorRecord other second) :
    message = other ∧ kind = second := by
  simpa [errorRecord, Json.record, Json.text] using h

/-- The record of a result is none of an error. -/
theorem record_ne_errorRecord (result : RunResult) (message kind : String) :
    result.record ≠ errorRecord message kind := by
  intro h
  have hLength := congrArg List.length (Json.object.inj h)
  simp at hLength

/-- Only cancellation is called so. -/
theorem eq_cancelled_of_kind {error : RunError} (h : error.kind = "CancelledError") :
    error = .cancelled := by
  cases error with
  | cancelled => rfl
  | _ => simp [RunError.kind] at h

/-- What a caller sees of an outcome: one document on one line, read back as
such, which the exit status agrees with. -/
structure Says (outcome : Except RunError RunResult) (ending : Ending) (document : Json) :
    Prop where
  output : ending.output = document.render ++ "\n"
  one_line : '\n' ∉ document.render.toList
  read : Json.Document.ofString ending.output = ⟨document, false⟩
  ofResult : ∀ result, outcome = .ok result → document = result.record
  ofError : ∀ error, outcome = .error error → document = errorRecord error.message error.kind
  kinds : (∃ result : RunResult, document = result.record) ∨
    ∃ message kind, document = errorRecord message kind
  result_iff : ending.status = 0 ↔ ∃ result : RunResult, document = result.record
  cancelled_iff : ending.status = 130 ↔ ∃ message, document = errorRecord message "CancelledError"
  other : ending.status ≠ 0 → ending.status ≠ 130 → ending.status = 1

theorem status_cases (error : RunError) :
    (error = .cancelled ∧ errorStatus error = 130) ∨
      (error ≠ .cancelled ∧ errorStatus error = 1) := by
  cases error with
  | cancelled => exact .inl ⟨rfl, rfl⟩
  | _ => exact .inr ⟨nofun, rfl⟩

theorem says_result (result : RunResult) :
    Says (.ok result) (print (.ok result)) result.record where
  output := rfl
  one_line := by
    rw [Json.render, String.toList_ofList]
    exact result.sound_record.one_line
  read := result.sound_record.document
  ofResult other h := by
    obtain rfl := Except.ok.inj h
    rfl
  ofError := nofun
  kinds := .inl ⟨result, rfl⟩
  result_iff := ⟨fun _ => ⟨result, rfl⟩, fun _ => rfl⟩
  cancelled_iff :=
    ⟨nofun, fun ⟨message, h⟩ => absurd h (record_ne_errorRecord result message _)⟩
  other h := absurd rfl h

theorem says_error (error : RunError) :
    Says (.error error) (print (.error error)) error.payload where
  output := rfl
  one_line := by
    rw [Json.render, String.toList_ofList]
    exact error.sound_payload.one_line
  read := error.sound_payload.document
  ofResult := nofun
  ofError other h := by
    obtain rfl := Except.error.inj h
    exact payload_eq error
  kinds := .inr ⟨error.message, error.kind, payload_eq error⟩
  result_iff := by
    constructor
    · intro hStatus
      have hZero : errorStatus error = 0 := hStatus
      rcases status_cases error with ⟨_, h⟩ | ⟨_, h⟩ <;> omega
    · rintro ⟨result, hRecord⟩
      exact absurd hRecord.symm (record_ne_errorRecord result _ _)
  cancelled_iff := by
    constructor
    · intro hStatus
      have hCancelled : errorStatus error = 130 := hStatus
      rcases status_cases error with ⟨rfl, _⟩ | ⟨_, h⟩
      · exact ⟨_, rfl⟩
      · omega
    · rintro ⟨message, hRecord⟩
      obtain rfl := eq_cancelled_of_kind (errorRecord_inj hRecord).2
      rfl
  other _ hStatus := by
    rcases status_cases error with ⟨_, h⟩ | ⟨_, h⟩
    · exact absurd h hStatus
    · exact h

/-- **What is printed for an outcome says it.** -/
theorem says_print (outcome : Except RunError RunResult) :
    ∃ document, Says outcome (print outcome) document := by
  cases outcome with
  | ok result => exact ⟨_, says_result result⟩
  | error error => exact ⟨_, says_error error⟩

/-! ## Runs that cannot be prepared -/

/-- Settings or a request that cannot be read or make no sense. -/
inductive Unprepared (options : Options) (surroundings : Surroundings) : Prop where
  | settings (error : Settings.LoadError)
      (h : Settings.load surroundings.processors surroundings.environment
        (surroundings.fileAt (configPath options surroundings.environment)) = .error error)
  | unreadable (error : RunError) (h : requestText options surroundings = .error error)
  | malformed (text : String) (error : Json.DecodeError)
      (hText : requestText options surroundings = .ok text)
      (h : IndexRequest.ofText text = .error error)

variable {options : Options} {surroundings : Surroundings}

/-- An error that was converted is the conversion of one. -/
theorem of_mapError {ε α : Type} {found : Except ε α} {convert : ε → RunError} {error : RunError}
    (h : found.mapError convert = .error error) : ∃ cause, error = convert cause := by
  cases found with
  | ok value => cases h
  | error cause => exact ⟨cause, (Except.error.inj h).symm⟩

theorem requestText_ne_cancelled {error : RunError}
    (h : requestText options surroundings = .error error) : error ≠ .cancelled := by
  unfold requestText at h
  dsimp only at h
  split at h
  · obtain ⟨cause, rfl⟩ := of_mapError h
    nofun
  · split at h
    · obtain ⟨cause, rfl⟩ := of_mapError h
      nofun
    · obtain ⟨cause, rfl⟩ := of_mapError h
      nofun

/-- Nothing is cancelled before the run. -/
theorem prepare_ne_cancelled {error : RunError}
    (h : prepare options surroundings = .error error) : error ≠ .cancelled := by
  unfold prepare at h
  rcases bind_eq_error h with hSettings | ⟨settings, _, h⟩
  · obtain ⟨cause, rfl⟩ := of_mapError hSettings
    nofun
  · rcases bind_eq_error h with hText | ⟨text, _, h⟩
    · exact requestText_ne_cancelled hText
    · rcases bind_eq_error h with hRequest | ⟨request, _, h⟩
      · obtain ⟨cause, rfl⟩ := of_mapError hRequest
        nofun
      · cases h

/-- A run is prepared when all that it needs can be read. -/
theorem prepare_eq_ok_iff {settings : Settings} {request : IndexRequest} :
    prepare options surroundings = .ok (settings, request) ↔
      Settings.load surroundings.processors surroundings.environment
        (surroundings.fileAt (configPath options surroundings.environment)) = .ok settings ∧
      ∃ text, requestText options surroundings = .ok text ∧
        IndexRequest.ofText text = .ok request := by
  unfold prepare readRequest
  simp only [bind_eq_ok_iff, mapError_eq_ok_iff]
  constructor
  · rintro ⟨found, hSettings, text, hText, read, hRequest, hPair⟩
    cases hPair
    exact ⟨hSettings, text, hText, hRequest⟩
  · rintro ⟨hSettings, text, hText, hRequest⟩
    exact ⟨settings, hSettings, text, hText, request, hRequest, rfl⟩

theorem prepare_of_unprepared (h : Unprepared options surroundings) :
    ∃ error, prepare options surroundings = .error error := by
  cases hPrepared : prepare options surroundings with
  | error error => exact ⟨error, rfl⟩
  | ok prepared =>
      obtain ⟨hSettings, text, hText, hRequest⟩ := prepare_eq_ok_iff.mp hPrepared
      cases h with
      | settings error h => exact nomatch h.symm.trans hSettings
      | unreadable error h => exact nomatch h.symm.trans hText
      | malformed other error hOther h =>
          cases hOther.symm.trans hText
          exact nomatch h.symm.trans hRequest

/-! ## What the command says -/

/-- A run that cannot be prepared ends before any request is sent. -/
theorem execute_of_unprepared (h : Unprepared options surroundings) :
    ∃ error, execute options surroundings = (.error error, .start false) ∧ error ≠ .cancelled := by
  obtain ⟨error, hPrepared⟩ := prepare_of_unprepared h
  refine ⟨error, ?_, prepare_ne_cancelled hPrepared⟩
  rw [execute, hPrepared]

/--
**One document, and the exit status that goes with it.**  Whatever the command
is asked to run, and wherever, it prints one document on one line, a result or
an error record, and exits with 0 for a result, 130 for a cancelled run, and 1
for any other error.  Settings or a request that cannot be read or make no
sense end in an error record with the status 1, before any request is sent.
-/
theorem respond_says (arguments : List String) (options : Options) (surroundings : Surroundings)
    (h : Command.read arguments = .run options) :
    ∃ document,
      Says (execute options surroundings).1 (respond arguments surroundings).1 document ∧
      (Unprepared options surroundings →
        (∃ message kind, document = errorRecord message kind) ∧
        (respond arguments surroundings).1.status = 1 ∧
        (respond arguments surroundings).2.sent = []) := by
  have hRespond : respond arguments surroundings =
      (print (execute options surroundings).1, (execute options surroundings).2) := by
    rw [respond, h]
  rw [hRespond]
  obtain ⟨document, hSays⟩ := says_print (execute options surroundings).1
  refine ⟨document, hSays, fun hUnprepared => ?_⟩
  obtain ⟨error, hExecute, hOther⟩ := execute_of_unprepared hUnprepared
  have hStatus := ((status_cases error).resolve_left fun hCancelled => hOther hCancelled.1).2
  refine ⟨⟨error.message, error.kind, hSays.ofError error (by rw [hExecute])⟩, ?_, ?_⟩
  · rw [hExecute]
    exact hStatus
  · rw [hExecute]
    rfl

/-- Surroundings without any file. -/
def Surroundings.empty : Surroundings where
  environment _ := none
  fileAt _ := .error .missing
  standardInput := .ok ""
  processors := 1
  world := .unreachable Http.World.patient
  parse _ := .withErrors

theorem respond_says_missing :
    Command.read ["--input", "request.json"] = .run ⟨none, some "request.json"⟩ ∧
      (respond ["--input", "request.json"] Surroundings.empty).1.status = 1 ∧
      ∃ document,
        Says (execute ⟨none, some "request.json"⟩ Surroundings.empty).1
          (respond ["--input", "request.json"] Surroundings.empty).1 document := by
  have hRead : Command.read ["--input", "request.json"] = .run ⟨none, some "request.json"⟩ := by
    decide
  have hMissing : Unprepared ⟨none, some "request.json"⟩ Surroundings.empty :=
    .unreadable _ rfl
  obtain ⟨document, hSays, hUnprepared⟩ := respond_says ["--input", "request.json"]
    ⟨none, some "request.json"⟩ Surroundings.empty hRead
  exact ⟨hRead, (hUnprepared hMissing).2.1, document, hSays⟩

end SourceIndex.CommandLine
