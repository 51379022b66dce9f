import SourceIndex.Proofs.Repository.Requests
import SourceIndex.Proofs.Text.Decoding

/-!
# Files are split into texts and skipped files

Files are fetched one after the other, so what is received for one of them
depends on the session that those before it have left.  `reached` is that
session for each number, and `received` is what the file gets there, after all
its attempts.  With these two the fetching of a whole list is described without
its recursion: it fails when some file does, with the error of the first one,
and else each file has become a text or a skipped file, and both lists are the
row of what the files have become, sorted into two.

Whether contents are a text is a matter of bytes alone: `Becomes` asks core's
`ByteArray.IsValidUTF8` and compares bytes with bytes.

## Main results

* `fetchFile_error_iff`, `becomes_of_fetchFile` — one file.
* `fetchFiles_error_iff` — the first file that fails decides.
* `fetchFiles_splits` — what files become.
* `fetchFiles_split` — all of it, and that files that are too large cause no
  request.
-/

namespace SourceIndex.GitHub

open Http Http.Online

/-! ## Sessions along a list of files -/

/-- The bytes of a source. -/
def contents (source : SourceFile) : List UInt8 := source.content.toByteArray.data.toList

section Definitions

variable (service : GitHub) (world : World) (repository : RepositoryRef)

/-- What is received for a file in a session, after all attempts. -/
def received (session : Session) (file : ListedFile) : Except FetchError (List UInt8) :=
  ((service.get world .raw (service.blobUrl repository file.sha)).run session).1

/-- The session after a file.  One that is too large leaves it as it is. -/
def passed (session : Session) (file : ListedFile) : Session :=
  if file.size ≤ service.settings.maxFileBytes then
    ((service.get world .raw (service.blobUrl repository file.sha)).run session).2
  else session

/-- The session in which it is the turn of the file with the given number. -/
def reached (session : Session) (files : List ListedFile) (number : Nat) : Session :=
  (files.take number).foldl (service.passed world repository) session

/-- What a file becomes in a session: a source when it is not too large and what
is received for it is valid UTF-8, a skipped file otherwise. -/
structure Becomes (session : Session) (file : ListedFile) (fate : SourceFile ⊕ SkippedFile) :
    Prop where
  kept : fate.isLeft = true ↔ file.size ≤ service.settings.maxFileBytes ∧
    ∃ body, service.received world repository session file = .ok body ∧
      body.toByteArray.IsValidUTF8
  /-- A source has the path of the file and exactly the bytes that were received. -/
  source : ∀ source, fate = .inl source → source.path = file.path ∧
    service.received world repository session file = .ok (contents source)
  /-- They come from the reply that is the last thing of what is done for it. -/
  granted : ∀ source, fate = .inl source → ∃ events,
    service.passed world repository session file = session.after world events ∧
      service.Gets .raw (service.blobUrl repository file.sha) (contents source) events
  skipped : ∀ skipped, fate = .inr skipped → skipped.path = file.path ∧
    skipped.reason =
      if service.settings.maxFileBytes < file.size then
        s!"size {file.size} exceeds limit of {service.settings.maxFileBytes} bytes"
      else "content is not valid UTF-8"

/-- Files are split: each of them has become a source or a skipped file, and
both are listed in the order of the files. -/
structure Splits (session : Session) (files : List ListedFile)
    (fates : List (SourceFile ⊕ SkippedFile)) (fetched : FetchedFiles) : Prop where
  length : fates.length = files.length
  sources : fetched.files = fates.filterMap (·.getLeft?)
  skipped : fetched.skipped = fates.filterMap (·.getRight?)
  becomes : ∀ (number : Nat) file fate, files[number]? = some file → fates[number]? = some fate →
    service.Becomes world repository (service.reached world repository session files number)
      file fate

/-- The first file that is not got, by its number, with its error. -/
structure Fails (session : Session) (files : List ListedFile) (number : Nat)
    (error : FetchError) : Prop where
  failed : ∃ file, files[number]? = some file ∧ file.size ≤ service.settings.maxFileBytes ∧
    service.received world repository (service.reached world repository session files number)
      file = .error error
  first : ∀ earlier < number, ∀ file, files[earlier]? = some file →
    file.size ≤ service.settings.maxFileBytes → ∃ body,
      service.received world repository (service.reached world repository session files earlier)
        file = .ok body

end Definitions

variable {service : GitHub} {world : World} {repository : RepositoryRef} {session : Session}
  {file : ListedFile} {rest : List ListedFile}

/-! ## One file -/

theorem fetchFile_run_large (h : service.settings.maxFileBytes < file.size) :
    (service.fetchFile world repository file).run session =
      (.ok (.inr ⟨file.path,
        s!"size {file.size} exceeds limit of {service.settings.maxFileBytes} bytes"⟩),
        service.passed world repository session file) := by
  rw [fetchFile_large world h, passed, if_neg (Nat.not_le.mpr h)]
  rfl

theorem fetchFile_run_fits (h : file.size ≤ service.settings.maxFileBytes) :
    (service.fetchFile world repository file).run session =
      ((service.received world repository session file).map (sorted file),
        service.passed world repository session file) := by
  rw [fetchFile_fits world (Nat.not_lt.mpr h), run_bind, received, passed, if_pos h]
  rcases (service.get world .raw (service.blobUrl repository file.sha)).run session with
    ⟨error | body, after⟩
  · rfl
  · rfl

/-- The session after a file, whatever becomes of it. -/
theorem fetchFile_run_snd :
    ((service.fetchFile world repository file).run session).2 =
      service.passed world repository session file := by
  by_cases h : file.size ≤ service.settings.maxFileBytes
  · rw [fetchFile_run_fits h]
  · rw [fetchFile_run_large (Nat.not_le.mp h)]

/-- **A file fails when it is asked for and not got.** -/
theorem fetchFile_error_iff {error : FetchError} :
    ((service.fetchFile world repository file).run session).1 = .error error ↔
      file.size ≤ service.settings.maxFileBytes ∧
        service.received world repository session file = .error error := by
  by_cases h : file.size ≤ service.settings.maxFileBytes
  · rw [fetchFile_run_fits h]
    cases service.received world repository session file with
    | error other => simp [h, Except.map]
    | ok body => simp [Except.map]
  · rw [fetchFile_run_large (Nat.not_le.mp h)]
    simp [h]

/-- What is received is what a reply grants. -/
theorem received_gets {body : List UInt8} (hFits : file.size ≤ service.settings.maxFileBytes)
    (hReceived : service.received world repository session file = .ok body) :
    ∃ events, service.passed world repository session file = session.after world events ∧
      service.Gets .raw (service.blobUrl repository file.sha) body events := by
  obtain ⟨events, hDoes, hGetting⟩ :=
    service.get_acts .raw (service.blobUrl repository file.sha) world session
  rw [passed, if_pos hFits]
  exact ⟨events, hDoes.after, Getting.gets (hReceived ▸ hGetting)⟩

theorem becomes_sorted {body : List UInt8} (hFits : file.size ≤ service.settings.maxFileBytes)
    (hReceived : service.received world repository session file = .ok body) :
    service.Becomes world repository session file (sorted file body) := by
  have hSize : ¬ service.settings.maxFileBytes < file.size := Nat.not_lt.mpr hFits
  cases hDecode : Utf8.decode? body with
  | some content =>
      have hBytes : content.toByteArray = body.toByteArray := Utf8.decode?_eq_some_iff.mp hDecode
      have hValid : body.toByteArray.IsValidUTF8 := hBytes ▸ content.isValidUTF8
      have hContents : body = contents ⟨file.path, content⟩ := by
        rw [contents, hBytes, List.toList_data_toByteArray]
      have hSorted : sorted file body = .inl ⟨file.path, content⟩ := by
        simp only [sorted, hDecode]
      rw [hSorted]
      refine ⟨iff_of_true rfl ⟨hFits, body, hReceived, hValid⟩, ?_, ?_, by simp⟩
      · intro source hSource
        cases hSource
        exact ⟨rfl, hContents ▸ hReceived⟩
      · intro source hSource
        cases hSource
        exact hContents ▸ received_gets hFits hReceived
  | none =>
      have hInvalid : ¬ body.toByteArray.IsValidUTF8 := Utf8.decode?_eq_none_iff.mp hDecode
      have hSorted : sorted file body = .inr ⟨file.path, "content is not valid UTF-8"⟩ := by
        simp only [sorted, hDecode]
      rw [hSorted]
      refine ⟨iff_of_false (by simp) ?_, by simp, by simp, ?_⟩
      · rintro ⟨_, other, hOther, hValid⟩
        rw [hReceived, Except.ok.injEq] at hOther
        exact hInvalid (hOther ▸ hValid)
      · intro skipped hSkipped
        cases hSkipped
        rw [if_neg hSize]
        exact ⟨rfl, rfl⟩

/-- **What becomes of a file that does not fail.** -/
theorem becomes_of_fetchFile {fate : SourceFile ⊕ SkippedFile}
    (h : ((service.fetchFile world repository file).run session).1 = .ok fate) :
    service.Becomes world repository session file fate := by
  by_cases hFits : file.size ≤ service.settings.maxFileBytes
  · rw [fetchFile_run_fits hFits] at h
    cases hReceived : service.received world repository session file with
    | error error => simp [hReceived, Except.map] at h
    | ok body =>
        obtain rfl : sorted file body = fate := by simpa [hReceived, Except.map] using h
        exact becomes_sorted hFits hReceived
  · rw [fetchFile_run_large (Nat.not_le.mp hFits)] at h
    cases h
    refine ⟨iff_of_false (by simp) (fun hKept => hFits hKept.1), by simp, by simp, ?_⟩
    intro skipped hSkipped
    cases hSkipped
    rw [if_pos (Nat.not_le.mp hFits)]
    exact ⟨rfl, rfl⟩

/-! ## All files -/

/-- The files after the first one are fetched in the session that it leaves,
unless it fails. -/
theorem fetchFiles_run_cons :
    (service.fetchFiles world repository (file :: rest)).run session =
      match ((service.fetchFile world repository file).run session).1 with
      | .error error => (.error error, service.passed world repository session file)
      | .ok fate =>
        let others := (service.fetchFiles world repository rest).run
          (service.passed world repository session file)
        (others.1.map (joined fate), others.2) := by
  rw [fetchFiles_cons, run_bind, ← fetchFile_run_snd]
  rcases (service.fetchFile world repository file).run session with ⟨error | fate, after⟩
  · rfl
  · dsimp only
    rw [run_bind]
    rcases (service.fetchFiles world repository rest).run after with ⟨error | others, last⟩
    · rfl
    · rfl

/-- The first file of a list fails when it is asked for and not got. -/
theorem fails_zero_iff {error : FetchError} :
    service.Fails world repository session (file :: rest) 0 error ↔
      ((service.fetchFile world repository file).run session).1 = .error error := by
  rw [fetchFile_error_iff]
  constructor
  · rintro ⟨⟨found, hFound, hFails⟩, _⟩
    cases hFound
    exact hFails
  · intro hFails
    exact ⟨⟨file, rfl, hFails⟩, fun earlier hEarlier => absurd hEarlier (Nat.not_lt_zero earlier)⟩

/-- Another file is the first one that fails when the first file does not, and
it is among the rest. -/
theorem fails_succ_iff {number : Nat} {error : FetchError} :
    service.Fails world repository session (file :: rest) (number + 1) error ↔
      (∀ other, ((service.fetchFile world repository file).run session).1 ≠ .error other) ∧
        service.Fails world repository (service.passed world repository session file) rest number
          error := by
  have hHead : (∀ other, ((service.fetchFile world repository file).run session).1 ≠ .error other) ↔
      (file.size ≤ service.settings.maxFileBytes →
        ∃ body, service.received world repository session file = .ok body) := by
    simp only [ne_eq, fetchFile_error_iff, not_and]
    cases service.received world repository session file with
    | error other => simp
    | ok body => simp
  rw [hHead]
  constructor
  · rintro ⟨hFailed, hFirst⟩
    refine ⟨hFirst 0 (Nat.succ_pos number) file rfl, hFailed, ?_⟩
    intro earlier hEarlier
    exact hFirst (earlier + 1) (Nat.succ_lt_succ hEarlier)
  · rintro ⟨hGot, hFailed, hFirst⟩
    refine ⟨hFailed, ?_⟩
    intro earlier hEarlier
    cases earlier with
    | zero =>
        intro found hFound
        cases hFound
        exact hGot
    | succ earlier => exact hFirst earlier (Nat.lt_of_succ_lt_succ hEarlier)

/-- **The first file that fails ends the fetching.** -/
theorem fetchFiles_error_iff {files : List ListedFile} {error : FetchError} :
    ((service.fetchFiles world repository files).run session).1 = .error error ↔
      ∃ number, service.Fails world repository session files number error := by
  induction files generalizing session with
  | nil =>
      refine iff_of_false (fun h => by cases h) ?_
      rintro ⟨number, ⟨file, hFile, _⟩, _⟩
      simp at hFile
  | cons file rest ih =>
      -- The number of the file that fails is zero or that of a file of the rest.
      have hCases : (∃ number, service.Fails world repository session (file :: rest) number error) ↔
          ((service.fetchFile world repository file).run session).1 = .error error ∨
            (∀ other,
              ((service.fetchFile world repository file).run session).1 ≠ .error other) ∧
            ((service.fetchFiles world repository rest).run
              (service.passed world repository session file)).1 = .error error := by
        have hZero : service.Fails world repository session (file :: rest) 0 error ↔
            ((service.fetchFile world repository file).run session).1 = .error error :=
          fails_zero_iff
        rw [ih, ← hZero, ← exists_and_left]
        simp only [← fails_succ_iff]
        constructor
        · rintro ⟨number, hFails⟩
          cases number with
          | zero => exact .inl hFails
          | succ number => exact .inr ⟨number, hFails⟩
        · rintro (hFails | ⟨number, hFails⟩)
          · exact ⟨0, hFails⟩
          · exact ⟨number + 1, hFails⟩
      rw [hCases, fetchFiles_run_cons]
      cases ((service.fetchFile world repository file).run session).1 with
      | error other => simp
      | ok fate =>
          simp only [reduceCtorEq, ne_eq, not_false_eq_true, implies_true, true_and, false_or]
          cases ((service.fetchFiles world repository rest).run
            (service.passed world repository session file)).1 with
          | error other => simp [Except.map]
          | ok others => simp [Except.map]

/-- A file joins those after it. -/
theorem Splits.cons {fate : SourceFile ⊕ SkippedFile} {fates : List (SourceFile ⊕ SkippedFile)}
    {others : FetchedFiles} (hFate : service.Becomes world repository session file fate)
    (hSplits : service.Splits world repository (service.passed world repository session file) rest
      fates others) :
    service.Splits world repository session (file :: rest) (fate :: fates)
      (joined fate others) where
  length := by simp [hSplits.length]
  sources := by
    cases fate with
    | inl source => simp [joined, hSplits.sources]
    | inr skipped => simp [joined, hSplits.sources, List.filterMap_cons]
  skipped := by
    cases fate with
    | inl source => simp [joined, hSplits.skipped, List.filterMap_cons]
    | inr skipped => simp [joined, hSplits.skipped]
  becomes := by
    intro number found other hFound hOther
    cases number with
    | zero =>
        cases hFound
        cases hOther
        exact hFate
    | succ number => exact hSplits.becomes number found other hFound hOther

/-- **Files that do not fail are split.** -/
theorem fetchFiles_splits {files : List ListedFile} {fetched : FetchedFiles}
    (h : ((service.fetchFiles world repository files).run session).1 = .ok fetched) :
    ∃ fates, service.Splits world repository session files fates fetched := by
  induction files generalizing session fetched with
  | nil =>
      cases h
      exact ⟨[], rfl, rfl, rfl, fun number file fate hFile => by simp at hFile⟩
  | cons file rest ih =>
      rw [fetchFiles_run_cons] at h
      cases hFile : ((service.fetchFile world repository file).run session).1 with
      | error error => simp [hFile] at h
      | ok fate =>
          rw [hFile] at h
          cases hRest : ((service.fetchFiles world repository rest).run
            (service.passed world repository session file)).1 with
          | error error => simp [hRest, Except.map] at h
          | ok others =>
              obtain rfl : joined fate others = fetched := by simpa [hRest, Except.map] using h
              obtain ⟨fates, hSplits⟩ := ih hRest
              exact ⟨fate :: fates, hSplits.cons (becomes_of_fetchFile hFile)⟩

/-- **Files that are too large leave no trace in a session.** -/
theorem fetchFiles_run_wanted (files : List ListedFile) :
    ((service.fetchFiles world repository files).run session).2 =
      ((service.fetchFiles world repository (service.wanted files)).run session).2 := by
  induction files generalizing session with
  | nil => rfl
  | cons file rest ih =>
      rw [fetchFiles_run_cons]
      by_cases hFits : file.size ≤ service.settings.maxFileBytes
      · rw [wanted_fits rest (Nat.not_lt.mpr hFits), fetchFiles_run_cons]
        cases ((service.fetchFile world repository file).run session).1 with
        | error error => rfl
        | ok fate => exact ih
      · have hLarge := Nat.not_le.mp hFits
        rw [wanted_large rest hLarge, fetchFile_run_large hLarge, passed, if_neg hFits]
        exact ih

/--
**Fetching splits files in their order**, for every list of files and whatever
the server answers, as the files are fetched one after the other.

* Fetching ends with an error just when the contents of some file are asked for
  and not received, and then with the error of the first such file and nothing
  else.
* When it does not, each file stands once in one of the two lists, and both
  have the order of the files.  A file is a source exactly when it is not too
  large and what is received for it is valid UTF-8, and its contents are then
  these bytes.
* Files that are too large cause no request: the session is the one that is
  left when only the other files are fetched.
-/
theorem fetchFiles_split (service : GitHub) (world : World) (repository : RepositoryRef)
    (files : List ListedFile) (session : Session) :
    (∀ error, ((service.fetchFiles world repository files).run session).1 = .error error ↔
      ∃ number, service.Fails world repository session files number error) ∧
    (∀ fetched, ((service.fetchFiles world repository files).run session).1 = .ok fetched →
      ∃ fates, service.Splits world repository session files fates fetched) ∧
    ((service.fetchFiles world repository files).run session).2 =
      ((service.fetchFiles world repository (service.wanted files)).run session).2 :=
  ⟨fun _ => fetchFiles_error_iff, fun _ => fetchFiles_splits, fetchFiles_run_wanted files⟩

/-- The first file is asked for twice, the second is too large and not asked
for, and the third is no text. -/
example :
    let service : GitHub :=
      { base := "http://localhost", token := "t"
        settings := { FetchSettings.standard with maxFileBytes := 2 } }
    let world : World :=
      { answer := fun before _ => match before with
          | [] => .dropped
          | [_] => .reply ⟨200, []⟩ [104, 105]
          | _ => .reply ⟨200, []⟩ [0xFF]
        interrupts := World.patient }
    let fetching := (service.fetchFiles world ⟨"o", "r", "main"⟩
      [⟨"a.rs", "x", 2⟩, ⟨"b.rs", "y", 3⟩, ⟨"c.rs", "z", 1⟩]).run (.start false)
    fetching.1.toOption = some
        { files := [⟨"a.rs", "hi"⟩]
          skipped := [⟨"b.rs", "size 3 exceeds limit of 2 bytes"⟩,
            ⟨"c.rs", "content is not valid UTF-8"⟩] } ∧
      fetching.2.sent.length = 3 := by
  decide +kernel

end SourceIndex.GitHub
