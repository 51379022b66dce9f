import Mathlib.Tactic.Choose
import SourceIndex.Proofs.Text.Numerals
import SourceIndex.Settings.Load

/-!
# Where settings come from

Settings are seventeen fields of three kinds.  Each has an environment variable
of its own, a place in the settings file and a standard value, and the tables
below name them.  What a variable and what a file may say of a field depends on
its kind alone: `Kind.Accepts` and `Kind.Holds` say so without reading anything.

Loading never looks at two fields together.  The environment changes each field
by its own variable (`get_overrideAll`), and a file gives each field by its own
entry (`ofToml?_eq_some_iff`), so everything about loading is said field by
field, and settings are nothing but their fields (`get_ofData`, `ext_get`).

## Main results

* `get_overrideAll` — what the environment makes of a field.
* `ofFile_eq_ok_iff` — what a file makes of a field.
* `load_of_absence` — without a file there is only the environment.
* `load_precedence` — the variable before the file before the standard value,
  each field for itself.
-/

namespace SourceIndex.Settings

open Toml (Value)

/-! ### Kinds of fields -/

/-- What a field holds. -/
inductive Datum where
  | text (value : String)
  | number (value : Nat)
  | flag (value : Bool)
deriving Repr, DecidableEq

/-- What a field may hold: a text, a number up to the largest, one that a variable
does not set to zero, or a truth value. -/
inductive Kind where
  | text
  | number (largest : Nat)
  | positive (largest : Nat)
  | flag
deriving Repr, DecidableEq

/-- The values of a variable that a field accepts, and what they make of it. -/
inductive Kind.Accepts : Kind → String → Datum → Prop where
  | text (given : String) : Accepts .text given (.text given)
  | number {largest n : Nat} {given : String} : Text.Names given.toList n → n ≤ largest →
      Accepts (.number largest) given (.number n)
  | positive {largest n : Nat} {given : String} : Text.Names given.toList n → n ≤ largest →
      n ≠ 0 → Accepts (.positive largest) given (.number n)
  | yes : Accepts .flag "true" (.flag true)
  | no : Accepts .flag "false" (.flag false)

/-- The values of a file that have the type of a field, and what they make of it. -/
inductive Kind.Holds : Kind → Value → Datum → Prop where
  | text (given : String) : Holds .text (.string given) (.text given)
  | number {largest n : Nat} : n ≤ largest → Holds (.number largest) (.integer n) (.number n)
  | positive {largest n : Nat} : n ≤ largest → Holds (.positive largest) (.integer n) (.number n)
  | flag (given : Bool) : Holds .flag (.boolean given) (.flag given)

/-- Whether a field of some kind can hold something. -/
def Kind.Fits : Kind → Datum → Prop
  | .text, .text _ | .number _, .number _ | .positive _, .number _ | .flag, .flag _ => True
  | _, _ => False

/-- What a field accepts of a variable. -/
def Kind.accept? : Kind → String → Option Datum
  | .text, given => (some given).map .text
  | .number largest, given => (anyNat largest given).map .number
  | .positive largest, given => (positiveNat largest given).map .number
  | .flag, given => (truth given).map .flag

/-- What a field reads in a file. -/
def Kind.read? : Kind → Value → Option Datum
  | .text, value => (textOf value).map .text
  | .number largest, value | .positive largest, value => (natOf largest value).map .number
  | .flag, value => (boolOf value).map .flag

theorem anyNat_eq_some_iff {largest n : Nat} {given : String} :
    anyNat largest given = some n ↔ Text.Names given.toList n ∧ n ≤ largest :=
  Text.readNat?_eq_some_iff

theorem positiveNat_eq_some_iff {largest n : Nat} {given : String} :
    positiveNat largest given = some n ↔ (Text.Names given.toList n ∧ n ≤ largest) ∧ n ≠ 0 := by
  rw [positiveNat, Option.filter_eq_some_iff, anyNat_eq_some_iff, decide_eq_true_iff,
    Nat.pos_iff_ne_zero]

theorem truth_eq_some_iff {given : String} {value : Bool} :
    truth given = some value ↔
      given = "true" ∧ value = true ∨ given = "false" ∧ value = false := by
  unfold truth
  split
  · simp [eq_comm]
  · simp [eq_comm]
  · simp_all

theorem natOf_eq_some_iff {largest n : Nat} {value : Value} :
    natOf largest value = some n ↔ value = .integer n ∧ n ≤ largest := by
  cases value with
  | integer k =>
      simp only [natOf, Option.ite_none_right_eq_some, Option.some.injEq, Value.integer.injEq]
      omega
  | _ => simp [natOf]

theorem Kind.accept?_eq_some_iff {kind : Kind} {given : String} {datum : Datum} :
    kind.accept? given = some datum ↔ kind.Accepts given datum := by
  cases kind with
  | text =>
      constructor
      · rintro ⟨⟩
        exact .text given
      · rintro ⟨⟩
        rfl
  | number largest =>
      simp only [accept?, Option.map_eq_some_iff, anyNat_eq_some_iff]
      constructor
      · rintro ⟨n, ⟨hNames, hLargest⟩, rfl⟩
        exact .number hNames hLargest
      · rintro (_ | ⟨hNames, hLargest⟩)
        exact ⟨_, ⟨hNames, hLargest⟩, rfl⟩
  | positive largest =>
      simp only [accept?, Option.map_eq_some_iff, positiveNat_eq_some_iff]
      constructor
      · rintro ⟨n, ⟨⟨hNames, hLargest⟩, hPositive⟩, rfl⟩
        exact .positive hNames hLargest hPositive
      · rintro (_ | _ | ⟨hNames, hLargest, hPositive⟩)
        exact ⟨_, ⟨⟨hNames, hLargest⟩, hPositive⟩, rfl⟩
  | flag =>
      simp only [accept?, Option.map_eq_some_iff, truth_eq_some_iff]
      constructor
      · rintro ⟨value, ⟨rfl, rfl⟩ | ⟨rfl, rfl⟩, rfl⟩
        · exact .yes
        · exact .no
      · rintro ⟨⟩
        · exact ⟨true, .inl ⟨rfl, rfl⟩, rfl⟩
        · exact ⟨false, .inr ⟨rfl, rfl⟩, rfl⟩

theorem Kind.read?_eq_some_iff {kind : Kind} {value : Value} {datum : Datum} :
    kind.read? value = some datum ↔ kind.Holds value datum := by
  cases kind with
  | text =>
      constructor
      · intro hRead
        cases value <;> cases hRead
        exact .text _
      · rintro ⟨⟩
        rfl
  | number largest =>
      simp only [read?, Option.map_eq_some_iff, natOf_eq_some_iff]
      constructor
      · rintro ⟨n, ⟨rfl, hLargest⟩, rfl⟩
        exact .number hLargest
      · rintro (_ | hLargest)
        exact ⟨_, ⟨rfl, hLargest⟩, rfl⟩
  | positive largest =>
      simp only [read?, Option.map_eq_some_iff, natOf_eq_some_iff]
      constructor
      · rintro ⟨n, ⟨rfl, hLargest⟩, rfl⟩
        exact .positive hLargest
      · rintro (_ | _ | hLargest)
        exact ⟨_, ⟨rfl, hLargest⟩, rfl⟩
  | flag =>
      constructor
      · intro hRead
        cases value <;> cases hRead
        exact .flag _
      · rintro ⟨⟩
        rfl

theorem Kind.Holds.fits {kind : Kind} {value : Value} {datum : Datum}
    (hHolds : kind.Holds value datum) : kind.Fits datum := by
  cases hHolds <;> exact trivial

/-! ### The fields -/

/-- The fields of settings. -/
inductive Field where
  | apiUrl
  | fetchTimeout
  | fetchRetries
  | fetchBackoff
  | fetchConcurrency
  | maxFileBytes
  | openaiBaseUrl
  | openaiModel
  | localModel
  | maxBatchSize
  | maxBatchChars
  | maxInputChars
  | batchConcurrency
  | batchRetries
  | batchTimeout
  | localWorkers
  | contextualize
deriving Repr, DecidableEq

namespace Field

/-- The environment variable of a field. -/
def variableName : Field → String
  | apiUrl => "REPODEX_GITHUB_API_URL"
  | fetchTimeout => "REPODEX_GITHUB_TIMEOUT_SECS"
  | fetchRetries => "REPODEX_GITHUB_MAX_RETRIES"
  | fetchBackoff => "REPODEX_GITHUB_MAX_BACKOFF_SECS"
  | fetchConcurrency => "REPODEX_GITHUB_CONCURRENCY"
  | maxFileBytes => "REPODEX_GITHUB_MAX_FILE_BYTES"
  | openaiBaseUrl => "REPODEX_OPENAI_BASE_URL"
  | openaiModel => "REPODEX_OPENAI_MODEL"
  | localModel => "REPODEX_LOCAL_MODEL"
  | maxBatchSize => "REPODEX_EMBED_BATCH_SIZE"
  | maxBatchChars => "REPODEX_EMBED_BATCH_CHARS"
  | maxInputChars => "REPODEX_EMBED_MAX_INPUT_CHARS"
  | batchConcurrency => "REPODEX_EMBED_CONCURRENCY"
  | batchRetries => "REPODEX_EMBED_MAX_RETRIES"
  | batchTimeout => "REPODEX_EMBED_TIMEOUT_SECS"
  | localWorkers => "REPODEX_EMBED_LOCAL_WORKERS"
  | contextualize => "REPODEX_EMBED_CONTEXTUALIZE"

/-- The kind of a field. -/
def kind : Field → Kind
  | apiUrl | openaiBaseUrl | openaiModel | localModel => .text
  | fetchRetries | batchRetries => .number Text.largest32
  | fetchTimeout | fetchBackoff | maxFileBytes | maxBatchChars | maxInputChars | batchTimeout =>
    .number Text.largest64
  | fetchConcurrency | maxBatchSize | batchConcurrency | localWorkers =>
    .positive Text.largest64
  | contextualize => .flag

/-- The value of a field. -/
def get (settings : Settings) : Field → Datum
  | apiUrl => .text settings.github.apiUrl
  | fetchTimeout => .number settings.github.timeoutSecs
  | fetchRetries => .number settings.github.maxRetries
  | fetchBackoff => .number settings.github.maxBackoffSecs
  | fetchConcurrency => .number settings.github.concurrency
  | maxFileBytes => .number settings.github.maxFileBytes
  | openaiBaseUrl => .text settings.embedding.openaiBaseUrl
  | openaiModel => .text settings.embedding.openaiModel
  | localModel => .text settings.embedding.localModel
  | maxBatchSize => .number settings.embedding.limits.maxBatchSize
  | maxBatchChars => .number settings.embedding.limits.maxBatchChars
  | maxInputChars => .number settings.embedding.limits.maxInputChars
  | batchConcurrency => .number settings.embedding.limits.concurrency
  | batchRetries => .number settings.embedding.limits.maxRetries
  | batchTimeout => .number settings.embedding.limits.timeoutSecs
  | localWorkers => .number settings.embedding.localWorkers
  | contextualize => .flag settings.embedding.contextualize

/-- Whether a field is in the section on fetching; the others are in the one on
embedding. -/
def isFetching : Field → Bool
  | apiUrl | fetchTimeout | fetchRetries | fetchBackoff | fetchConcurrency | maxFileBytes => true
  | _ => false

/-- The name of a field in its section. -/
def key : Field → String
  | apiUrl => "api_url"
  | fetchTimeout | batchTimeout => "timeout_secs"
  | fetchRetries | batchRetries => "max_retries"
  | fetchBackoff => "max_backoff_secs"
  | fetchConcurrency | batchConcurrency => "concurrency"
  | maxFileBytes => "max_file_bytes"
  | openaiBaseUrl => "openai_base_url"
  | openaiModel => "openai_model"
  | localModel => "local_model"
  | maxBatchSize => "max_batch_size"
  | maxBatchChars => "max_batch_chars"
  | maxInputChars => "max_input_chars"
  | localWorkers => "local_workers"
  | contextualize => "contextualize"

/-- The place of a field in its section when that is an array. -/
def place (field : Field) : Nat :=
  (if field.isFetching then fetchNames else embeddingNames).idxOf field.key

/-- What the sections of a file say of a field. -/
def said? (fetching embedding : Part) (field : Field) : Option Value :=
  (if field.isFetching then fetching else embedding).value? field.place field.key

end Field

/-- No two fields have the same variable. -/
theorem Field.variableName_injective {field other : Field}
    (hName : field.variableName = other.variableName) : field = other := by
  cases field <;> cases other <;> first | rfl | exact absurd hName (by decide)

theorem Field.fits_get (settings : Settings) (field : Field) :
    field.kind.Fits (field.get settings) := by
  cases field <;> exact trivial

/-! ### Settings are their fields -/

def Datum.toText : Datum → String
  | .text value => value
  | _ => ""

def Datum.toNat : Datum → Nat
  | .number value => value
  | _ => 0

def Datum.toBool : Datum → Bool
  | .flag value => value
  | _ => false

/-- The settings with the given fields. -/
def ofData (data : Field → Datum) : Settings :=
  { github :=
      { apiUrl := (data .apiUrl).toText
        timeoutSecs := (data .fetchTimeout).toNat
        maxRetries := (data .fetchRetries).toNat
        maxBackoffSecs := (data .fetchBackoff).toNat
        concurrency := (data .fetchConcurrency).toNat
        maxFileBytes := (data .maxFileBytes).toNat }
    embedding :=
      { openaiBaseUrl := (data .openaiBaseUrl).toText
        openaiModel := (data .openaiModel).toText
        localModel := (data .localModel).toText
        limits :=
          { maxBatchSize := (data .maxBatchSize).toNat
            maxBatchChars := (data .maxBatchChars).toNat
            maxInputChars := (data .maxInputChars).toNat
            concurrency := (data .batchConcurrency).toNat
            maxRetries := (data .batchRetries).toNat
            timeoutSecs := (data .batchTimeout).toNat }
        localWorkers := (data .localWorkers).toNat
        contextualize := (data .contextualize).toBool } }

theorem Kind.Fits.text {datum : Datum} (hFits : Kind.Fits .text datum) :
    .text datum.toText = datum := by
  cases datum <;> first | rfl | exact hFits.elim

theorem Kind.Fits.number {datum : Datum} {largest : Nat}
    (hFits : Kind.Fits (.number largest) datum) : .number datum.toNat = datum := by
  cases datum <;> first | rfl | exact hFits.elim

theorem Kind.Fits.positive {datum : Datum} {largest : Nat}
    (hFits : Kind.Fits (.positive largest) datum) : .number datum.toNat = datum := by
  cases datum <;> first | rfl | exact hFits.elim

theorem Kind.Fits.flag {datum : Datum} (hFits : Kind.Fits .flag datum) :
    .flag datum.toBool = datum := by
  cases datum <;> first | rfl | exact hFits.elim

theorem get_ofData {data : Field → Datum} (hFits : ∀ field : Field, field.kind.Fits (data field))
    (field : Field) : field.get (ofData data) = data field := by
  have hField := hFits field
  cases field <;>
    first | exact hField.text | exact hField.number | exact hField.positive | exact hField.flag

/-- Settings that agree in every field are the same. -/
theorem ext_get {settings other : Settings}
    (hAgree : ∀ field : Field, field.get settings = field.get other) : settings = other := by
  have hOf (one : Settings) : ofData (fun field => field.get one) = one := rfl
  rw [← hOf settings, ← hOf other]
  exact congrArg ofData (funext hAgree)

/-! ### The environment -/

theorem override_map (wrap : α → β) (given : Option String) (accept : String → Option α)
    (current : α) :
    wrap (override given accept current) =
      override given (fun text => (accept text).map wrap) (wrap current) := by
  cases given with
  | none => rfl
  | some text =>
      simp only [override, Option.bind_some]
      cases accept text <;> rfl

/-- The environment changes a field by its own variable, as its kind allows. -/
theorem get_overrideAll (environment : Environment) (settings : Settings) (field : Field) :
    field.get (overrideAll environment settings) =
      override (environment field.variableName) field.kind.accept? (field.get settings) := by
  cases field <;> exact override_map _ _ _ _

/-! ### The file -/

/-- The section that an entry of a file is.  A date or time has no fields. -/
inductive IsPart : Option Value → Part → Prop where
  | missing : IsPart none (.table [])
  | table (entries : List (String × Value)) : IsPart (some (.table entries)) (.table entries)
  | array (items : List Value) : IsPart (some (.array items)) (.array items)
  | dateTime : IsPart (some .dateTime) (.table [])

/-- The two sections of a settings file, which are empty when there is no file.
What else is in the file must be something that can be held. -/
inductive Sections : File → Part → Part → Prop where
  | absent {cause : FileError} : cause.isAbsence = true →
      Sections (.error cause) (.table []) (.table [])
  | read {content : String} {entries : List (String × Value)} {fetching embedding : Part} :
      Toml.read? content = some (.table entries) →
      IsPart (entries.lookup "github") fetching →
      IsPart (entries.lookup "embedding") embedding →
      (Part.table entries).othersHeld ["github", "embedding"] = true →
      fetching.othersHeld fetchNames = true → embedding.othersHeld embeddingNames = true →
      Sections (.ok content) fetching embedding

/-- A file that is missing, or is read and has the right type wherever it says
something of a field. -/
def WellTyped (file : File) : Prop :=
  ∃ fetching embedding, Sections file fetching embedding ∧
    ∀ (field : Field) (value : Value), field.said? fetching embedding = some value →
      ∃ datum, field.kind.Holds value datum

/-- What is in the file for a field, or else its standard value. -/
inductive Field.Filed (processors : Nat) (fetching embedding : Part) (field : Field) :
    Datum → Prop where
  | said {value : Value} {datum : Datum} : field.said? fetching embedding = some value →
      field.kind.Holds value datum → Filed processors fetching embedding field datum
  | standard : field.said? fetching embedding = none →
      Filed processors fetching embedding field (field.get (.standard processors))

/-- What the variable of a field says when the field accepts it, or else what is
in the file. -/
inductive Field.Decided (processors : Nat) (environment : Environment)
    (fetching embedding : Part) (field : Field) : Datum → Prop where
  | given {text : String} {datum : Datum} : environment field.variableName = some text →
      field.kind.Accepts text datum →
      Decided processors environment fetching embedding field datum
  | filed {datum : Datum} :
      (∀ text other, environment field.variableName = some text →
        ¬ field.kind.Accepts text other) →
      field.Filed processors fetching embedding datum →
      Decided processors environment fetching embedding field datum

theorem part?_eq_some_iff {entries : List (String × Value)} {name : String} {part : Part} :
    part? entries name = some part ↔ IsPart (entries.lookup name) part := by
  unfold part?
  generalize entries.lookup name = entry
  constructor
  · intro hPart
    split at hPart <;> cases hPart
    · exact .missing
    · exact .table _
    · exact .array _
    · exact .dateTime
  · rintro ⟨⟩ <;> rfl

theorem field_map (wrap : α → β) (part : Part) (place : Nat) (name : String)
    (read : Value → Option α) (standard : α) :
    (field part place name read standard).map wrap =
      field part place name (fun value => (read value).map wrap) (wrap standard) := by
  unfold field
  cases part.value? place name <;> rfl

theorem field_wrap_iff {wrap : α → β} (hWrap : ∀ a b, wrap a = wrap b → a = b) {part : Part}
    {place : Nat} {name : String} {read : Value → Option α} {standard found : α} :
    field part place name (fun value => (read value).map wrap) (wrap standard) =
        some (wrap found) ↔
      field part place name read standard = some found := by
  rw [← field_map, Option.map_eq_some_iff]
  constructor
  · rintro ⟨other, hField, hSame⟩
    rw [hField, hWrap _ _ hSame]
  · intro hField
    exact ⟨found, hField, rfl⟩

/-- The field of a section is what the file says, or else the standard value. -/
theorem Field.filed_iff {processors : Nat} {fetching embedding : Part} {entry : Field}
    {datum : Datum} :
    entry.Filed processors fetching embedding datum ↔
      field (if entry.isFetching then fetching else embedding) entry.place entry.key
        entry.kind.read? (entry.get (.standard processors)) = some datum := by
  constructor
  · intro hFiled
    cases hFiled with
    | said hSaid hHolds =>
        rw [said?] at hSaid
        rw [field, hSaid]
        exact Kind.read?_eq_some_iff.mpr hHolds
    | standard hSilent =>
        rw [said?] at hSilent
        rw [field, hSilent]
  · intro hField
    rw [field] at hField
    split at hField
    next hSilent =>
        obtain rfl := Option.some.inj hField
        exact .standard hSilent
    next value hSaid => exact .said hSaid (Kind.read?_eq_some_iff.mp hField)

theorem Field.Filed.unique {processors : Nat} {fetching embedding : Part} {entry : Field}
    {datum other : Datum} (hDatum : entry.Filed processors fetching embedding datum)
    (hOther : entry.Filed processors fetching embedding other) : datum = other := by
  rw [Field.filed_iff] at hDatum hOther
  exact Option.some.inj (hDatum.symm.trans hOther)

section

variable {processors : Nat} {fetching embedding : Part}

theorem Field.filed_text {entry : Field} {standard found : String}
    (hRead : entry.kind = .text) (hStandard : entry.get (.standard processors) = .text standard) :
    entry.Filed processors fetching embedding (.text found) ↔
      field (if entry.isFetching then fetching else embedding) entry.place entry.key textOf
        standard = some found := by
  rw [filed_iff, hRead, hStandard]
  exact field_wrap_iff fun _ _ => Datum.text.inj

theorem Field.filed_number {entry : Field} {largest standard found : Nat}
    (hRead : entry.kind = .number largest ∨ entry.kind = .positive largest)
    (hStandard : entry.get (.standard processors) = .number standard) :
    entry.Filed processors fetching embedding (.number found) ↔
      field (if entry.isFetching then fetching else embedding) entry.place entry.key
        (natOf largest) standard = some found := by
  have hSame : entry.kind.read? = fun value => (natOf largest value).map .number := by
    rcases hRead with hKind | hKind <;> rw [hKind] <;> rfl
  rw [filed_iff, hSame, hStandard]
  exact field_wrap_iff fun _ _ => Datum.number.inj

theorem Field.filed_flag {entry : Field} {standard found : Bool}
    (hRead : entry.kind = .flag) (hStandard : entry.get (.standard processors) = .flag standard) :
    entry.Filed processors fetching embedding (.flag found) ↔
      field (if entry.isFetching then fetching else embedding) entry.place entry.key boolOf
        standard = some found := by
  rw [filed_iff, hRead, hStandard]
  exact field_wrap_iff fun _ _ => Datum.flag.inj

/-- The section on fetching is read field by field. -/
theorem fetchOf_eq_some_iff {settings : Settings} :
    fetchOf fetching .standard = some settings.github ↔
      ∀ entry : Field, entry.isFetching = true →
        entry.Filed processors fetching embedding (entry.get settings) := by
  obtain ⟨⟨_, _, _, _, _, _⟩, _⟩ := settings
  simp only [fetchOf, Option.bind_eq_bind, Option.bind_eq_some_iff, Option.pure_def]
  constructor
  · rintro ⟨_, hUrl, _, hTimeout, _, hRetries, _, hBackoff, _, hConcurrency, _, hBytes, ⟨⟩⟩
      entry hFetching
    cases entry with
    | apiUrl => exact (Field.filed_text rfl rfl).mpr hUrl
    | fetchTimeout => exact (Field.filed_number (.inl rfl) rfl).mpr hTimeout
    | fetchRetries => exact (Field.filed_number (.inl rfl) rfl).mpr hRetries
    | fetchBackoff => exact (Field.filed_number (.inl rfl) rfl).mpr hBackoff
    | fetchConcurrency => exact (Field.filed_number (.inr rfl) rfl).mpr hConcurrency
    | maxFileBytes => exact (Field.filed_number (.inl rfl) rfl).mpr hBytes
    | _ => cases hFetching
  · intro hFiled
    exact ⟨_, (Field.filed_text rfl rfl).mp (hFiled .apiUrl rfl),
      _, (Field.filed_number (.inl rfl) rfl).mp (hFiled .fetchTimeout rfl),
      _, (Field.filed_number (.inl rfl) rfl).mp (hFiled .fetchRetries rfl),
      _, (Field.filed_number (.inl rfl) rfl).mp (hFiled .fetchBackoff rfl),
      _, (Field.filed_number (.inr rfl) rfl).mp (hFiled .fetchConcurrency rfl),
      _, (Field.filed_number (.inl rfl) rfl).mp (hFiled .maxFileBytes rfl), rfl⟩

/-- The section on embedding is read field by field. -/
theorem embeddingOf_eq_some_iff {settings : Settings} :
    embeddingOf embedding (.standard processors) = some settings.embedding ↔
      ∀ entry : Field, entry.isFetching = false →
        entry.Filed processors fetching embedding (entry.get settings) := by
  obtain ⟨_, ⟨_, _, _, ⟨_, _, _, _, _, _⟩, _, _⟩⟩ := settings
  simp only [embeddingOf, limitsOf, Option.bind_eq_bind, Option.bind_eq_some_iff,
    Option.pure_def]
  constructor
  · rintro ⟨_, hUrl, _, hModel, _, hLocal, _, ⟨_, hSize, _, hChars, _, hInput, _, hConcurrency,
      _, hRetries, _, hTimeout, ⟨⟩⟩, _, hWorkers, _, hContext, ⟨⟩⟩ entry hEmbedding
    cases entry with
    | openaiBaseUrl => exact (Field.filed_text rfl rfl).mpr hUrl
    | openaiModel => exact (Field.filed_text rfl rfl).mpr hModel
    | localModel => exact (Field.filed_text rfl rfl).mpr hLocal
    | maxBatchSize => exact (Field.filed_number (.inr rfl) rfl).mpr hSize
    | maxBatchChars => exact (Field.filed_number (.inl rfl) rfl).mpr hChars
    | maxInputChars => exact (Field.filed_number (.inl rfl) rfl).mpr hInput
    | batchConcurrency => exact (Field.filed_number (.inr rfl) rfl).mpr hConcurrency
    | batchRetries => exact (Field.filed_number (.inl rfl) rfl).mpr hRetries
    | batchTimeout => exact (Field.filed_number (.inl rfl) rfl).mpr hTimeout
    | localWorkers => exact (Field.filed_number (.inr rfl) rfl).mpr hWorkers
    | contextualize => exact (Field.filed_flag rfl rfl).mpr hContext
    | _ => cases hEmbedding
  · intro hFiled
    exact ⟨_, (Field.filed_text rfl rfl).mp (hFiled .openaiBaseUrl rfl),
      _, (Field.filed_text rfl rfl).mp (hFiled .openaiModel rfl),
      _, (Field.filed_text rfl rfl).mp (hFiled .localModel rfl),
      _, ⟨_, (Field.filed_number (.inr rfl) rfl).mp (hFiled .maxBatchSize rfl),
        _, (Field.filed_number (.inl rfl) rfl).mp (hFiled .maxBatchChars rfl),
        _, (Field.filed_number (.inl rfl) rfl).mp (hFiled .maxInputChars rfl),
        _, (Field.filed_number (.inr rfl) rfl).mp (hFiled .batchConcurrency rfl),
        _, (Field.filed_number (.inl rfl) rfl).mp (hFiled .batchRetries rfl),
        _, (Field.filed_number (.inl rfl) rfl).mp (hFiled .batchTimeout rfl), rfl⟩,
      _, (Field.filed_number (.inr rfl) rfl).mp (hFiled .localWorkers rfl),
      _, (Field.filed_flag rfl rfl).mp (hFiled .contextualize rfl), rfl⟩

/-- A section without entries leaves every field at its standard value. -/
theorem Field.filed_empty (entry : Field) :
    entry.Filed processors (.table []) (.table []) (entry.get (.standard processors)) := by
  apply Filed.standard
  rw [said?, ite_self]
  rfl

theorem forall_filed_iff {settings : Settings} :
    (∀ entry : Field, entry.Filed processors fetching embedding (entry.get settings)) ↔
      fetchOf fetching .standard = some settings.github ∧
        embeddingOf embedding (.standard processors) = some settings.embedding := by
  constructor
  · intro hFiled
    exact ⟨fetchOf_eq_some_iff.mpr fun entry _ => hFiled entry,
      embeddingOf_eq_some_iff.mpr fun entry _ => hFiled entry⟩
  · rintro ⟨hFetching, hEmbedding⟩ entry
    cases hSection : entry.isFetching with
    | true => exact fetchOf_eq_some_iff.mp hFetching entry hSection
    | false => exact embeddingOf_eq_some_iff.mp hEmbedding entry hSection

end

/-- What can be read in a file: its two sections, and each field by its entry. -/
theorem ofToml?_eq_some_iff {processors : Nat} {entries : List (String × Value)}
    {settings : Settings} :
    ofToml? processors (.table entries) = some settings ↔
      ∃ fetching embedding, IsPart (entries.lookup "github") fetching ∧
        IsPart (entries.lookup "embedding") embedding ∧
        ((Part.table entries).othersHeld ["github", "embedding"] &&
          fetching.othersHeld fetchNames && embedding.othersHeld embeddingNames) = true ∧
        ∀ entry : Field, entry.Filed processors fetching embedding (entry.get settings) := by
  simp only [ofToml?, Option.bind_eq_bind, Option.bind_eq_some_iff, part?_eq_some_iff,
    forall_filed_iff]
  refine exists_congr fun fetching => ?_
  constructor
  · rintro ⟨hFetching, embedding, hEmbedding, hRest⟩
    split at hRest
    next => cases hRest
    next hHeld =>
        obtain ⟨github, hGithub, other, hOther, hSettings⟩ := by
          simpa only [Option.bind_eq_some_iff] using hRest
        obtain rfl := Option.some.inj hSettings
        exact ⟨embedding, hFetching, hEmbedding, by simpa using hHeld, hGithub, hOther⟩
  · rintro ⟨embedding, hFetching, hEmbedding, hHeld, hGithub, hOther⟩
    refine ⟨hFetching, embedding, hEmbedding, ?_⟩
    rw [hHeld, hGithub, hOther]
    rfl

/-- What a settings file makes of a field depends on its entry in the file. -/
theorem ofFile_eq_ok_iff {processors : Nat} {file : File} {settings : Settings} :
    ofFile processors file = .ok settings ↔
      ∃ fetching embedding, Sections file fetching embedding ∧
        ∀ entry : Field, entry.Filed processors fetching embedding (entry.get settings) := by
  constructor
  · intro hFile
    match file with
    | .error cause =>
        rw [ofFile] at hFile
        split at hFile
        next hAbsence =>
            obtain rfl := Except.ok.inj hFile
            exact ⟨_, _, .absent hAbsence, Field.filed_empty⟩
        next => cases hFile
    | .ok content =>
        rw [ofFile] at hFile
        split at hFile
        next found hRead =>
            obtain rfl := Except.ok.inj hFile
            obtain ⟨value, hValue, hSettings⟩ := Option.bind_eq_some_iff.mp hRead
            cases value with
            | table entries =>
                obtain ⟨fetching, embedding, hFetching, hEmbedding, hHeld, hFiled⟩ :=
                  ofToml?_eq_some_iff.mp hSettings
                rw [Bool.and_eq_true, Bool.and_eq_true] at hHeld
                exact ⟨fetching, embedding,
                  .read hValue hFetching hEmbedding hHeld.1.1 hHeld.1.2 hHeld.2, hFiled⟩
            | _ => cases hSettings
        next => cases hFile
  · rintro ⟨fetching, embedding, hSections, hFiled⟩
    cases hSections with
    | absent hAbsence =>
        rw [ofFile, if_pos hAbsence]
        exact congrArg _ (ext_get fun entry =>
          (Field.filed_empty entry).unique (hFiled entry))
    | read hValue hFetching hEmbedding hEntries hFetched hEmbedded =>
        have hHeld := Bool.and_eq_true_iff.mpr
          ⟨Bool.and_eq_true_iff.mpr ⟨hEntries, hFetched⟩, hEmbedded⟩
        have hSettings := ofToml?_eq_some_iff.mpr
          ⟨fetching, embedding, hFetching, hEmbedding, hHeld, hFiled⟩
        rw [ofFile, hValue, Option.bind_some, hSettings]

/-! ### Loading -/

theorem load_eq_ok_iff {processors : Nat} {environment : Environment} {file : File}
    {settings : Settings} :
    load processors environment file = .ok settings ↔
      ∃ filed, ofFile processors file = .ok filed ∧ overrideAll environment filed = settings := by
  rw [load]
  cases ofFile processors file with
  | error cause => exact ⟨nofun, nofun⟩
  | ok filed =>
      constructor
      · intro hLoad
        exact ⟨filed, rfl, Except.ok.inj hLoad⟩
      · rintro ⟨_, ⟨⟩, hOverride⟩
        exact congrArg _ hOverride

/-- Without a file there is only the environment. -/
theorem load_of_absence (processors : Nat) (environment : Environment) {cause : FileError}
    (hAbsence : cause.isAbsence = true) :
    load processors environment (.error cause) = .ok (ofEnvironment processors environment) := by
  rw [load, ofFile, if_pos hAbsence]
  rfl

theorem override_decided {processors : Nat} {environment : Environment}
    {fetching embedding : Part} {entry : Field} {filed : Datum}
    (hFiled : entry.Filed processors fetching embedding filed) :
    entry.Decided processors environment fetching embedding
      (override (environment entry.variableName) entry.kind.accept? filed) := by
  cases hVariable : environment entry.variableName with
  | none => exact .filed (fun text _ hSet => absurd (hVariable.symm.trans hSet) nofun) hFiled
  | some text =>
      rw [override, Option.bind_some]
      cases hAccept : entry.kind.accept? text with
      | some datum => exact .given hVariable (Kind.accept?_eq_some_iff.mp hAccept)
      | none =>
          refine .filed (fun other datum hSet hAccepts => ?_) hFiled
          obtain rfl := Option.some.inj (hVariable.symm.trans hSet)
          exact absurd (hAccept.symm.trans (Kind.accept?_eq_some_iff.mpr hAccepts)) nofun

/-- A file of the right types can be read. -/
theorem WellTyped.exists_ofFile {file : File} (hTyped : WellTyped file) (processors : Nat) :
    ∃ settings, ofFile processors file = .ok settings := by
  obtain ⟨fetching, embedding, hSections, hHolds⟩ := hTyped
  have hFiled (entry : Field) :
      ∃ datum, entry.Filed processors fetching embedding datum ∧ entry.kind.Fits datum := by
    cases hSaid : entry.said? fetching embedding with
    | none => exact ⟨_, .standard hSaid, entry.fits_get _⟩
    | some value =>
        obtain ⟨datum, hDatum⟩ := hHolds entry value hSaid
        exact ⟨datum, .said hSaid hDatum, hDatum.fits⟩
  choose data hData using hFiled
  refine ⟨ofData data, ofFile_eq_ok_iff.mpr ⟨fetching, embedding, hSections, fun entry => ?_⟩⟩
  rw [get_ofData fun entry => (hData entry).2]
  exact (hData entry).1

theorem wellTyped_of_ofFile {processors : Nat} {file : File} {settings : Settings}
    (hFile : ofFile processors file = .ok settings) : WellTyped file := by
  obtain ⟨fetching, embedding, hSections, hFiled⟩ := ofFile_eq_ok_iff.mp hFile
  refine ⟨fetching, embedding, hSections, fun entry value hSaid => ?_⟩
  have hEntry := hFiled entry
  generalize entry.get settings = datum at hEntry
  cases hEntry with
  | said hOther hHolds =>
      obtain rfl := Option.some.inj (hOther.symm.trans hSaid)
      exact ⟨_, hHolds⟩
  | standard hSilent => exact absurd (hSilent.symm.trans hSaid) nofun

/--
**The variable before the file before the standard value, each field for itself.**
Whether settings are loaded depends on the file alone: it is missing or has the
right types.  When they are, each field is what its own variable says if the
field accepts that, or else what the file says, or else its standard value.  So
environments that differ in one variable give settings that differ at most in
the field of that variable, of which there is at most one; and there is no more
to settings than their fields.
-/
theorem load_precedence (processors : Nat) (file : File) :
    (∀ environment, (∃ settings, load processors environment file = .ok settings) ↔
      WellTyped file) ∧
    (∀ environment settings, load processors environment file = .ok settings →
      ∃ fetching embedding, Sections file fetching embedding ∧
        ∀ entry : Field,
          entry.Decided processors environment fetching embedding (entry.get settings)) ∧
    (∀ (name : String) (environment changed : Environment) (settings others : Settings),
      (∀ other, other ≠ name → environment other = changed other) →
      load processors environment file = .ok settings →
      load processors changed file = .ok others →
      ∀ entry : Field, entry.variableName ≠ name → entry.get settings = entry.get others) ∧
    (∀ entry other : Field, entry.variableName = other.variableName → entry = other) ∧
    (∀ settings others : Settings,
      (∀ entry : Field, entry.get settings = entry.get others) → settings = others) := by
  refine ⟨fun environment => ⟨?_, ?_⟩, ?_, ?_, fun _ _ => Field.variableName_injective,
    fun _ _ => ext_get⟩
  · rintro ⟨settings, hLoad⟩
    obtain ⟨filed, hFile, _⟩ := load_eq_ok_iff.mp hLoad
    exact wellTyped_of_ofFile hFile
  · intro hTyped
    obtain ⟨filed, hFile⟩ := hTyped.exists_ofFile processors
    exact ⟨_, load_eq_ok_iff.mpr ⟨filed, hFile, rfl⟩⟩
  · intro environment settings hLoad
    obtain ⟨filed, hFile, rfl⟩ := load_eq_ok_iff.mp hLoad
    obtain ⟨fetching, embedding, hSections, hFiled⟩ := ofFile_eq_ok_iff.mp hFile
    refine ⟨fetching, embedding, hSections, fun entry => ?_⟩
    rw [get_overrideAll]
    exact override_decided (hFiled entry)
  · intro name environment changed settings others hOther hLoad hChanged entry hName
    obtain ⟨filed, hFile, rfl⟩ := load_eq_ok_iff.mp hLoad
    obtain ⟨_, hSame, rfl⟩ := load_eq_ok_iff.mp hChanged
    obtain rfl := Except.ok.inj (hFile.symm.trans hSame)
    rw [get_overrideAll, get_overrideAll, hOther _ hName]

/-- A plus sign is accepted, a positive field is not set to zero, and what is not
said anywhere is standard. -/
example :
    (load 4
      (fun name =>
        if name = "REPODEX_GITHUB_TIMEOUT_SECS" then some "+12"
        else if name = "REPODEX_EMBED_CONCURRENCY" then some "0" else none)
      (.error .missing)).toOption.map (fun settings =>
        (settings.github.timeoutSecs, settings.embedding.limits.concurrency)) = some (12, 4) := by
  decide

end SourceIndex.Settings
