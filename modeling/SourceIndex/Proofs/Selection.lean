import SourceIndex.Proofs.Text.Trimming
import SourceIndex.Selection

/-!
# What is selected

A selection is found by a search that stops at the first accepted file beyond
the cap, and a filter is a list of endings that were normalized beforehand.
Here both are compared with what they are for.  `Selects` says which paths
extensions and excluded texts select, in terms of the entries as they were
given; the files of a selection are those among the given ones, in their order
and as many as the cap allows.

## Main results

* `select_eq` — the search finds what cutting the accepted files finds.
* `FileFilter.ofLists_eq_error_iff` — which extensions make no filter.
* `FileFilter.accepts_iff` — which paths a filter accepts.
* `select_lists` — a selection by lists of extensions and of excluded texts.
-/

namespace SourceIndex

/-! ## The search -/

section Search

variable {α : Type} (filter : FileFilter) (pathOf : α → String)

/-- The files that a filter accepts, in their order. -/
def acceptedFiles (files : List α) : List α := files.filter fun file => filter.accepts (pathOf file)

/-- What follows a file does not count when there is room for no other one. -/
theorem selectFrom_capped {cap : Nat} (files : List α) : ∀ {count : Nat}, count ≤ cap → 0 < cap →
    selectFrom filter cap pathOf count files =
      { files := (acceptedFiles filter pathOf files).take (cap - count)
        truncated := cap - count < (acceptedFiles filter pathOf files).length } := by
  induction files with
  | nil =>
      intro count hCount hCap
      simp [selectFrom, acceptedFiles]
  | cons file rest ih =>
      intro count hCount hCap
      by_cases hAccepts : filter.accepts (pathOf file) = true
      · have hFiles : acceptedFiles filter pathOf (file :: rest) =
            file :: acceptedFiles filter pathOf rest := List.filter_cons_of_pos hAccepts
        by_cases hFull : count = cap
        · subst hFull
          simp [selectFrom, hAccepts, hCap, hFiles]
        · have hRoom : cap - count = cap - (count + 1) + 1 := by omega
          simp [selectFrom, hAccepts, hFull, hFiles, hRoom, ih (show count + 1 ≤ cap by omega) hCap]
      · have hFiles : acceptedFiles filter pathOf (file :: rest) =
            acceptedFiles filter pathOf rest := List.filter_cons_of_neg hAccepts
        simp [selectFrom, hAccepts, hFiles, ih hCount hCap]

/-- Without a cap there is always room. -/
theorem selectFrom_uncapped (files : List α) (count : Nat) :
    selectFrom filter 0 pathOf count files =
      { files := acceptedFiles filter pathOf files, truncated := false } := by
  induction files generalizing count with
  | nil => rfl
  | cons file rest ih =>
      by_cases hAccepts : filter.accepts (pathOf file) = true
      · simp [selectFrom, acceptedFiles, hAccepts, ih]
      · simp [selectFrom, acceptedFiles, hAccepts, ih]

/-- **The search finds what cutting the accepted files finds.** -/
theorem select_eq (cap : Nat) (files : List α) :
    select filter cap pathOf files =
      if cap = 0 then { files := acceptedFiles filter pathOf files, truncated := false }
      else
        { files := (acceptedFiles filter pathOf files).take cap
          truncated := cap < (acceptedFiles filter pathOf files).length } := by
  by_cases hCap : cap = 0
  · rw [if_pos hCap, hCap]
    exact selectFrom_uncapped filter pathOf files 0
  · rw [if_neg hCap]
    exact selectFrom_capped filter pathOf files (Nat.zero_le cap) (Nat.pos_of_ne_zero hCap)

end Search

/-! ## Filters -/

/-- A text is looked for at each place. -/
theorem Text.occursIn_iff {pattern text : List Char} :
    occursIn pattern text = true ↔ pattern <:+: text := by
  induction text with
  | nil => simp [occursIn]
  | cons c rest ih => simp [occursIn, ih, List.infix_cons_iff]

namespace FileFilter

/-- What an extension names: the part of it between its outer blanks, without
the leading dots of this part. -/
def Names (extension : String) (core : List Char) : Prop :=
  ∃ inner, Text.Trims extension.toList inner ∧ Text.Strips (· == '.') inner core

/-- A path is selected by extensions and excluded texts: in lower case it ends
in a dot and what some extension names in lower case, unless this is nothing,
and no excluded text, unless it is empty, is a part of it. -/
structure Selects (extensions exclude : List String) (path : String) : Prop where
  ending : ∃ extension ∈ extensions, ∃ core, Names extension core ∧ core ≠ [] ∧
    '.' :: core.map Char.toLower <:+ path.toList.map Char.toLower
  spared : ∀ text ∈ exclude, text ≠ "" → ¬ text.toList <:+: path.toList

section Filters

variable {extensions exclude : List String} {filter : FileFilter} {path : String}

theorem names_iff {extension : String} {core : List Char} :
    Names extension core ↔ (Text.trim extension.toList).dropWhile (· == '.') = core := by
  constructor
  · rintro ⟨inner, hInner, hCore⟩
    rw [Text.trims_iff.mp hInner]
    exact Text.strips_iff.mp hCore
  · intro hCore
    exact ⟨_, Text.trims_iff.mpr rfl, Text.strips_iff.mpr hCore⟩

theorem normalizedExtension_of_names {extension : String} {core : List Char}
    (h : Names extension core) : normalizedExtension extension = core.map Char.toLower := by
  rw [normalizedExtension, names_iff.mp h]

theorem exists_names (extension : String) : ∃ core, Names extension core :=
  ⟨_, names_iff.mpr rfl⟩

theorem normalizedExtension_eq_nil_iff {extension : String} :
    normalizedExtension extension = [] ↔ Names extension [] := by
  rw [names_iff, normalizedExtension, List.map_eq_nil_iff]

/-- What a filter is made of when it is made of these lists. -/
structure MadeOf (extensions exclude : List String) (filter : FileFilter) : Prop where
  endings : ∀ ending, ending ∈ filter.endings ↔ ∃ extension ∈ extensions, ∃ core,
    Names extension core ∧ core ≠ [] ∧ ending = '.' :: core.map Char.toLower
  exclude : ∀ text, text ∈ filter.exclude ↔ ∃ entry ∈ exclude, entry ≠ "" ∧ entry.toList = text

/-- The endings of the extensions that name something. -/
theorem mem_endings_iff {ending : List Char} :
    ending ∈ ((extensions.map normalizedExtension).filter (!·.isEmpty)).map ('.' :: ·) ↔
      ∃ extension ∈ extensions, ∃ core, Names extension core ∧ core ≠ [] ∧
        ending = '.' :: core.map Char.toLower := by
  simp only [List.mem_map, List.mem_filter, Bool.not_eq_true', List.isEmpty_eq_false_iff]
  constructor
  · rintro ⟨_, ⟨⟨extension, hMem, rfl⟩, hSome⟩, rfl⟩
    obtain ⟨core, hCore⟩ := exists_names extension
    rw [normalizedExtension_of_names hCore] at hSome ⊢
    exact ⟨extension, hMem, core, hCore, by simpa using hSome, rfl⟩
  · rintro ⟨extension, hMem, core, hCore, hSome, rfl⟩
    exact ⟨_, ⟨⟨extension, hMem, normalizedExtension_of_names hCore⟩, by simpa using hSome⟩, rfl⟩

/-- The excluded texts that are not empty. -/
theorem mem_exclude_iff {text : List Char} :
    text ∈ (exclude.map (·.toList)).filter (!·.isEmpty) ↔
      ∃ entry ∈ exclude, entry ≠ "" ∧ entry.toList = text := by
  simp only [List.mem_map, List.mem_filter, Bool.not_eq_true', List.isEmpty_eq_false_iff]
  constructor
  · rintro ⟨⟨entry, hMem, rfl⟩, hText⟩
    exact ⟨entry, hMem, by simpa using hText, rfl⟩
  · rintro ⟨entry, hMem, hText, rfl⟩
    exact ⟨⟨entry, hMem, rfl⟩, by simpa using hText⟩

/-- Extensions that name nothing make no filter, all others do. -/
theorem ofLists_cases (extensions exclude : List String) :
    ((∀ extension ∈ extensions, Names extension []) ∧
        ofLists extensions exclude = .error .noExtension) ∨
      (∃ extension ∈ extensions, ¬ Names extension []) ∧
        ∃ filter, ofLists extensions exclude = .ok filter ∧ MadeOf extensions exclude filter := by
  by_cases hNone : ∀ extension ∈ extensions, Names extension []
  · left
    have hEmpty : (extensions.map normalizedExtension).filter (!·.isEmpty) = [] := by
      simpa [List.filter_eq_nil_iff, normalizedExtension_eq_nil_iff] using hNone
    refine ⟨hNone, ?_⟩
    simp [ofLists, hEmpty]
  · right
    have hSome : (extensions.map normalizedExtension).filter (!·.isEmpty) ≠ [] := by
      simpa [List.filter_eq_nil_iff, normalizedExtension_eq_nil_iff] using hNone
    have hOk : ofLists extensions exclude = .ok
        { endings := ((extensions.map normalizedExtension).filter (!·.isEmpty)).map ('.' :: ·)
          exclude := (exclude.map (·.toList)).filter (!·.isEmpty) } := by
      simp [ofLists, hSome]
    exact ⟨by simpa using hNone, _, hOk, fun _ => mem_endings_iff, fun _ => mem_exclude_iff⟩

/-- **Which extensions make no filter.** -/
theorem ofLists_eq_error_iff {error : IndexError} :
    ofLists extensions exclude = .error error ↔
      error = .noExtension ∧ ∀ extension ∈ extensions, Names extension [] := by
  rcases ofLists_cases extensions exclude with
    ⟨hNone, hError⟩ | ⟨⟨extension, hMem, hSome⟩, filter, hOk, -⟩
  · rw [hError, Except.error.injEq]
    exact ⟨fun hSame => ⟨hSame.symm, hNone⟩, fun h => h.1.symm⟩
  · rw [hOk]
    constructor
    · intro h
      cases h
    · intro h
      exact absurd (h.2 extension hMem) hSome

theorem madeOf_of_ofLists (h : ofLists extensions exclude = .ok filter) :
    MadeOf extensions exclude filter := by
  rcases ofLists_cases extensions exclude with ⟨-, hError⟩ | ⟨-, made, hOk, hMade⟩
  · rw [hError] at h
    cases h
  · rw [hOk] at h
    cases h
    exact hMade

/-- **Which paths a filter accepts.** -/
theorem MadeOf.accepts_iff (h : MadeOf extensions exclude filter) :
    filter.accepts path = true ↔ Selects extensions exclude path := by
  have hAccepts : filter.accepts path = true ↔
      (∃ ending ∈ filter.endings, ending <:+ path.toList.map Char.toLower) ∧
        ∀ text ∈ filter.exclude, ¬ text <:+: path.toList := by
    simp [accepts, ← Text.occursIn_iff]
  rw [hAccepts]
  constructor
  · rintro ⟨⟨ending, hMem, hEnds⟩, hSpared⟩
    obtain ⟨extension, hExtension, core, hCore, hSome, rfl⟩ := (h.endings ending).mp hMem
    refine ⟨⟨extension, hExtension, core, hCore, hSome, hEnds⟩, ?_⟩
    intro entry hEntry hText
    exact hSpared _ ((h.exclude _).mpr ⟨entry, hEntry, hText, rfl⟩)
  · rintro ⟨⟨extension, hExtension, core, hCore, hSome, hEnds⟩, hSpared⟩
    refine ⟨⟨_, (h.endings _).mpr ⟨extension, hExtension, core, hCore, hSome, rfl⟩, hEnds⟩, ?_⟩
    intro text hMem
    obtain ⟨entry, hEntry, hText, rfl⟩ := (h.exclude text).mp hMem
    exact hSpared entry hEntry hText

/-- Whether a path is selected is found out by the filter, when there is one. -/
instance (extensions exclude : List String) (path : String) :
    Decidable (Selects extensions exclude path) :=
  match h : ofLists extensions exclude with
  | .ok filter => decidable_of_iff _ (madeOf_of_ofLists h).accepts_iff
  | .error _ => isFalse fun hSelects => by
      obtain ⟨extension, hMem, core, hCore, hSome, -⟩ := hSelects.ending
      have hNone := (ofLists_eq_error_iff.mp h).2 extension hMem
      rw [names_iff] at hCore hNone
      exact hSome (hCore.symm.trans hNone)

end Filters

end FileFilter

/-! ## Selections by lists -/

open FileFilter (Names Selects) in
/--
**A selection by lists of extensions and of excluded texts.**  It fails when no
extension names anything, and then only.  Otherwise its files are the given ones
that the lists select, in their order and cut at the cap, and it says that it
was cut when there are more of them.
-/
theorem select_lists {α : Type} (extensions exclude : List String) (cap : Nat)
    (pathOf : α → String) (files : List α) :
    let selection := (FileFilter.ofLists extensions exclude).map fun filter =>
      select filter cap pathOf files
    let accepted := files.filter fun file => Selects extensions exclude (pathOf file)
    ((∃ detail, selection = .error (.config detail)) ↔
        ∀ extension ∈ extensions, Names extension []) ∧
      ((∃ extension ∈ extensions, ¬ Names extension []) → ∃ found, selection = .ok found ∧
        found.files = (if cap = 0 then accepted else accepted.take cap) ∧
        (found.truncated = true ↔ 0 < cap ∧ cap < accepted.length)) := by
  dsimp only
  rcases FileFilter.ofLists_cases extensions exclude with
    ⟨hNone, hError⟩ | ⟨⟨extension, hMem, hSome⟩, filter, hOk, hMade⟩
  · rw [hError]
    refine ⟨iff_of_true ⟨_, rfl⟩ hNone, ?_⟩
    rintro ⟨extension, hMem, hSome⟩
    exact absurd (hNone extension hMem) hSome
  · rw [hOk]
    refine ⟨iff_of_false ?_ fun hNone => hSome (hNone extension hMem), fun _ => ⟨_, rfl, ?_⟩⟩
    · rintro ⟨detail, hConfig⟩
      cases hConfig
    · have hAccepted : acceptedFiles filter pathOf files =
          files.filter fun file => Selects extensions exclude (pathOf file) := by
        refine List.filter_congr fun file _ => ?_
        rw [Bool.eq_iff_iff, hMade.accepts_iff, decide_eq_true_iff]
      dsimp only
      rw [select_eq, ← hAccepted]
      by_cases hCap : cap = 0
      · simp [hCap]
      · simp [hCap, Nat.pos_of_ne_zero hCap]

/-- The search ends at the third accepted file. -/
example : (FileFilter.ofLists [" .D.TS", "..", ". x"] ["node", ""]).map (fun filter =>
    select filter 2 id ["a.d.ts", "b.ts", "C.D.ts", "node/d.d.ts", ".d.ts", "e. X"]) =
      .ok { files := ["a.d.ts", "C.D.ts"], truncated := true } := by rfl

end SourceIndex
