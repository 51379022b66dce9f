import SourceIndex.Chunk.Split
import SourceIndex.Proofs.Chunk.CheckedDefinition
import SourceIndex.Proofs.Chunk.Settling

/-!
# Files with checked cuts

The rest of the way from a syntax tree to chunks, with every cut checked: the
blanks that definitions own, the prologue, the line numbers and the texts of
chunks.  `Checked.file` is `ChunkedFile.of` with all cuts checked, those of
names, docstrings and comments included.

Every offset here is an end of a settled span, a start of a gap between such
spans or an end of the source, so the invariant of the settling passes
discharges all the cuts.

## Main results

* `Checked.settle_eq` — settling takes no bad cut.
* `Checked.ofTree_eq` — neither does making the chunks of a tree.
* `Checked.file_eq` — nor chunking a file whose tree is well formed.
-/

namespace SourceIndex.Checked

open Text (BadCut checkedSlice IsBoundary)

section Definitions

variable (source : List Char)

/-- Extends each definition over the blanks after it. -/
def ownBlanks : List Definition → Except BadCut (List Definition)
  | [] => pure []
  | definition :: rest => do
    let stop := definition.span.stop
    let tail ← checkedSlice source stop (Partition.limit source rest)
    let extended := stop + Partition.leadingBlanks tail
    let others ← ownBlanks rest
    return { definition with span := ⟨definition.span.start, extended⟩ } :: others

/-- Lets the first definition start the file when only blanks are before it. -/
def ownPrologue : List Definition → Except BadCut (List Definition)
  | [] => pure []
  | first :: rest => do
    let front ← checkedSlice source 0 first.span.start
    if Text.allBlank front then return { first with span := ⟨0, first.span.stop⟩ } :: rest
    else return first :: rest

/-- The definitions with their boundaries settled. -/
def settle (definitions : List Definition) : Except BadCut (List Definition) := do
  let ordered := definitions.mergeSort fun a b => a.span.start ≤ b.span.start
  let extended ← ownBlanks source (Partition.disjoint 0 ordered)
  ownPrologue source extended

/-- The lines of a range. -/
def lines (range : Span) : Except BadCut LineRange := do
  let front ← checkedSlice source 0 range.start
  let covered ← checkedSlice source range.start range.stop
  let first := Text.lineFeeds front + 1
  return { first, last := first + Text.lineFeeds (Text.trimEnd covered) }

/-- The chunk of a definition; what it has beside its lines and its text
takes no cut. -/
def ofDefinition (filePath : String) (language : Language) (strategy : Strategy)
    (definition : Definition) : Except BadCut Chunk := do
  let covered ← checkedSlice source definition.span.start definition.span.stop
  let lines ← lines source definition.span
  return { Chunk.ofDefinition source filePath language strategy definition with
    lines, text := String.ofList covered }

/-- The chunk of what the definitions leave. -/
def ofResidue? (filePath : String) (language : Language) (strategy : Strategy)
    (spans : List Span) : Except BadCut (Option Chunk) := do
  match Chunk.ofResidue? source filePath language strategy spans with
  | some chunk =>
    let covered ← spans.mapM fun span => checkedSlice source span.start span.stop
    let lines ← lines source chunk.range
    return some { chunk with lines, text := String.ofList covered.flatten }
  | none => return none

/-- The chunks of a source with the given syntax tree. -/
def ofTree (filePath : String) (language : Language) (options : ChunkOptions) (root : Node) :
    Except BadCut (List Chunk) := do
  let rules := DefinitionRules.of language options
  let definitions ← (rules.matchesBelow [] root).mapM (definition source rules)
  let settled ← settle source definitions
  let chunks ← settled.mapM (ofDefinition source filePath language options.strategy)
  let residue ← ofResidue? source filePath language options.strategy
    (Partition.residue source settled)
  return (chunks ++ residue.toList).mergeSort fun a b => a.range.start ≤ b.range.start

/-- The chunk that holds a whole file. -/
def wholeFile (text filePath : String) (language : Option Language) (strategy : Strategy) :
    Except BadCut Chunk := do
  let lines ← lines text.toList ⟨0, Text.byteLength text.toList⟩
  return { Chunk.wholeFile text filePath language strategy with lines }

end Definitions

/-- Splits a file with every cut of its source checked. -/
def file (source filePath : String) (options : ChunkOptions) (parse : Parse) :
    Except BadCut ChunkedFile :=
  let language := Language.ofPath? filePath
  let whole (fallback : Option Fallback) : Except BadCut ChunkedFile := do
    let chunk ← wholeFile source filePath language options.strategy
    return { chunks := [chunk], language, fallback }
  match options.strategy, language with
  | .wholeFile, _ => whole none
  | _, none => whole (some .noGrammar)
  | _, some known =>
    match parse with
    | .withErrors => whole (some (.parseFailed (.syntaxErrors filePath)))
    | .clean root => do
      let chunks ← ofTree source.toList filePath known options root
      return { chunks, language, fallback := none }

variable {source : List Char}

/-- Where a function returns on each member of a list, it does so on the list. -/
private theorem mapM_eq_pure {α β : Type} {f : α → Except BadCut β} {g : α → β} {items : List α}
    (h : ∀ item ∈ items, f item = pure (g item)) : items.mapM f = pure (items.map g) := by
  induction items with
  | nil => rfl
  | cons item rest ih =>
      rw [List.mapM_cons, h item List.mem_cons_self, pure_bind,
        ih fun other hOther => h other (List.mem_cons_of_mem item hOther), pure_bind,
        List.map_cons]

/-! ## Boundaries -/

theorem ownBlanks_eq {definitions : List Definition} {start : Nat}
    (h : Partition.Settled source start definitions) :
    ownBlanks source definitions = pure (Partition.ownBlanks source definitions) := by
  induction definitions generalizing start with
  | nil => rfl
  | cons definition rest ih =>
      obtain ⟨⟨_, _, hFits⟩, hRest⟩ := Partition.settled_cons.mp h
      obtain ⟨hLimit, hLe, _⟩ := hRest.limit
      rw [ownBlanks, Text.checkedSlice_eq hFits.stop hLimit hLe, pure_bind, ih hRest, pure_bind,
        Partition.ownBlanks_cons]
      rfl

theorem ownPrologue_eq {definitions : List Definition}
    (h : Partition.Settled source 0 definitions) :
    ownPrologue source definitions = pure (Partition.ownPrologue source definitions) := by
  cases definitions with
  | nil => rfl
  | cons first rest =>
      obtain ⟨⟨_, _, hFits⟩, _⟩ := Partition.settled_cons.mp h
      have hFront := Text.checkedSlice_eq (Text.isBoundary_zero source) hFits.start (Nat.zero_le _)
      rw [ownPrologue, hFront, pure_bind, Text.slice_zero, Partition.ownPrologue]
      split <;> rfl

/-- **Settling takes no bad cut.** -/
theorem settle_eq {definitions : List Definition}
    (hFit : ∀ definition ∈ definitions, definition.span.Fits source) :
    settle source definitions = pure (Partition.settle source definitions) := by
  have hDisjoint := Partition.disjoint_sorted_apart hFit
  unfold settle
  dsimp only
  rw [ownBlanks_eq hDisjoint, pure_bind, ownPrologue_eq (Partition.ownBlanks_apart hDisjoint)]
  rfl

/-! ## Chunks -/

theorem lines_eq {range : Span} (h : range.Fits source) :
    lines source range = pure (LineRange.of source range) := by
  have hFront := Text.checkedSlice_eq (Text.isBoundary_zero source) h.start (Nat.zero_le _)
  unfold lines LineRange.of
  rw [hFront, pure_bind, h.checkedSlice, pure_bind, Text.slice_zero]

theorem ofDefinition_eq (filePath : String) (language : Language) (strategy : Strategy)
    {definition : Definition} (h : definition.span.Fits source) :
    ofDefinition source filePath language strategy definition =
      pure (Chunk.ofDefinition source filePath language strategy definition) := by
  unfold ofDefinition
  rw [h.checkedSlice, pure_bind, lines_eq h, pure_bind]
  rfl

theorem ofResidue?_eq {filePath : String} {language : Language} {strategy : Strategy}
    {settled : List Definition} (h : Partition.Settled source 0 settled) :
    ofResidue? source filePath language strategy (Partition.residue source settled) =
      pure (Chunk.ofResidue? source filePath language strategy
        (Partition.residue source settled)) := by
  have hFit := h.residue_fit
  have hTexts : (Partition.residue source settled).mapM
      (fun span => checkedSlice source span.start span.stop) =
        pure ((Partition.residue source settled).map (·.text source)) :=
    mapM_eq_pure fun span hSpan => (hFit span hSpan).checkedSlice
  have hEnds : ∀ first last, (Partition.residue source settled).head? = some first →
      (Partition.residue source settled).getLast? = some last → first.start < last.stop :=
    fun first last hFirst hLast => h.residue_ends hFirst hLast
  unfold ofResidue? Chunk.ofResidue?
  generalize Partition.residue source settled = spans at *
  cases hFirst : spans.head? with
  | none => rfl
  | some first =>
      cases hLast : spans.getLast? with
      | none => rfl
      | some last =>
          have hRange : (⟨first.start, last.stop⟩ : Span).Fits source :=
            ⟨(hFit first (List.mem_of_head? hFirst)).start,
              (hFit last (List.mem_of_getLast? hLast)).stop,
              Nat.le_of_lt (hEnds first last hFirst hLast)⟩
          simp only [hTexts, lines_eq hRange, pure_bind, List.flatMap_def]

theorem ofTree_eq {filePath : String} {language : Language} {options : ChunkOptions}
    {text : String} {root : Node} (h : root.WellFormed text.toList) :
    ofTree text.toList filePath language options root =
      pure (Chunk.ofTree text filePath language options root) := by
  have hDefinitions : ((DefinitionRules.of language options).matchesBelow [] root).mapM
      (definition text.toList (DefinitionRules.of language options)) =
        pure (Definition.all text.toList (DefinitionRules.of language options) root) :=
    mapM_eq_pure fun found hFound => definition_eq
      (DefinitionRules.matchesBelow_root_wellFormed _ h found hFound)
  have hFit := Definition.all_fit (DefinitionRules.of language options) h
  have hSettled := Partition.settle_apart hFit
  have hChunks := mapM_eq_pure fun definition hDefinition =>
    ofDefinition_eq filePath language options.strategy
      (hSettled.fit definition hDefinition)
  unfold ofTree Chunk.ofTree
  dsimp only
  rw [hDefinitions, pure_bind, settle_eq hFit, pure_bind, hChunks, pure_bind,
    ofResidue?_eq hSettled, pure_bind]

theorem wholeFile_eq {text filePath : String} {language : Option Language} {strategy : Strategy} :
    wholeFile text filePath language strategy =
      pure (Chunk.wholeFile text filePath language strategy) := by
  have hRange : (⟨0, Text.byteLength text.toList⟩ : Span).Fits text.toList :=
    ⟨Text.isBoundary_zero _, Text.isBoundary_byteLength _, Nat.zero_le _⟩
  unfold wholeFile
  rw [lines_eq hRange, pure_bind]
  rfl

/--
**Chunking a file takes no bad cut**: on a well-formed tree, and on one with
errors, the checked function is not stopped, and it returns the chunks that
the unchecked one returns.
-/
theorem file_eq {text filePath : String} {options : ChunkOptions} {parse : Parse}
    (h : parse.WellFormed text.toList) :
    file text filePath options parse = pure (ChunkedFile.of text filePath options parse) := by
  unfold file ChunkedFile.of
  simp only [wholeFile_eq, pure_bind]
  cases options.strategy with
  | wholeFile => rfl
  | classes =>
      cases Language.ofPath? filePath with
      | none => rfl
      | some known =>
          cases parse with
          | withErrors => rfl
          | clean root => simp only [ofTree_eq h, pure_bind, Chunk.ofDefinitions]
  | functions =>
      cases Language.ofPath? filePath with
      | none => rfl
      | some known =>
          cases parse with
          | withErrors => rfl
          | clean root => simp only [ofTree_eq h, pure_bind, Chunk.ofDefinitions]

end SourceIndex.Checked
