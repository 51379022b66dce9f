import SourceIndex.Proofs.Chunk.Attached
import SourceIndex.Proofs.Pairing

/-!
# The switch for docstrings

Whether comments belong to definitions decides where definitions start, and
nothing else about them.  The same nodes match, each one keeps its name, its
signature, its parent and its end, and its start moves back to the comments in
front of it.

The ends are the point.  Blanks behind a definition are looked for up to where
the next one starts, and that start is what the switch moves; but it moves onto
a comment or an attribute, so the blanks end before it either way.

## Main results

* `DefinitionRules.matchesBelow_congr` — what nodes are decides what matches.
* `Definition.ofMatch_moves` — the switch moves the start of a definition.
* `Partition.settle_aligned` — settled definitions end at the same places.
* `Chunk.ofDefinitions_moves` — so do chunks.
-/

namespace SourceIndex

open Text (IsBoundary InkAt Inkless NextInk)

variable {source : List Char}

/-! ## Matches -/

namespace DefinitionRules

variable {rules other : DefinitionRules}

private theorem matchesAmong_congr
    (h : ∀ located, rules.definition? located = other.definition? located)
    {ancestors : List Node} :
    ∀ siblings before : List Node,
      (∀ node ∈ siblings, rules.matchesBelow ancestors node = other.matchesBelow ancestors node) →
      rules.matchesAmong ancestors before siblings =
        other.matchesAmong ancestors before siblings := by
  intro siblings
  induction siblings with
  | nil =>
      intro before _
      rw [matchesAmong, matchesAmong]
  | cons node rest ih =>
      intro before hNodes
      rw [matchesAmong_cons, matchesAmong_cons, matchesAt, matchesAt, h,
        hNodes node List.mem_cons_self,
        ih (node :: before) fun next hNext => hNodes next (List.mem_cons_of_mem node hNext)]

/-- **What nodes are decides what matches.** -/
theorem matchesBelow_congr (h : ∀ located, rules.definition? located = other.definition? located)
    (node : Node) :
    ∀ ancestors, rules.matchesBelow ancestors node = other.matchesBelow ancestors node := by
  induction node using Node.childInduction with
  | step node ih =>
      intro ancestors
      rw [matchesBelow_eq, matchesBelow_eq]
      exact matchesAmong_congr h node.children [] fun child hChild => ih child hChild _

/-- The same nodes match with docstrings and without them. -/
theorem matchesBelow_docstrings (language : Language) (strategy : Strategy) (root : Node) :
    (of language ⟨strategy, true⟩).matchesBelow [] root =
      (of language ⟨strategy, false⟩).matchesBelow [] root := by
  have hDefinition : ∀ located,
      (of language ⟨strategy, true⟩).definition? located =
        (of language ⟨strategy, false⟩).definition? located := fun _ => rfl
  exact matchesBelow_congr hDefinition root []

end DefinitionRules

/-! ## Definitions -/

/-- A definition with its comments and the same one without them: it starts
earlier, if anywhere else, and there with ink. -/
structure Definition.Moves (source : List Char) (commented bare : Definition) : Prop where
  name : commented.name = bare.name
  signature : commented.signature = bare.signature
  parent : commented.parent = bare.parent
  stop : commented.span.stop = bare.span.stop
  start : commented.span.start = bare.span.start ∨
    commented.span.start < bare.span.start ∧ InkAt source commented.span.start

/-- What is left of this when boundaries are settled. -/
structure Definition.Aligned (commented bare : Definition) : Prop where
  name : commented.name = bare.name
  signature : commented.signature = bare.signature
  parent : commented.parent = bare.parent
  stop : commented.span.stop = bare.span.stop
  start : commented.span.start ≤ bare.span.start

namespace Definition

variable {language : Language} {strategy : Strategy}

/-- What joins without docstrings joins with them. -/
theorem joins_of_bare {node : Node} {start : Nat}
    (h : joins source (.of language ⟨strategy, false⟩) node start = true) :
    joins source (.of language ⟨strategy, true⟩) node start = true := by
  unfold joins at h ⊢
  split at h
  · next hAttribute => exact (if_pos hAttribute).trans h
  · cases h

/-- With docstrings the search goes at least as far back. -/
theorem frontier_le {before : List Node} :
    ∀ {start : Nat}, IsBoundary source start → Node.Preceding source start before →
      frontier start (attached source (.of language ⟨strategy, true⟩) start before) ≤
        frontier start (attached source (.of language ⟨strategy, false⟩) start before) := by
  induction before with
  | nil => exact fun _ _ => Nat.le_refl _
  | cons node before ih =>
      intro start hStart hBefore
      by_cases hJoins : joins source (.of language ⟨strategy, false⟩) node start = true
      · rw [attached_cons_of_joins before hJoins,
          attached_cons_of_joins before (joins_of_bare hJoins)]
        exact ih hBefore.1.fits.start hBefore.2.2
      · rw [attached_cons_of_not_joins before hJoins]
        exact (attached_fill _ hStart hBefore).le

/-- **The switch moves the start of a definition**, onto ink. -/
theorem ofMatch_moves {found : Match} {located : Located} (hFound : found.WellFormed source)
    (hPlaced : (DefinitionRules.of language ⟨strategy, true⟩).Placed found located)
    (hBeside : (DefinitionRules.of language ⟨strategy, true⟩).InkBeside source located) :
    Moves source (ofMatch source (.of language ⟨strategy, true⟩) found)
      (ofMatch source (.of language ⟨strategy, false⟩) found) := by
  refine { name := rfl, signature := rfl, parent := rfl, stop := rfl, start := ?_ }
  have hLe : found.start source (.of language ⟨strategy, true⟩) ≤
      found.start source (.of language ⟨strategy, false⟩) :=
    frontier_le hFound.outer.fits.start hFound.before
  have hBare := (hFound.fill (.of language ⟨strategy, false⟩)).le
  rw [Match.ofMatch_span, Match.ofMatch_span]
  rcases Match.start_eq_or_ink hFound hPlaced hBeside with hOwn | hInk
  · exact .inl (Nat.le_antisymm hLe (Nat.le_trans hBare (Nat.le_of_eq hOwn.symm)))
  · rcases Nat.lt_or_eq_of_le hLe with hLt | hEq
    · exact .inr ⟨hLt, hInk⟩
    · exact .inl hEq

end Definition

namespace Partition

/-! ## Settled definitions -/

/-- The blanks behind an offset end at the same place whether they are looked
for up to some ink or beyond it. -/
theorem blankEnd_eq_of_ink {stop first second : Nat} (hStop : IsBoundary source stop)
    (hInk : InkAt source first) (hSecond : IsBoundary source second) (hLe : stop ≤ first)
    (hLt : first < second) : blankEnd source stop first = blankEnd source stop second := by
  have hNear := blankEnd_fits hStop hInk.isBoundary hLe
  obtain ⟨hNearBlank, hNearEnd⟩ := Text.blanks_end hStop hInk.isBoundary hLe
  obtain ⟨hFarBlank, hFarEnd⟩ := Text.blanks_end hStop hSecond (by omega)
  have hNearNext : NextInk source stop (blankEnd source stop first) := by
    refine ⟨hNear.2.1, hNearBlank, .inl ?_⟩
    rcases hNearEnd with hEnd | hNext
    · rw [blankEnd, leadingBlanks, hEnd]
      exact hInk
    · exact hNext
  refine hNearNext.unique ⟨Nat.le_add_right _ _, hFarBlank, .inl ?_⟩
  refine hFarEnd.resolve_left fun hEnd => hFarBlank first hLe ?_ hInk
  rw [hEnd]
  exact hLt

variable {commented bare : List Definition}

/-- Owning blanks takes both to the same ends. -/
theorem ownBlanks_aligned (h : List.Forall₂ (Definition.Moves source) commented bare) :
    ∀ {start other : Nat}, Settled source start commented → Settled source other bare →
      List.Forall₂ Definition.Aligned (ownBlanks source commented) (ownBlanks source bare) := by
  induction h with
  | nil => exact fun _ _ => .nil
  | @cons definition same rest others hHere hRest ih =>
      intro start other hCommented hBare
      obtain ⟨⟨_, _, hFits⟩, hLater⟩ := settled_cons.mp hCommented
      obtain ⟨⟨_, _, _⟩, hLaterBare⟩ := settled_cons.mp hBare
      obtain ⟨_, hLe, _⟩ := hLater.limit
      obtain ⟨hLimit, _, _⟩ := hLaterBare.limit
      have hEnds : blankEnd source definition.span.stop (limit source rest) =
          blankEnd source same.span.stop (limit source others) := by
        rw [← hHere.stop]
        cases hRest with
        | nil => rfl
        | cons hNext _ =>
            rcases hNext.start with hSame | ⟨hLt, hInk⟩
            · rw [limit, limit, hSame]
            · exact blankEnd_eq_of_ink hFits.stop hInk hLimit hLe hLt
      have hStart : definition.span.start ≤ same.span.start := by
        rcases hHere.start with hSame | ⟨hLt, _⟩
        · exact Nat.le_of_eq hSame
        · exact Nat.le_of_lt hLt
      rw [ownBlanks_cons, ownBlanks_cons]
      exact .cons ⟨hHere.name, hHere.signature, hHere.parent, hEnds, hStart⟩ (ih hLater hLaterBare)

/-- Owning the prologue keeps them aligned: where the later start is taken back
over blanks, so is the earlier one. -/
theorem ownPrologue_aligned (h : List.Forall₂ Definition.Aligned commented bare)
    (hCommented : ∀ definition ∈ commented, definition.span.Fits source)
    (hBare : ∀ definition ∈ bare, definition.span.Fits source) :
    List.Forall₂ Definition.Aligned (ownPrologue source commented) (ownPrologue source bare) := by
  cases h with
  | nil => exact .nil
  | @cons first same rest others hHere hRest =>
      have hFirst := (hCommented first List.mem_cons_self).start
      have hSame := (hBare same List.mem_cons_self).start
      have hLe := hHere.start
      rw [ownPrologue, ownPrologue]
      by_cases hBlank : Text.allBlank (Text.takeBytes first.span.start source) = true
      · rw [if_pos hBlank]
        split
        · exact .cons ⟨hHere.name, hHere.signature, hHere.parent, hHere.stop, Nat.le_refl _⟩ hRest
        · exact .cons ⟨hHere.name, hHere.signature, hHere.parent, hHere.stop, Nat.zero_le _⟩ hRest
      · have hBareInk : ¬ Text.allBlank (Text.takeBytes same.span.start source) = true := by
          rw [Text.allBlank_takeBytes_iff hSame]
          rw [Text.allBlank_takeBytes_iff hFirst] at hBlank
          exact fun hNone => hBlank fun offset hFrom hTo =>
            hNone offset hFrom (Nat.lt_of_lt_of_le hTo hLe)
        rw [if_neg hBlank, if_neg hBareInk]
        exact .cons hHere hRest

/-- **Settled definitions end at the same places.** -/
theorem settle_aligned {stop other : Nat}
    (h : List.Forall₂ (Definition.Moves source) commented bare)
    (hApart : Span.Apart 0 stop (commented.map (·.span)))
    (hApartBare : Span.Apart 0 other (bare.map (·.span)))
    (hFit : ∀ definition ∈ commented, definition.span.Fits source)
    (hFitBare : ∀ definition ∈ bare, definition.span.Fits source) :
    List.Forall₂ Definition.Aligned (settle source commented) (settle source bare) := by
  have hSettled := disjoint_sorted_apart hFit
  have hSettledBare := disjoint_sorted_apart hFitBare
  rw [disjoint_sorted_eq_self hApart] at hSettled
  rw [disjoint_sorted_eq_self hApartBare] at hSettledBare
  rw [settle, settle, disjoint_sorted_eq_self hApart, disjoint_sorted_eq_self hApartBare]
  exact ownPrologue_aligned (ownBlanks_aligned h hSettled hSettledBare)
    (ownBlanks_apart hSettled).fit (ownBlanks_apart hSettledBare).fit

end Partition

/-! ## Chunks -/

/-- A chunk with its comments and the same one without them. -/
structure Chunk.Moves (commented bare : Chunk) : Prop where
  name : commented.name = bare.name
  signature : commented.signature = bare.signature
  parent : commented.parent = bare.parent
  stop : commented.range.stop = bare.range.stop
  start : commented.range.start ≤ bare.range.start
  text : bare.text.toList <:+ commented.text.toList

namespace Chunk

variable {filePath : String} {language : Language} {strategy : Strategy}

/-- Chunks of aligned definitions that fit the source. -/
theorem moves_of_aligned {commented bare : Definition} (h : Definition.Aligned commented bare)
    (hCommented : commented.span.Fits source) (hBare : bare.span.Fits source) :
    Moves (ofDefinition source filePath language strategy commented)
      (ofDefinition source filePath language strategy bare) := by
  refine ⟨h.name, h.signature, h.parent, h.stop, h.start, ?_⟩
  rw [ofDefinition, ofDefinition, String.toList_ofList, String.toList_ofList, Span.text, Span.text,
    h.stop, ← Text.slice_append_slice hCommented.start hBare.start hBare.stop h.start hBare.ordered]
  exact List.suffix_append _ _

/-- The residue has no docstring. -/
theorem docstring_ofResidue? {language : Language} {spans : List Span} {chunk : Chunk}
    (h : ofResidue? source filePath language strategy spans = some chunk) :
    chunk.docstring = none := by
  unfold ofResidue? at h
  split at h
  · obtain rfl := Option.some.inj h
    rfl
  · cases h

section Tree

variable {source : String} {root : Node} (h : root.WellFormed source.toList)
  (hPlain : ∀ located ∈ (DefinitionRules.of language ⟨strategy, true⟩).outermost root,
    (DefinitionRules.of language ⟨strategy, true⟩).Plain located)

include hPlain in
/-- Plain is plain, with docstrings or without them. -/
theorem plain_of_commented :
    ∀ located ∈ (DefinitionRules.of language ⟨strategy, false⟩).outermost root,
      (DefinitionRules.of language ⟨strategy, false⟩).Plain located :=
  fun located hLocated => ⟨(hPlain located hLocated).size, (hPlain located hLocated).bare⟩

include h hPlain in
/-- Without docstrings no chunk has one. -/
theorem docstring_of_bare :
    ∀ chunk ∈ ofTree source filePath language ⟨strategy, false⟩ root, chunk.docstring = none := by
  intro chunk hChunk
  by_cases hGranularity : chunk.granularity = .residue
  · exact docstring_ofResidue? (residue_of_mem_ofTree hChunk hGranularity)
  · have hMem : chunk ∈ (ofTree source filePath language ⟨strategy, false⟩ root).filter
        (·.granularity ≠ .residue) :=
      List.mem_filter.mpr ⟨hChunk, decide_eq_true hGranularity⟩
    obtain ⟨found, _, hMatch⟩ :=
      Pairing.exists_left (forall₂_ofTree h (plain_of_commented hPlain)) hMem
    rw [hMatch.docstring]
    rfl

variable (hBeside : ∀ located ∈ (DefinitionRules.of language ⟨strategy, true⟩).outermost root,
  (DefinitionRules.of language ⟨strategy, true⟩).InkBeside source.toList located)

include h hBeside in
/-- The definitions of a tree with docstrings and without them. -/
theorem all_moves :
    List.Forall₂ (Definition.Moves source.toList)
      (Definition.all source.toList (.of language ⟨strategy, true⟩) root)
      (Definition.all source.toList (.of language ⟨strategy, false⟩) root) := by
  have hFound := (DefinitionRules.of language ⟨strategy, true⟩).matchesBelow_root_wellFormed h
  have hPlaced := (DefinitionRules.of language ⟨strategy, true⟩).matchesBelow_placed root
  rw [Definition.all, Definition.all, ← DefinitionRules.matchesBelow_docstrings,
    List.forall₂_map_left_iff, List.forall₂_map_right_iff, List.forall₂_same]
  intro found hMem
  obtain ⟨located, hLocated, hHere⟩ := Pairing.exists_right hPlaced hMem
  exact Definition.ofMatch_moves (hFound found hMem) hHere (hBeside located hLocated)

include h hPlain hBeside in
/-- So it is with their chunks. -/
theorem ofTree_moves :
    List.Forall₂ Moves
      ((ofTree source filePath language ⟨strategy, true⟩ root).filter (·.granularity ≠ .residue))
      ((ofTree source filePath language ⟨strategy, false⟩ root).filter
        (·.granularity ≠ .residue)) := by
  have hAligned := Partition.settle_aligned (all_moves h hBeside)
    (Definition.all_apart h hPlain) (Definition.all_apart h (plain_of_commented hPlain))
    (Definition.all_fit _ h) (Definition.all_fit _ h)
  have hFit : ∀ definition ∈ settled source.toList language ⟨strategy, true⟩ root,
      definition.span.Fits source.toList := (settled_apart h).fit
  have hFitBare : ∀ definition ∈ settled source.toList language ⟨strategy, false⟩ root,
      definition.span.Fits source.toList := (settled_apart h).fit
  have hBoth := (List.forall₂_and_left _ _).mpr ⟨hFit,
    ((List.forall₂_and_left _ _).mpr ⟨hFitBare, hAligned.flip⟩).flip⟩
  rw [filter_ofTree h, filter_ofTree h, List.forall₂_map_left_iff, List.forall₂_map_right_iff]
  exact hBoth.imp fun commented bare ⟨hCommented, hBare, hHere⟩ =>
    moves_of_aligned hHere hCommented hBare

end Tree

/--
**The switch for docstrings moves comments and nothing else.**  In a tree whose
outermost matching nodes are not empty and have no comment or attribute around
them, and where the comments and attributes beside these nodes start with ink,
the same definitions get chunks with docstrings and without them, one by one
with the same name, signature, parent and end.  With docstrings a chunk starts
no later, so the text of the other one ends its text; without docstrings no
chunk has one.
-/
theorem ofDefinitions_moves (source filePath : String) (language : Language) (strategy : Strategy)
    (root : Node) (h : root.WellFormed source.toList)
    (hPlain : ∀ located ∈ (DefinitionRules.of language ⟨strategy, true⟩).outermost root,
      (DefinitionRules.of language ⟨strategy, true⟩).Plain located)
    (hBeside : ∀ located ∈ (DefinitionRules.of language ⟨strategy, true⟩).outermost root,
      (DefinitionRules.of language ⟨strategy, true⟩).InkBeside source.toList located) :
    ∃ commented bare,
      ofDefinitions source filePath language ⟨strategy, true⟩ (.clean root) = .ok commented ∧
      ofDefinitions source filePath language ⟨strategy, false⟩ (.clean root) = .ok bare ∧
      (strategy ≠ .wholeFile → Language.ofPath? filePath = some language →
        (ChunkedFile.of source filePath ⟨strategy, true⟩ (.clean root)).chunks = commented ∧
        (ChunkedFile.of source filePath ⟨strategy, false⟩ (.clean root)).chunks = bare) ∧
      List.Forall₂ Moves (commented.filter (·.granularity ≠ .residue))
        (bare.filter (·.granularity ≠ .residue)) ∧
      ∀ chunk ∈ bare, chunk.docstring = none := by
  refine ⟨ofTree source filePath language ⟨strategy, true⟩ root,
    ofTree source filePath language ⟨strategy, false⟩ root, rfl, rfl, ?_,
    ofTree_moves h hPlain hBeside, docstring_of_bare h hPlain⟩
  exact fun hStrategy hLanguage =>
    ⟨ofFile_chunks hStrategy hLanguage, ofFile_chunks hStrategy hLanguage⟩

theorem ofDefinitions_moves_accent :
    Accent.tree.WellFormed Accent.source.toList ∧
      (∀ located ∈ (DefinitionRules.of .python ⟨.functions, true⟩).outermost Accent.tree,
        (DefinitionRules.of .python ⟨.functions, true⟩).Plain located) ∧
      (∀ located ∈ (DefinitionRules.of .python ⟨.functions, true⟩).outermost Accent.tree,
        (DefinitionRules.of .python ⟨.functions, true⟩).InkBeside Accent.source.toList located) ∧
      List.Forall₂ Moves
        ((ChunkedFile.of Accent.source "a.py" ⟨.functions, true⟩
          (.clean Accent.tree)).chunks.filter (·.granularity ≠ .residue))
        ((ChunkedFile.of Accent.source "a.py" ⟨.functions, false⟩
          (.clean Accent.tree)).chunks.filter (·.granularity ≠ .residue)) := by
  have hBeside : ∀ located ∈
      (DefinitionRules.of .python ⟨.functions, true⟩).outermost Accent.tree,
      (DefinitionRules.of .python ⟨.functions, true⟩).InkBeside Accent.source.toList located :=
    fun located hLocated => (Accent.inkFirst located hLocated).2
  obtain ⟨commented, bare, _, _, hFile, hMoves, _⟩ := ofDefinitions_moves Accent.source "a.py"
    .python .functions Accent.tree Accent.wellFormed Accent.plain hBeside
  obtain ⟨hCommented, hBare⟩ := hFile (by decide) Accent.language
  rw [hCommented, hBare]
  exact ⟨Accent.wellFormed, Accent.plain, hBeside, hMoves⟩

end Chunk

end SourceIndex
