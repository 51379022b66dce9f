import SourceIndex.Proofs.Chunk.Attached
import SourceIndex.Proofs.Pairing

/-!
# Who owns the blanks of a source

Blanks behind a definition belong to it, and blanks before all definitions
belong to the first one.  So where nodes start with ink, a chunk ends exactly
at the next ink, and the residue is as small as it can be: it starts with ink
wherever it goes on behind a definition, it has ink in each of its spans, and
it is there only when there is ink outside of all definitions and of what is
attached to them.

Where the blanks behind a definition end is found in the slice up to the next
definition.  That this is the next ink of the whole source takes the start of
the next definition to have ink: its node, a comment or an attribute.

## Main results

* `Partition.settle_next` — settled definitions end at the next ink.
* `Partition.residue_ink` — what is left between them has ink.
* `Partition.residue_ne_nil_iff` — when anything is left.
* `Chunk.ofDefinitions_blanksOwned` — all of these, for the chunks of a tree.
-/

namespace SourceIndex

open Text (InkAt Inkless NextInk byteLength)

variable {source : List Char}

namespace Partition

variable {definitions settled : List Definition}

/-! ## Ends of settled definitions -/

/-- Owning blanks takes a definition to the next ink, when the one behind it
starts with ink. -/
theorem ownBlanks_next {start : Nat} (h : Settled source start definitions)
    (hInk : ∀ definition ∈ definitions, InkAt source definition.span.start) :
    List.Forall₂ (fun definition owner => NextInk source definition.span.stop owner.span.stop)
      definitions (ownBlanks source definitions) := by
  induction definitions generalizing start with
  | nil => exact .nil
  | cons definition rest ih =>
      obtain ⟨⟨_, _, hFits⟩, hRest⟩ := settled_cons.mp h
      obtain ⟨hLimit, hLe, _⟩ := hRest.limit
      obtain ⟨hBlank, hEnd⟩ := Text.blanks_end hFits.stop hLimit hLe
      have hLimitInk : InkAt source (limit source rest) ∨
          limit source rest = byteLength source := by
        cases rest with
        | nil => exact .inr rfl
        | cons next rest =>
            exact .inl (hInk next (List.mem_cons_of_mem definition List.mem_cons_self))
      rw [ownBlanks_cons]
      refine .cons ⟨Nat.le_add_right _ _, hBlank, ?_⟩
        (ih hRest fun other hOther => hInk other (List.mem_cons_of_mem definition hOther))
      rcases hEnd with hAtLimit | hNext
      · rw [← hAtLimit] at hLimitInk
        exact hLimitInk
      · exact .inl hNext

/-- Owning the prologue moves no end. -/
theorem map_stop_ownPrologue (definitions : List Definition) :
    (ownPrologue source definitions).map (·.span.stop) = definitions.map (·.span.stop) := by
  cases definitions with
  | nil => rfl
  | cons first rest =>
      rw [ownPrologue]
      split <;> rfl

/-- **Settled definitions end at the next ink**, when they start with ink. -/
theorem settle_next {stop : Nat} (hApart : Span.Apart 0 stop (definitions.map (·.span)))
    (hFit : ∀ definition ∈ definitions, definition.span.Fits source)
    (hInk : ∀ definition ∈ definitions, InkAt source definition.span.start) :
    List.Forall₂ (fun definition owner => NextInk source definition.span.stop owner.span.stop)
      definitions (settle source definitions) := by
  have hSettled := disjoint_sorted_apart hFit
  rw [disjoint_sorted_eq_self hApart] at hSettled
  have hNext : List.Forall₂ (fun definition stop => NextInk source definition.span.stop stop)
      definitions ((ownBlanks source definitions).map (·.span.stop)) :=
    List.forall₂_map_right_iff.mpr (ownBlanks_next hSettled hInk)
  rw [← map_stop_ownPrologue, List.forall₂_map_right_iff] at hNext
  rw [settle, disjoint_sorted_eq_self hApart]
  exact hNext

/-- The first settled definition starts the source or has ink before it. -/
theorem head_settle (hFit : ∀ definition ∈ definitions, definition.span.Fits source) :
    ∀ first ∈ (settle source definitions).head?,
      first.span.start = 0 ∨ ¬ Inkless source 0 first.span.start := by
  have hSettled := ownBlanks_apart (disjoint_sorted_apart hFit)
  rw [settle]
  generalize ownBlanks source _ = owners at hSettled ⊢
  intro first hFirst
  cases owners with
  | nil => cases hFirst
  | cons owner rest =>
      rw [ownPrologue] at hFirst
      split at hFirst
      · obtain rfl := Option.some.inj hFirst
        exact .inl rfl
      · next hInk =>
          obtain rfl := Option.some.inj hFirst
          have hStart := (hSettled.fit owner List.mem_cons_self).start
          rw [Text.allBlank_takeBytes_iff hStart] at hInk
          exact .inr hInk

/-! ## Ink in the residue -/

/-- Gaps behind ends with ink start with ink. -/
theorem gaps_ink {spans : List Span} {cursor : Nat}
    (hApart : Span.Apart cursor (byteLength source) spans)
    (hCursor : InkAt source cursor ∨ cursor = byteLength source)
    (hStops : ∀ span ∈ spans, InkAt source span.stop ∨ span.stop = byteLength source) :
    ∀ gap ∈ gaps (byteLength source) cursor spans, InkAt source gap.start := by
  induction spans generalizing cursor with
  | nil =>
      intro gap hGap
      rw [gaps] at hGap
      split at hGap
      · next hLt =>
          obtain rfl := List.mem_singleton.mp hGap
          exact hCursor.resolve_right (Nat.ne_of_lt hLt)
      · cases hGap
  | cons span rest ih =>
      obtain ⟨_, hSize, hRest⟩ := hApart
      have hStop := hRest.start_le_stop
      intro gap hGap
      rw [Span.gaps_cons] at hGap
      rcases List.mem_append.mp hGap with hHere | hLater
      · split at hHere
        · next hLt =>
            obtain rfl := List.mem_singleton.mp hHere
            exact hCursor.resolve_right (by omega)
        · cases hHere
      · exact ih hRest (hStops span List.mem_cons_self)
          (fun other hOther => hStops other (List.mem_cons_of_mem span hOther)) gap hLater

/-- **What is left between settled definitions has ink**, and starts with it
where it does not start the source. -/
theorem residue_ink (h : Settled source 0 settled) (hSome : settled ≠ [])
    (hFirst : ∀ first ∈ settled.head?, first.span.start = 0 ∨ ¬ Inkless source 0 first.span.start)
    (hStops : ∀ definition ∈ settled,
      InkAt source definition.span.stop ∨ definition.span.stop = byteLength source) :
    ∀ gap ∈ residue source settled,
      (gap.start ≠ 0 → InkAt source gap.start) ∧
        ∃ offset, gap.Holds offset ∧ InkAt source offset := by
  obtain ⟨first, rest, rfl⟩ := List.exists_cons_of_ne_nil hSome
  obtain ⟨_, hRest⟩ := settled_cons.mp h
  intro gap hGap
  rw [residue, List.map_cons, Span.gaps_cons] at hGap
  rcases List.mem_append.mp hGap with hHere | hLater
  · split at hHere
    · next hLt =>
        obtain rfl := List.mem_singleton.mp hHere
        refine ⟨fun hStart => absurd rfl hStart, ?_⟩
        have hInk := (hFirst first rfl).resolve_left (by omega)
        simp only [Inkless, not_forall, not_not] at hInk
        obtain ⟨offset, hFrom, hTo, hOffset⟩ := hInk
        exact ⟨offset, ⟨hFrom, hTo⟩, hOffset⟩
    · cases hHere
  · have hInk := gaps_ink hRest.apart (hStops first List.mem_cons_self) (by
      intro span hSpan
      obtain ⟨definition, hDefinition, rfl⟩ := List.mem_map.mp hSpan
      exact hStops definition (List.mem_cons_of_mem first hDefinition)) gap hLater
    have hSize := (Span.mem_gaps hRest.apart hLater).2.1
    exact ⟨fun _ => hInk, gap.start, ⟨Nat.le_refl _, hSize⟩, hInk⟩

/-! ## Ink outside of all definitions -/

/-- The ink in a settled definition is in its node or in what is attached. -/
theorem Settles.holds_iff {rules : DefinitionRules} {found : Match} {definition : Definition}
    (h : Settles source (Definition.ofMatch source rules found) definition)
    (hFound : found.WellFormed source) {offset : Nat} (hInk : InkAt source offset) :
    definition.span.Holds offset ↔
      ∃ node ∈ found.outer :: found.attached source rules, node.span.Holds offset := by
  have hFill := hFound.fill rules
  have hNode := hFound.outer.fits.ordered
  have hLe := hFill.le
  obtain ⟨_, hStart, hStop, hBlank⟩ := h
  rw [Match.ofMatch_span] at hStart hStop hBlank
  constructor
  · rintro ⟨hFrom, hTo⟩
    by_cases hBehind : found.outer.span.stop ≤ offset
    · exact absurd hInk (hBlank offset hBehind hTo)
    · by_cases hInside : found.outer.span.start ≤ offset
      · exact ⟨found.outer, List.mem_cons_self, hInside, Nat.lt_of_not_le hBehind⟩
      · by_cases hBefore : found.start source rules ≤ offset
        · obtain ⟨node, hMem, hHolds⟩ :=
            hFill.ink offset hBefore (Nat.lt_of_not_le hInside) hInk
          exact ⟨node, List.mem_cons_of_mem found.outer hMem, hHolds⟩
        · -- Before all that is attached are the blanks that start the file.
          rcases hStart with hSame | ⟨_, hPrologue⟩
          · have hSameStart : definition.span.start = found.start source rules := hSame
            omega
          · exact absurd hInk (hPrologue offset (Nat.zero_le _) (Nat.lt_of_not_le hBefore))
  · have hStartLe : definition.span.start ≤ found.start source rules := by
      rcases hStart with hSame | ⟨hZero, _⟩
      · exact Nat.le_of_eq hSame
      · omega
    have hStopLe : found.outer.span.stop ≤ definition.span.stop := hStop
    rintro ⟨node, hMem, hFrom, hTo⟩
    rcases List.mem_cons.mp hMem with rfl | hAttached
    · exact ⟨by omega, by omega⟩
    · obtain ⟨hNodeStart, hNodeStop⟩ := hFill.inside node hAttached
      exact ⟨by omega, by omega⟩

/-- **Something is left when there is ink outside of all definitions** and of
what is attached to them. -/
theorem residue_ne_nil_iff {rules : DefinitionRules} {matched : List Match}
    (h : Settled source 0 settled)
    (hInk : ∀ gap ∈ residue source settled, ∃ offset, gap.Holds offset ∧ InkAt source offset)
    (hFound : ∀ found ∈ matched, found.WellFormed source)
    (hSettles : List.Forall₂
      (fun found => Settles source (Definition.ofMatch source rules found)) matched settled) :
    residue source settled ≠ [] ↔
      ∃ offset, InkAt source offset ∧ ∀ found ∈ matched,
        ∀ node ∈ found.outer :: found.attached source rules, ¬ node.span.Holds offset := by
  constructor
  · intro hSome
    obtain ⟨gap, hGap⟩ := List.exists_mem_of_ne_nil _ hSome
    obtain ⟨offset, hHolds, hOffset⟩ := hInk gap hGap
    refine ⟨offset, hOffset, fun found hMem node hNode hNodeHolds => ?_⟩
    obtain ⟨definition, hDefinition, hHere⟩ := Pairing.exists_right hSettles hMem
    obtain ⟨hFrom, hTo⟩ := (hHere.holds_iff (hFound found hMem) hOffset).mpr
      ⟨node, hNode, hNodeHolds⟩
    have hOutside := Span.gaps_outside h.apart (List.mem_map_of_mem hDefinition) hGap
    obtain ⟨hGapFrom, hGapTo⟩ := hHolds
    omega
  · rintro ⟨offset, hOffset, hNone⟩
    have hOutside : ∀ span ∈ settled.map (·.span), ¬ span.Holds offset := by
      intro span hSpan hHolds
      obtain ⟨definition, hDefinition, rfl⟩ := List.mem_map.mp hSpan
      obtain ⟨found, hMem, hHere⟩ := Pairing.exists_left hSettles hDefinition
      obtain ⟨node, hNode, hNodeHolds⟩ := (hHere.holds_iff (hFound found hMem) hOffset).mp hHolds
      exact hNone found hMem node hNode hNodeHolds
    obtain ⟨gap, hGap, _⟩ :=
      Span.gaps_cover h.apart (Nat.zero_le offset) hOffset.lt_byteLength hOutside
    exact List.ne_nil_of_mem hGap

end Partition

namespace Chunk

variable {filePath : String} {language : Language} {options : ChunkOptions} {root : Node}

/-! ## The residue of a tree -/

/-- There is a residue when settled definitions leave anything. -/
theorem exists_residue_iff {source : String} :
    (∃ chunk ∈ ofTree source filePath language options root, chunk.granularity = .residue) ↔
      Partition.residue source.toList (settled source.toList language options root) ≠ [] := by
  constructor
  · rintro ⟨chunk, hChunk, hGranularity⟩
    obtain ⟨_, _, _, first, _, hFirst, _⟩ :=
      ofResidue?_eq_some (residue_of_mem_ofTree hChunk hGranularity)
    exact List.ne_nil_of_mem (List.mem_of_head? hFirst)
  · intro hSome
    obtain ⟨chunk, hChunk⟩ := Option.ne_none_iff_exists'.mp (mt ofResidue?_eq_none hSome)
    refine ⟨chunk, ?_, (ofResidue?_eq_some hChunk).2.1⟩
    rw [ofTree_eq_sorted, List.mem_mergeSort]
    exact List.mem_append_right _ (Option.mem_toList.mpr hChunk)

/-- Chunks in which blanks stand with the definition before them: in a tree
with definitions, whose chunks are told by their matches. -/
structure BlanksOwned (source : List Char) (rules : DefinitionRules) (root : Node)
    (chunks : List Chunk) : Prop where
  /-- The chunk of a definition ends at the next ink behind the node. -/
  ends : List.Forall₂
    (fun found chunk => NextInk source found.outer.span.stop chunk.range.stop)
    (rules.matchesBelow [] root) (chunks.filter (·.granularity ≠ .residue))
  /-- Blanks that start the file belong to the first definition. -/
  prologue : ∀ found chunk, (rules.matchesBelow [] root).head? = some found →
    (chunks.filter (·.granularity ≠ .residue)).head? = some chunk →
    Inkless source 0 (found.start source rules) →
      chunk.range.start = 0 ∧ chunks.head? = some chunk
  /-- The residue has ink in each span, and starts with it behind a definition. -/
  residue_ink : ∀ chunk ∈ chunks, chunk.granularity = .residue → ∀ span ∈ chunk.spans,
    (span.start ≠ 0 → InkAt source span.start) ∧
      ∃ offset, span.Holds offset ∧ InkAt source offset
  /-- There is a residue when there is ink outside of all definitions and of
  what is attached to them. -/
  residue_iff : (∃ chunk ∈ chunks, chunk.granularity = .residue) ↔
    ∃ offset, InkAt source offset ∧ ∀ found ∈ rules.matchesBelow [] root,
      ∀ node ∈ found.outer :: found.attached source rules, ¬ node.span.Holds offset

/-- Where there is no definition, all of the file is residue. -/
theorem ofTree_of_no_match {source : String}
    (h : (DefinitionRules.of language options).matchesBelow [] root = []) :
    (source = "" ∧ ofTree source filePath language options root = []) ∨
      (source ≠ "" ∧ ∃ chunk, ofTree source filePath language options root = [chunk] ∧
        chunk.granularity = .residue ∧ chunk.spans = [⟨0, byteLength source.toList⟩]) := by
  have hSettled : settled source.toList language options root = [] := by
    rw [settled, Definition.all, h, List.map_nil, Partition.settle, List.mergeSort_nil]
    rfl
  rw [ofTree_eq_sorted, hSettled, unsorted]
  by_cases hEmpty : source = ""
  · subst hEmpty
    exact .inl ⟨rfl, List.mergeSort_nil⟩
  · have hLength : 0 < byteLength source.toList := by
      obtain ⟨c, rest, hText⟩ :=
        List.exists_cons_of_ne_nil (mt String.toList_eq_nil_iff.mp hEmpty)
      have hPos := c.utf8Size_pos
      rw [hText, Text.byteLength_cons]
      omega
    have hResidue : Partition.residue source.toList [] = [⟨0, byteLength source.toList⟩] :=
      if_pos hLength
    rw [hResidue]
    exact .inr ⟨hEmpty, _, List.mergeSort_singleton _, rfl, rfl⟩

section Definitions

variable {source : String} (h : root.WellFormed source.toList)
  (hPlain : ∀ located ∈ (DefinitionRules.of language options).outermost root,
    (DefinitionRules.of language options).Plain located)
  (hInk : ∀ located ∈ (DefinitionRules.of language options).outermost root,
    located.node.span.InkFirst source.toList ∧
      (DefinitionRules.of language options).InkBeside source.toList located)

include h hInk in
/-- Definitions start with ink where nodes do. -/
theorem all_ink : ∀ definition ∈ Definition.all source.toList
    (DefinitionRules.of language options) root, InkAt source.toList definition.span.start := by
  intro definition hDefinition
  obtain ⟨found, hMem, rfl⟩ := List.mem_map.mp hDefinition
  have hFound := (DefinitionRules.of language options).matchesBelow_root_wellFormed h found hMem
  obtain ⟨located, hLocated, hPlaced⟩ := Pairing.exists_right
    ((DefinitionRules.of language options).matchesBelow_placed root) hMem
  obtain ⟨hOwn, hBeside⟩ := hInk located hLocated
  rw [Match.ofMatch_span]
  rcases Match.start_eq_or_ink hFound hPlaced hBeside with hSame | hStart
  · show InkAt source.toList (found.start source.toList (DefinitionRules.of language options))
    rw [← hPlaced.outer] at hOwn
    rw [hSame]
    exact (hOwn.ink hFound.outer.fits).2
  · exact hStart

include h hPlain hInk in
theorem settled_next : List.Forall₂
    (fun definition owner => NextInk source.toList definition.span.stop owner.span.stop)
    (Definition.all source.toList (DefinitionRules.of language options) root)
    (settled source.toList language options root) :=
  Partition.settle_next (Definition.all_apart h hPlain) (Definition.all_fit _ h) (all_ink h hInk)

/-- A chunk that starts the file is the first one. -/
theorem head?_of_start_eq_zero {chunks : List Chunk} {chunk : Chunk}
    (hStarts : chunks.Pairwise fun a b => a.range.start < b.range.start) (hMem : chunk ∈ chunks)
    (hZero : chunk.range.start = 0) : chunks.head? = some chunk := by
  cases chunks with
  | nil => cases hMem
  | cons first rest =>
      rcases List.mem_cons.mp hMem with rfl | hLater
      · rfl
      · have hBefore := (List.pairwise_cons.mp hStarts).1 chunk hLater
        omega

include h hPlain in
/-- The first definition takes the blanks that start the file. -/
theorem first_start {found : Match} {chunk : Chunk}
    (hFound : ((DefinitionRules.of language options).matchesBelow [] root).head? = some found)
    (hChunk : ((ofTree source filePath language options root).filter
      (·.granularity ≠ .residue)).head? = some chunk)
    (hBlank : Inkless source.toList 0
      (found.start source.toList (DefinitionRules.of language options))) :
    chunk.range.start = 0 := by
  have hHead := Partition.head_settle
    (Definition.all_fit (DefinitionRules.of language options) h)
  have hMatch := Pairing.head (forall₂_ofTree h hPlain) hFound hChunk
  rw [filter_ofTree h, List.head?_map] at hChunk
  obtain ⟨first, hFirst, rfl⟩ := Option.map_eq_some_iff.mp hChunk
  rcases hMatch.start with hSame | ⟨hZero, _⟩
  · refine (hHead first hFirst).resolve_right fun hInkBefore => hInkBefore ?_
    rw [← hSame] at hBlank
    exact hBlank
  · exact hZero

include h hPlain hInk in
theorem ofTree_blanksOwned (hSome : (DefinitionRules.of language options).outermost root ≠ []) :
    BlanksOwned source.toList (DefinitionRules.of language options) root
      (ofTree source filePath language options root) := by
  have hFound := (DefinitionRules.of language options).matchesBelow_root_wellFormed h
  have hPlaced := (DefinitionRules.of language options).matchesBelow_placed root
  have hNext := settled_next h hPlain hInk
  have hSettles := Partition.settle_settles (Definition.all_apart h hPlain)
    (Definition.all_fit (DefinitionRules.of language options) h)
  have hResidue : ∀ gap ∈ Partition.residue source.toList
      (settled source.toList language options root),
      (gap.start ≠ 0 → InkAt source.toList gap.start) ∧
        ∃ offset, gap.Holds offset ∧ InkAt source.toList offset := by
    refine Partition.residue_ink (settled_apart h) ?_
      (Partition.head_settle (Definition.all_fit _ h)) ?_
    · intro hNone
      rw [settled] at hNone
      rw [hNone, List.forall₂_nil_right_iff, Definition.all, List.map_eq_nil_iff] at hSettles
      rw [hSettles, List.forall₂_nil_left_iff] at hPlaced
      exact hSome hPlaced
    · intro definition hDefinition
      obtain ⟨_, _, hHere⟩ := Pairing.exists_left hNext hDefinition
      exact hHere.ink
  refine
    { ends := ?_, prologue := ?_, residue_ink := ?_, residue_iff := ?_ }
  · refine (forall₂_of_settled h hNext).imp ?_
    rintro found chunk ⟨definition, hHere, _, rfl⟩
    rw [Match.ofMatch_span] at hHere
    exact hHere
  · intro found chunk hHead hChunk hBlank
    have hZero := first_start h hPlain hHead hChunk hBlank
    have hMem := (List.mem_filter.mp (List.mem_of_head? hChunk)).1
    exact ⟨hZero, head?_of_start_eq_zero (ofTree_lossless h).starts hMem hZero⟩
  · intro chunk hChunk hGranularity span hSpan
    rw [(ofResidue?_eq_some (residue_of_mem_ofTree hChunk hGranularity)).1] at hSpan
    exact hResidue span hSpan
  · rw [exists_residue_iff]
    refine Partition.residue_ne_nil_iff (settled_apart h) (fun gap hGap => (hResidue gap hGap).2)
      hFound ?_
    rw [← List.forall₂_map_left_iff]
    exact hSettles

end Definitions

/--
**Blanks belong to the definition before them.**  In a tree whose outermost
matching nodes, and the comments and attributes beside them, start with ink,
and with no such node inside a comment or an attribute, the chunk of each
definition ends at the next ink, the first one takes the blanks that start the
file, and the residue is what has ink outside of all definitions and of what is
attached to them.  Without a definition all of the file is residue.
-/
theorem ofDefinitions_blanksOwned (source filePath : String) (language : Language)
    (options : ChunkOptions) (root : Node) (h : root.WellFormed source.toList)
    (hPlain : ∀ located ∈ (DefinitionRules.of language options).outermost root,
      (DefinitionRules.of language options).Plain located)
    (hInk : ∀ located ∈ (DefinitionRules.of language options).outermost root,
      located.node.span.InkFirst source.toList ∧
        (DefinitionRules.of language options).InkBeside source.toList located) :
    ∃ chunks,
      ofDefinitions source filePath language options (.clean root) = .ok chunks ∧
      (options.strategy ≠ .wholeFile → Language.ofPath? filePath = some language →
        (ChunkedFile.of source filePath options (.clean root)).chunks = chunks) ∧
      ((DefinitionRules.of language options).outermost root ≠ [] →
        BlanksOwned source.toList (DefinitionRules.of language options) root chunks) ∧
      ((DefinitionRules.of language options).outermost root = [] →
        (source = "" ∧ chunks = []) ∨
          (source ≠ "" ∧ ∃ chunk, chunks = [chunk] ∧ chunk.granularity = .residue ∧
            chunk.spans = [⟨0, byteLength source.toList⟩])) := by
  refine ⟨ofTree source filePath language options root, rfl, ofFile_chunks,
    ofTree_blanksOwned h hPlain hInk, fun hNone => ofTree_of_no_match ?_⟩
  have hPlaced := (DefinitionRules.of language options).matchesBelow_placed root
  rw [hNone, List.forall₂_nil_right_iff] at hPlaced
  exact hPlaced

theorem ofDefinitions_blanksOwned_accent :
    Accent.tree.WellFormed Accent.source.toList ∧
      (∀ located ∈ (DefinitionRules.of .python ⟨.functions, true⟩).outermost Accent.tree,
        (DefinitionRules.of .python ⟨.functions, true⟩).Plain located) ∧
      (∀ located ∈ (DefinitionRules.of .python ⟨.functions, true⟩).outermost Accent.tree,
        located.node.span.InkFirst Accent.source.toList ∧
          (DefinitionRules.of .python ⟨.functions, true⟩).InkBeside Accent.source.toList located) ∧
      (DefinitionRules.of .python ⟨.functions, true⟩).outermost Accent.tree ≠ [] ∧
      BlanksOwned Accent.source.toList (DefinitionRules.of .python ⟨.functions, true⟩) Accent.tree
        (ChunkedFile.of Accent.source "a.py" ⟨.functions, true⟩ (.clean Accent.tree)).chunks := by
  have hSome : (DefinitionRules.of .python ⟨.functions, true⟩).outermost Accent.tree ≠ [] :=
    List.ne_nil_of_length_pos (by decide)
  obtain ⟨chunks, _, hFile, hOwned, _⟩ := ofDefinitions_blanksOwned Accent.source "a.py" .python
    ⟨.functions, true⟩ Accent.tree Accent.wellFormed Accent.plain Accent.inkFirst
  rw [hFile (by decide) Accent.language]
  exact ⟨Accent.wellFormed, Accent.plain, Accent.inkFirst, hSome, hOwned hSome⟩

end Chunk

end SourceIndex
