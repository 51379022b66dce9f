import SourceIndex.Proofs.Chunk.CheckedFile
import SourceIndex.Proofs.Sorting

/-!
# Chunking loses nothing

A file is split without losing, repeating or moving a byte.  The spans of its
chunks, sorted by their starts, tile the file; the text of a chunk is what its
spans cover; only the residue has more than one span, and these come in order
without touching.  `Lossless` collects this, and the function with checked
cuts (`Checked.file`) shows that no slice was taken on the way that a text in
UTF-8 does not have.

The chunks of a tree are the chunks of its settled definitions and that of
their gaps.  All that is claimed of them follows from `Partition.Settled` and
the tiling that settled spans and their gaps make.

## Main results

* `Chunk.unsorted_lossless` — settled definitions and their residue.
* `Chunk.ofTree_lossless` — the chunks of a tree.
* `ChunkedFile.of_lossless` — the chunks of any file.
-/

namespace SourceIndex

open Text (byteLength)

/-- The spans of some chunks, sorted by their starts. -/
def sortedSpans (chunks : List Chunk) : List Span :=
  (chunks.flatMap (·.spans)).mergeSort fun a b => a.start ≤ b.start

/-- Chunks that hold each byte of a source once, in order. -/
structure Lossless (source : List Char) (chunks : List Chunk) : Prop where
  /-- No byte is left out and none is in two spans. -/
  tiles : Span.Tiles 0 (byteLength source) (sortedSpans chunks)
  /-- No span cuts a character. -/
  fit : ∀ span ∈ sortedSpans chunks, span.Fits source
  text : ∀ chunk ∈ chunks, chunk.text.toList = chunk.spans.flatMap (·.text source)
  single : ∀ chunk ∈ chunks, chunk.granularity ≠ .residue → chunk.spans = [chunk.range]
  residues : (chunks.filter (·.granularity = .residue)).length ≤ 1
  residue_size : ∀ chunk ∈ chunks, chunk.granularity = .residue →
    ∀ span ∈ chunk.spans, span.start < span.stop
  residue_order : ∀ chunk ∈ chunks, chunk.granularity = .residue →
    chunk.spans.Pairwise fun a b => a.stop < b.start
  residue_range : ∀ chunk ∈ chunks, chunk.granularity = .residue →
    ∃ first last, chunk.spans.head? = some first ∧ chunk.spans.getLast? = some last ∧
      chunk.range = ⟨first.start, last.stop⟩
  starts : chunks.Pairwise fun a b => a.range.start < b.range.start

/-- The texts of the spans of such chunks join to the source. -/
theorem Lossless.joined {source : List Char} {chunks : List Chunk} (h : Lossless source chunks) :
    (sortedSpans chunks).flatMap (·.text source) = source := by
  rw [h.tiles.flatMap_text (Text.isBoundary_byteLength source) h.fit, Text.slice_zero_byteLength]

/-- Each byte of the source is in exactly one span of such chunks. -/
theorem Lossless.covered {source : List Char} {chunks : List Chunk} (h : Lossless source chunks)
    {byte : Nat} (hByte : byte < byteLength source) :
    ∃ before span after, sortedSpans chunks = before ++ span :: after ∧ span.Holds byte ∧
      ∀ other ∈ before ++ after, ¬ other.Holds byte :=
  h.tiles.covered (Nat.zero_le byte) hByte

namespace Chunk

variable {source : List Char} {filePath : String} {language : Language} {strategy : Strategy}

/-! ## Single chunks -/

theorem granularity_ofStrategy (strategy : Strategy) :
    Granularity.ofStrategy strategy ≠ .residue := by
  cases strategy <;> decide

/-- The chunk of the residue, by its parts. -/
theorem ofResidue?_eq_some {spans : List Span} {chunk : Chunk}
    (h : ofResidue? source filePath language strategy spans = some chunk) :
    chunk.spans = spans ∧ chunk.granularity = .residue ∧
      chunk.text.toList = spans.flatMap (·.text source) ∧
      ∃ first last, spans.head? = some first ∧ spans.getLast? = some last ∧
        chunk.range = ⟨first.start, last.stop⟩ := by
  unfold ofResidue? at h
  split at h
  · next first last hFirst hLast =>
      obtain rfl := Option.some.inj h
      exact ⟨rfl, rfl, String.toList_ofList, first, last, hFirst, hLast, rfl⟩
  · cases h

/-- The residue is left out only where it is empty. -/
theorem ofResidue?_eq_none {spans : List Span}
    (h : ofResidue? source filePath language strategy spans = none) : spans = [] := by
  unfold ofResidue? at h
  split at h
  · cases h
  · next hEnds =>
      cases spans with
      | nil => rfl
      | cons span rest =>
          exact absurd (List.getLast?_eq_some_getLast (List.cons_ne_nil span rest))
            (hEnds span _ rfl)

theorem flatMap_spans_ofResidue? (spans : List Span) :
    (ofResidue? source filePath language strategy spans).toList.flatMap (·.spans) = spans := by
  cases h : ofResidue? source filePath language strategy spans with
  | none => rw [ofResidue?_eq_none h]; rfl
  | some chunk =>
      rw [Option.toList_some, List.flatMap_singleton]
      exact (ofResidue?_eq_some h).1

theorem flatMap_spans_ofDefinition (definitions : List Definition) :
    (definitions.map (ofDefinition source filePath language strategy)).flatMap (·.spans) =
      definitions.map (·.span) := by
  rw [List.flatMap_map]
  exact List.map_eq_flatMap.symm

/-! ## The chunks of a tree -/

/-- The settled definitions of a tree. -/
def settled (source : List Char) (language : Language) (options : ChunkOptions) (root : Node) :
    List Definition :=
  Partition.settle source (Definition.all source (DefinitionRules.of language options) root)

/-- The chunks of some definitions and of what they leave, not yet in order. -/
def unsorted (source : List Char) (filePath : String) (language : Language)
    (strategy : Strategy) (definitions : List Definition) : List Chunk :=
  definitions.map (ofDefinition source filePath language strategy) ++
    (ofResidue? source filePath language strategy (Partition.residue source definitions)).toList

theorem ofTree_eq_sorted {text : String} {options : ChunkOptions} {root : Node} :
    ofTree text filePath language options root =
      (unsorted text.toList filePath language options.strategy
        (settled text.toList language options root)).mergeSort
        fun a b => a.range.start ≤ b.range.start :=
  rfl

variable {definitions : List Definition}

theorem flatMap_spans_unsorted :
    (unsorted source filePath language strategy definitions).flatMap (·.spans) =
      definitions.map (·.span) ++ Partition.residue source definitions := by
  rw [unsorted, List.flatMap_append, flatMap_spans_ofDefinition, flatMap_spans_ofResidue?]

/-- A chunk of a tree is that of a definition or that of the residue. -/
theorem mem_unsorted {chunk : Chunk}
    (h : chunk ∈ unsorted source filePath language strategy definitions) :
    (∃ definition ∈ definitions,
        chunk = ofDefinition source filePath language strategy definition) ∨
      ofResidue? source filePath language strategy (Partition.residue source definitions) =
        some chunk := by
  rcases List.mem_append.mp h with hDefinition | hResidue
  · obtain ⟨definition, hMem, rfl⟩ := List.mem_map.mp hDefinition
    exact .inl ⟨definition, hMem, rfl⟩
  · exact .inr (Option.mem_toList.mp hResidue)

/-- The starts of the chunks are starts of spans or of gaps, in their order. -/
theorem starts_unsorted_sublist :
    ((unsorted source filePath language strategy definitions).map (·.range.start)).Sublist
      ((definitions.map (·.span) ++ Partition.residue source definitions).map (·.start)) := by
  rw [unsorted, List.map_append, List.map_append, List.map_map, List.map_map]
  refine List.Sublist.append (List.Sublist.refl _) ?_
  cases h : ofResidue? source filePath language strategy (Partition.residue source definitions) with
  | none => exact List.nil_sublist _
  | some chunk =>
      obtain ⟨_, _, _, first, last, hFirst, _, hRange⟩ := ofResidue?_eq_some h
      rw [Option.toList_some, List.map_singleton, hRange, List.singleton_sublist]
      exact List.mem_map.mpr ⟨first, List.mem_of_head? hFirst, rfl⟩

/-- Settled definitions and their gaps start at different places. -/
theorem starts_unsorted_nodup (h : Partition.Settled source 0 definitions) :
    ((unsorted source filePath language strategy definitions).map (·.range.start)).Nodup := by
  have hCompleted := (Span.apart_completed h.apart).starts
  have hStarts : ((Span.completed (byteLength source) 0
      (definitions.map (·.span))).map (·.start)).Nodup :=
    List.pairwise_map.mpr (hCompleted.imp Nat.ne_of_lt)
  have hPerm := (Span.completed_perm (byteLength source) 0 (definitions.map (·.span))).map (·.start)
  exact starts_unsorted_sublist.nodup (hPerm.nodup_iff.mpr hStarts)

/-- The spans of all chunks are the definitions completed by their gaps. -/
theorem sortedSpans_of_perm (h : Partition.Settled source 0 definitions) {chunks : List Chunk}
    (hPerm : chunks.Perm (unsorted source filePath language strategy definitions)) :
    sortedSpans chunks =
      Span.completed (byteLength source) 0 (definitions.map (·.span)) := by
  have hSpans := hPerm.flatMap_right (·.spans)
  rw [flatMap_spans_unsorted] at hSpans
  exact Sorting.sortBy_eq_of_perm (fun span : Span => span.start)
    (hSpans.trans (Span.completed_perm _ _ _))
    (Span.apart_completed h.apart).starts

/-- The spans of all chunks fit the source. -/
theorem completed_fit (h : Partition.Settled source 0 definitions) :
    ∀ span ∈ Span.completed (byteLength source) 0 (definitions.map (·.span)),
      span.Fits source := by
  intro span hSpan
  rw [← (Span.completed_perm _ _ _).mem_iff] at hSpan
  rcases List.mem_append.mp hSpan with hDefinition | hGap
  · obtain ⟨definition, hMem, rfl⟩ := List.mem_map.mp hDefinition
    exact h.fit definition hMem
  · exact h.residue_fit span hGap

theorem text_of_mem_unsorted {chunk : Chunk}
    (h : chunk ∈ unsorted source filePath language strategy definitions) :
    chunk.text.toList = chunk.spans.flatMap (·.text source) := by
  rcases mem_unsorted h with ⟨definition, _, rfl⟩ | hFound
  · rw [ofDefinition, String.toList_ofList, List.flatMap_singleton]
  · obtain ⟨hOwn, _, hText, _⟩ := ofResidue?_eq_some hFound
    rw [hText, hOwn]

/-- Only the residue has more than one span. -/
theorem spans_of_mem_unsorted {chunk : Chunk}
    (h : chunk ∈ unsorted source filePath language strategy definitions)
    (hGranularity : chunk.granularity ≠ .residue) : chunk.spans = [chunk.range] := by
  rcases mem_unsorted h with ⟨definition, _, rfl⟩ | hFound
  · rfl
  · exact absurd (ofResidue?_eq_some hFound).2.1 hGranularity

/-- A chunk of the residue is the one that was made of it. -/
theorem residue_of_mem_unsorted {chunk : Chunk}
    (h : chunk ∈ unsorted source filePath language strategy definitions)
    (hGranularity : chunk.granularity = .residue) :
    ofResidue? source filePath language strategy (Partition.residue source definitions) =
      some chunk := by
  rcases mem_unsorted h with ⟨definition, _, rfl⟩ | hFound
  · exact absurd hGranularity (granularity_ofStrategy strategy)
  · exact hFound

theorem residue_of_mem_ofTree {text : String} {options : ChunkOptions} {root : Node}
    {chunk : Chunk} (h : chunk ∈ ofTree text filePath language options root)
    (hGranularity : chunk.granularity = .residue) :
    ofResidue? text.toList filePath language options.strategy
      (Partition.residue text.toList (settled text.toList language options root)) =
        some chunk := by
  rw [ofTree_eq_sorted, List.mem_mergeSort] at h
  exact residue_of_mem_unsorted h hGranularity

theorem length_residues_le :
    ((unsorted source filePath language strategy definitions).filter
      (·.granularity = .residue)).length ≤ 1 := by
  have hNone : (definitions.map (ofDefinition source filePath language strategy)).filter
      (·.granularity = .residue) = [] := by
    rw [List.filter_eq_nil_iff]
    intro chunk hChunk
    obtain ⟨definition, _, rfl⟩ := List.mem_map.mp hChunk
    have hGranularity : (ofDefinition source filePath language strategy definition).granularity ≠
        .residue := granularity_ofStrategy strategy
    simpa using hGranularity
  rw [unsorted, List.filter_append, hNone, List.nil_append]
  exact Nat.le_trans (List.length_filter_le _ _) Option.length_toList_le

/-- **The chunks of settled definitions and their residue lose nothing.** -/
theorem unsorted_lossless (h : Partition.Settled source 0 definitions) :
    Lossless source ((unsorted source filePath language strategy definitions).mergeSort
      fun a b => a.range.start ≤ b.range.start) := by
  have hPerm := List.mergeSort_perm (unsorted source filePath language strategy definitions)
    fun a b => decide (a.range.start ≤ b.range.start)
  have hSpans := sortedSpans_of_perm h hPerm
  refine
    { tiles := ?_, fit := ?_, residues := ?_, residue_size := ?_, residue_order := ?_
      residue_range := ?_
      text := fun chunk hChunk => text_of_mem_unsorted (hPerm.mem_iff.mp hChunk)
      single := fun chunk hChunk => spans_of_mem_unsorted (hPerm.mem_iff.mp hChunk)
      starts := Sorting.pairwise_lt_sortBy (fun chunk : Chunk => chunk.range.start)
        (starts_unsorted_nodup h) }
  · rw [hSpans]
    exact Span.tiles_completed h.apart
  · rw [hSpans]
    exact completed_fit h
  · rw [(hPerm.filter _).length_eq]
    exact length_residues_le
  · intro chunk hChunk hGranularity span hSpan
    have hFound := residue_of_mem_unsorted (hPerm.mem_iff.mp hChunk) hGranularity
    rw [(ofResidue?_eq_some hFound).1] at hSpan
    exact h.residue_size hSpan
  · intro chunk hChunk hGranularity
    have hFound := residue_of_mem_unsorted (hPerm.mem_iff.mp hChunk) hGranularity
    rw [(ofResidue?_eq_some hFound).1]
    exact Span.pairwise_gaps h.apart
  · intro chunk hChunk hGranularity
    have hFound := residue_of_mem_unsorted (hPerm.mem_iff.mp hChunk) hGranularity
    obtain ⟨hOwn, _, _, hEnds⟩ := ofResidue?_eq_some hFound
    rw [hOwn]
    exact hEnds

/-- The settled definitions of a well-formed tree are apart and fit. -/
theorem settled_apart {language : Language} {options : ChunkOptions} {root : Node}
    (h : root.WellFormed source) :
    Partition.Settled source 0 (settled source language options root) :=
  Partition.settle_apart (Definition.all_fit _ h)

theorem ofTree_lossless {text : String} {options : ChunkOptions} {root : Node}
    (h : root.WellFormed text.toList) :
    Lossless text.toList (ofTree text filePath language options root) := by
  rw [ofTree_eq_sorted]
  exact unsorted_lossless (settled_apart h)

/-- A file kept whole is its only chunk. -/
theorem wholeFile_lossless {text : String} {language : Option Language} :
    Lossless text.toList [wholeFile text filePath language strategy] := by
  have hSpans : sortedSpans [wholeFile text filePath language strategy] =
      [⟨0, byteLength text.toList⟩] := List.mergeSort_singleton _
  have hGranularity : ∀ chunk ∈ [wholeFile text filePath language strategy],
      chunk.granularity ≠ .residue := by
    intro chunk hChunk
    have hOwn : (wholeFile text filePath language strategy).granularity = .wholeFile := rfl
    rw [List.mem_singleton.mp hChunk, hOwn]
    decide
  refine
    { tiles := ?_, fit := ?_, text := ?_, single := ?_, residues := Nat.zero_le _
      residue_size := fun chunk hChunk h => absurd h (hGranularity chunk hChunk)
      residue_order := fun chunk hChunk h => absurd h (hGranularity chunk hChunk)
      residue_range := fun chunk hChunk h => absurd h (hGranularity chunk hChunk)
      starts := List.pairwise_singleton _ _ }
  · rw [hSpans]
    exact ⟨rfl, Nat.zero_le _, rfl⟩
  · intro span hSpan
    rw [hSpans] at hSpan
    rw [List.mem_singleton.mp hSpan]
    exact ⟨Text.isBoundary_zero _, Text.isBoundary_byteLength _, Nat.zero_le _⟩
  · intro chunk hChunk
    rw [List.mem_singleton.mp hChunk, wholeFile, List.flatMap_singleton]
    exact (Text.slice_zero_byteLength _).symm
  · intro chunk hChunk _
    rw [List.mem_singleton.mp hChunk]
    rfl

end Chunk

/-! ## Files -/

/--
**Chunking a file loses nothing.**  For every source, path and way of
chunking and every well-formed tree, or a tree with errors, no slice is taken
that the source does not have, and the chunks hold each byte of the source
once, in order.
-/
theorem ChunkedFile.of_lossless (source filePath : String) (options : ChunkOptions)
    (parse : Parse) (h : parse.WellFormed source.toList) :
    Checked.file source filePath options parse =
        .ok (ChunkedFile.of source filePath options parse) ∧
      Lossless source.toList (ChunkedFile.of source filePath options parse).chunks := by
  refine ⟨Checked.file_eq h, ?_⟩
  unfold ChunkedFile.of
  dsimp only
  split
  · exact Chunk.wholeFile_lossless
  · exact Chunk.wholeFile_lossless
  · cases parse with
    | withErrors => exact Chunk.wholeFile_lossless
    | clean root => exact Chunk.ofTree_lossless h

/-! ### A file with an accent, a comment and two functions -/

namespace Accent

def source : String := "é = 1\n# doc\ndef f():\n  pass\n\ndef g():\n  pass\n"

/-- A function whose name and body have the given spans. -/
def function (span name body : Span) : Node :=
  { kind := "function_definition", named := true, span, roles := []
    children :=
      [{ kind := "def", named := false, span := ⟨span.start, span.start + 3⟩, roles := []
         children := [] },
       { kind := "identifier", named := true, span := name, roles := [.name], children := [] },
       { kind := "block", named := true, span := body, roles := [.body], children := [] }] }

def tree : Node :=
  { kind := "module", named := true, span := ⟨0, 46⟩, roles := []
    children :=
      [{ kind := "expression_statement", named := true, span := ⟨0, 6⟩, roles := []
         children := [] },
       { kind := "comment", named := true, span := ⟨7, 12⟩, roles := [], children := [] },
       function ⟨13, 28⟩ ⟨17, 18⟩ ⟨24, 28⟩,
       function ⟨30, 45⟩ ⟨34, 35⟩ ⟨41, 45⟩] }

end Accent

theorem ChunkedFile.of_lossless_accent :
    (Parse.clean Accent.tree).WellFormed Accent.source.toList ∧
      Checked.file Accent.source "a.py" ⟨.functions, true⟩ (.clean Accent.tree) =
        .ok (ChunkedFile.of Accent.source "a.py" ⟨.functions, true⟩ (.clean Accent.tree)) ∧
      Lossless Accent.source.toList
        (ChunkedFile.of Accent.source "a.py" ⟨.functions, true⟩ (.clean Accent.tree)).chunks := by
  have h : (Parse.clean Accent.tree).WellFormed Accent.source.toList := by decide
  exact ⟨h, ChunkedFile.of_lossless Accent.source "a.py" ⟨.functions, true⟩ (.clean Accent.tree) h⟩

end SourceIndex
