import SourceIndex.Proofs.Chunk.OnePerNode
import SourceIndex.Proofs.Text.Lines

/-!
# Lines of chunks

A chunk tells from which line to which it reaches.  It starts on the line on
which its range does.  The blanks behind its last ink do not count, so it ends on
the line of this ink, wherever its range ends: the range of a definition takes in
the blanks up to the next one, and that of the residue reaches over the
definitions between its parts.

Since the ranges of definitions share no byte and come in order, the last ink of
one is before all of the next, and so is its line or it is the same.

## Main results

* `LineRange.of_exact` — the lines of a range are counted right.
* `LineRange.last_le_first` — ranges that come in order have lines that do.
* `ChunkedFile.of_lines` — the lines of all chunks of a file.
-/

namespace SourceIndex

open Text (IsBoundary Inkless LastInk OnLine byteLength lineFeeds)

/-! ## Lines of a range -/

namespace LineRange

/-- Lines that a range of a source reaches from and to. -/
structure Exact (source : List Char) (range : Span) (lines : LineRange) : Prop where
  /-- The first line is that on which the range starts. -/
  first : OnLine source range.start lines.first
  /-- The last one is that of the last ink in the range, if it has any. -/
  last : Inkless source range.start range.stop ∧ lines.last = lines.first ∨
    ∃ offset, LastInk source range.start range.stop offset ∧ OnLine source offset lines.last
  positive : 1 ≤ lines.first
  ordered : lines.first ≤ lines.last
  bounded : lines.last ≤ 1 + lineFeeds source

variable {source : List Char} {range other : Span}

/-- The last line counts the feeds before the last ink, or those before the range. -/
theorem last_cases (h : range.Fits source) :
    Inkless source range.start range.stop ∧ (of source range).last = (of source range).first ∨
      ∃ offset, LastInk source range.start range.stop offset ∧
        (of source range).last = lineFeeds (Text.takeBytes offset source) + 1 := by
  have hLast : (of source range).last = lineFeeds (Text.takeBytes range.start source) + 1 +
      lineFeeds (Text.trimEnd (Text.slice source range.start range.stop)) := rfl
  rcases Text.trimEnd_slice h.start h.stop h.ordered with ⟨hBlank, hNone⟩ | ⟨offset, hInk, hFeeds⟩
  · refine .inl ⟨hBlank, ?_⟩
    rw [hLast, hNone]
    rfl
  · refine .inr ⟨offset, hInk, ?_⟩
    rw [hLast]
    omega

/-- **The lines of a range are counted right.** -/
theorem of_exact (h : range.Fits source) : (of source range).Exact source range := by
  have hFirst : (of source range).first = lineFeeds (Text.takeBytes range.start source) + 1 := rfl
  have hOrdered : (of source range).first ≤ (of source range).last := Nat.le_add_right _ _
  refine
    { first := (Text.onLine_iff h.start).mpr hFirst, last := ?_, positive := by omega
      ordered := hOrdered, bounded := ?_ }
  · rcases last_cases h with hNone | ⟨offset, hInk, hLast⟩
    · exact .inl hNone
    · exact .inr ⟨offset, hInk, (Text.onLine_iff hInk.ink.isBoundary).mpr hLast⟩
  · rcases last_cases h with ⟨_, hSame⟩ | ⟨offset, _, hLast⟩
    · have hBefore := Text.lineFeeds_takeBytes_le source range.start
      omega
    · have hBefore := Text.lineFeeds_takeBytes_le source offset
      omega

/-- The blanks behind the last ink do not count. -/
example : LineRange.of "a\n\n  b\n \n".toList ⟨1, 9⟩ = ⟨1, 3⟩ := by decide

/-- No more feeds are before an offset than before a later one. -/
theorem lineFeeds_takeBytes_mono {start stop : Nat} (hStart : IsBoundary source start)
    (hStop : IsBoundary source stop) (hLe : start ≤ stop) :
    lineFeeds (Text.takeBytes start source) ≤ lineFeeds (Text.takeBytes stop source) := by
  have hSplit := Text.lineFeeds_slice hStart hStop hLe
  omega

/-- **Ranges that come in order have lines that do**: the next one starts no
earlier than on the last line of the one before. -/
theorem last_le_first (h : range.Fits source) (hOther : other.Fits source)
    (hOrder : range.stop ≤ other.start) : (of source range).last ≤ (of source other).first := by
  have hNext : (of source other).first = lineFeeds (Text.takeBytes other.start source) + 1 := rfl
  have hRange := h.ordered
  rcases last_cases h with ⟨_, hSame⟩ | ⟨offset, hInk, hLast⟩
  · have hFirst : (of source range).first =
        lineFeeds (Text.takeBytes range.start source) + 1 := rfl
    have hFeeds := lineFeeds_takeBytes_mono h.start hOther.start (by omega)
    omega
  · have hBefore := hInk.lt
    have hFeeds := lineFeeds_takeBytes_mono hInk.ink.isBoundary hOther.start (by omega)
    omega

end LineRange

/-! ## Lines of chunks -/

namespace Chunk

variable {source : List Char} {filePath : String} {language : Language} {strategy : Strategy}
  {definitions : List Definition}

/-- The lines of the residue are those of its range. -/
theorem lines_ofResidue? {spans : List Span} {chunk : Chunk}
    (h : ofResidue? source filePath language strategy spans = some chunk) :
    chunk.lines = LineRange.of source chunk.range := by
  unfold ofResidue? at h
  split at h
  · obtain rfl := Option.some.inj h
    rfl
  · cases h

/-- The chunks of settled definitions and of their residue have ranges that fit
the source, and the lines of these ranges. -/
theorem lines_of_mem_unsorted (h : Partition.Settled source 0 definitions) {chunk : Chunk}
    (hMem : chunk ∈ unsorted source filePath language strategy definitions) :
    chunk.range.Fits source ∧ chunk.lines = LineRange.of source chunk.range := by
  rcases mem_unsorted hMem with ⟨definition, hDefinition, rfl⟩ | hFound
  · exact ⟨h.fit definition hDefinition, rfl⟩
  · refine ⟨?_, lines_ofResidue? hFound⟩
    obtain ⟨_, _, _, first, last, hFirst, hLast, hRange⟩ := ofResidue?_eq_some hFound
    have hEnds := h.residue_ends hFirst hLast
    rw [hRange]
    exact ⟨(h.residue_fit first (List.mem_of_head? hFirst)).start,
      (h.residue_fit last (List.mem_of_getLast? hLast)).stop, Nat.le_of_lt hEnds⟩

/-- The chunks of settled definitions come in the order of their lines. -/
theorem pairwise_lines (h : Partition.Settled source 0 definitions) :
    (definitions.map (ofDefinition source filePath language strategy)).Pairwise
      fun a b => a.lines.last ≤ b.lines.first := by
  have hApart := List.pairwise_map.mp h.apart.pairwise
  rw [List.pairwise_map]
  refine hApart.imp_of_mem fun {a b} ha hb hOrder => ?_
  exact LineRange.last_le_first (h.fit a ha) (h.fit b hb) hOrder

theorem ofTree_lines {text : String} {options : ChunkOptions} {root : Node}
    (h : root.WellFormed text.toList) :
    (∀ chunk ∈ ofTree text filePath language options root,
        chunk.lines.Exact text.toList chunk.range) ∧
      ((ofTree text filePath language options root).filter (·.granularity ≠ .residue)).Pairwise
        fun a b => a.lines.last ≤ b.lines.first := by
  constructor
  · intro chunk hChunk
    rw [ofTree_eq_sorted, List.mem_mergeSort] at hChunk
    obtain ⟨hFits, hLines⟩ := lines_of_mem_unsorted (settled_apart h) hChunk
    rw [hLines]
    exact LineRange.of_exact hFits
  · rw [filter_ofTree h]
    exact pairwise_lines (settled_apart h)

/-- A file kept whole reaches from its first line to that of its last ink. -/
theorem wholeFile_lines {text : String} {language : Option Language} :
    (∀ chunk ∈ [wholeFile text filePath language strategy],
        chunk.lines.Exact text.toList chunk.range) ∧
      ([wholeFile text filePath language strategy].filter (·.granularity ≠ .residue)).Pairwise
        fun a b => a.lines.last ≤ b.lines.first := by
  constructor
  · intro chunk hChunk
    rw [List.mem_singleton.mp hChunk]
    exact LineRange.of_exact
      ⟨Text.isBoundary_zero _, Text.isBoundary_byteLength _, Nat.zero_le _⟩
  · exact (List.pairwise_singleton _ _).filter _

end Chunk

/--
**The lines of chunks are exact and in order.**  For every source, path and way
of chunking and every well-formed tree, or a tree with errors, each chunk starts
on the line on which its range does and ends on that of the last ink in it, and
of the chunks that are no residue none starts before the last line of an earlier
one.
-/
theorem ChunkedFile.of_lines (source filePath : String) (options : ChunkOptions) (parse : Parse)
    (h : parse.WellFormed source.toList) :
    (∀ chunk ∈ (ChunkedFile.of source filePath options parse).chunks,
        chunk.lines.Exact source.toList chunk.range) ∧
      ((ChunkedFile.of source filePath options parse).chunks.filter
        (·.granularity ≠ .residue)).Pairwise fun a b => a.lines.last ≤ b.lines.first := by
  unfold ChunkedFile.of
  dsimp only
  split
  · exact Chunk.wholeFile_lines
  · exact Chunk.wholeFile_lines
  · cases parse with
    | withErrors => exact Chunk.wholeFile_lines
    | clean root => exact Chunk.ofTree_lines h

theorem ChunkedFile.of_lines_accent :
    (Parse.clean Accent.tree).WellFormed Accent.source.toList ∧
      (∀ chunk ∈ (ChunkedFile.of Accent.source "a.py" ⟨.functions, true⟩
          (.clean Accent.tree)).chunks, chunk.lines.Exact Accent.source.toList chunk.range) ∧
      ((ChunkedFile.of Accent.source "a.py" ⟨.functions, true⟩
        (.clean Accent.tree)).chunks.filter (·.granularity ≠ .residue)).Pairwise
          fun a b => a.lines.last ≤ b.lines.first := by
  have h : (Parse.clean Accent.tree).WellFormed Accent.source.toList := by decide
  exact ⟨h, ChunkedFile.of_lines Accent.source "a.py" ⟨.functions, true⟩ (.clean Accent.tree) h⟩

end SourceIndex
