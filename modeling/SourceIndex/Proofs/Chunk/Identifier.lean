import SourceIndex.Proofs.Chunk.Lossless
import SourceIndex.Proofs.Text.Parts

/-!
# Identifiers of chunks

What is hashed for a chunk tells its path, its strategy and its spans.  A path
may hold zero bytes itself, so the text is read from its end: neither the spans
nor the name of a strategy hold any, and the last two of them are the ones that
were put there.  The chunks of one file start at different places, so their
spans differ, and with them what is hashed.

A digest tells two byte strings apart at best as long as these do not collide:
`Blake3.Separates` says so of given ones, and is not true of all.

## Main results

* `ChunkId.input_inj` — what is hashed tells what it is made of.
* `Chunk.nodup_ids` — chunks that differ have identifiers that differ.
* `ChunkedFile.differ_of`, `ChunkedFile.nodup_ids_of` — so it is with the chunks
  of a file.
-/

namespace SourceIndex

/-- The digests of some byte strings do not collide. -/
def Blake3.Separates (inputs : List (List UInt8)) : Prop :=
  ∀ input ∈ inputs, ∀ other ∈ inputs, hexDigest input = hexDigest other → input = other

instance (inputs : List (List UInt8)) : Decidable (Blake3.Separates inputs) :=
  inferInstanceAs (Decidable (∀ input ∈ inputs, _))

/-- Neither do those of some of them. -/
theorem Blake3.Separates.of_subset {inputs others : List (List UInt8)} (h : Separates inputs)
    (hSubset : ∀ input ∈ others, input ∈ inputs) : Separates others :=
  fun input hInput other hOther => h input (hSubset input hInput) other (hSubset other hOther)

namespace ChunkId

/-! ## What is hashed -/

/-- What an identifier is the digest of. -/
def input (filePath : String) (strategy : Strategy) (spans : List Span) : List UInt8 :=
  Utf8.encode (preimage filePath strategy spans)

section Reading

variable {span other : Span} {spans others : List Span} {strategy : Strategy}

theorem spanText_append (span : Span) (rest : List Char) :
    spanText span ++ rest =
      Nat.toDigits 10 span.start ++ '-' :: (Nat.toDigits 10 span.stop ++ ';' :: rest) := by
  simp [spanText]

/-- A span ends where its semicolon is. -/
theorem spanText_append_inj {after rest : List Char}
    (h : spanText span ++ after = spanText other ++ rest) : span = other ∧ after = rest := by
  rw [spanText_append, spanText_append] at h
  obtain ⟨hStart, hLater⟩ := Text.toDigits_append_inj (by decide) h
  obtain ⟨hStop, hRest⟩ := Text.toDigits_append_inj (by decide) hLater
  refine ⟨?_, hRest⟩
  cases span
  cases other
  rw [Span.mk.injEq]
  exact ⟨hStart, hStop⟩

theorem spanText_append_ne_nil (span : Span) (rest : List Char) : spanText span ++ rest ≠ [] := by
  simp [spanText]

/-- Spans are read one after the other. -/
theorem flatMap_spanText_inj (h : spans.flatMap spanText = others.flatMap spanText) :
    spans = others := by
  induction spans generalizing others with
  | nil =>
      cases others with
      | nil => rfl
      | cons other rest => exact absurd h.symm (spanText_append_ne_nil other _)
  | cons span rest ih =>
      cases others with
      | nil => exact absurd h (spanText_append_ne_nil span _)
      | cons other more =>
          rw [List.flatMap_cons, List.flatMap_cons] at h
          obtain ⟨rfl, hRest⟩ := spanText_append_inj h
          rw [ih hRest]

/-- No zero byte is written among spans. -/
theorem zero_not_mem_spans (spans : List Span) : '\x00' ∉ spans.flatMap spanText := by
  intro hMem
  obtain ⟨span, _, hSpan⟩ := List.mem_flatMap.mp hMem
  have hDigit : Char.isDigit '\x00' = false := by decide
  have hStart := Text.not_mem_toDigits hDigit span.start
  have hStop := Text.not_mem_toDigits hDigit span.stop
  simp [spanText, hStart, hStop] at hSpan

theorem zero_not_mem_name (strategy : Strategy) : '\x00' ∉ strategy.name.toList := by
  cases strategy <;> decide

theorem name_inj {strategy other : Strategy} (h : strategy.name.toList = other.name.toList) :
    strategy = other := by
  revert h
  cases strategy <;> cases other <;> decide

/-- The last two zero bytes are those that end the path and the strategy. -/
theorem preimage_inj {filePath otherPath : String} {strategy other : Strategy}
    (h : preimage filePath strategy spans = preimage otherPath other others) :
    filePath = otherPath ∧ strategy = other ∧ spans = others := by
  obtain ⟨hNamed, hSpans⟩ :=
    Text.append_cons_inj_last (zero_not_mem_spans spans) (zero_not_mem_spans others) h
  obtain ⟨hPath, hName⟩ :=
    Text.append_cons_inj_last (zero_not_mem_name strategy) (zero_not_mem_name other) hNamed
  exact ⟨String.toList_inj.mp hPath, name_inj hName, flatMap_spanText_inj hSpans⟩

/-- **What is hashed tells the path, the strategy and the spans.** -/
theorem input_inj {filePath otherPath : String} {strategy other : Strategy}
    (h : input filePath strategy spans = input otherPath other others) :
    filePath = otherPath ∧ strategy = other ∧ spans = others :=
  preimage_inj (Utf8.encode_inj h)

end Reading

end ChunkId

/-! ## Chunks -/

namespace Chunk

/-- What is hashed for a chunk. -/
def hashed (strategy : Strategy) (chunk : Chunk) : List UInt8 :=
  ChunkId.input chunk.filePath strategy chunk.spans

/-- A chunk of a file with the identifier that is made for it. -/
structure Identified (filePath : String) (strategy : Strategy) (chunk : Chunk) : Prop where
  path : chunk.filePath = filePath
  id : chunk.id = Blake3.hexDigest (chunk.hashed strategy)

/-- Two chunks are told apart by their path or their spans. -/
def Differs (chunk other : Chunk) : Prop :=
  ¬ (chunk.filePath = other.filePath ∧ chunk.spans = other.spans)

section Identifiers

variable {strategy : Strategy} {chunks : List Chunk}

/-- **Chunks that differ have identifiers that differ**, as long as digests of
what is hashed for them do not collide. -/
theorem nodup_ids (hIds : ∀ chunk ∈ chunks, chunk.id = Blake3.hexDigest (chunk.hashed strategy))
    (hApart : chunks.Pairwise Differs)
    (hSeparates : Blake3.Separates (chunks.map (hashed strategy))) :
    (chunks.map (·.id)).Nodup := by
  refine List.pairwise_map.mpr (hApart.imp_of_mem ?_)
  intro chunk other hChunk hOther hDiffers hSame
  rw [hIds chunk hChunk, hIds other hOther] at hSame
  have hHashed := hSeparates _ (List.mem_map_of_mem hChunk) _ (List.mem_map_of_mem hOther) hSame
  obtain ⟨hPath, _, hSpans⟩ := ChunkId.input_inj hHashed
  exact hDiffers ⟨hPath, hSpans⟩

end Identifiers

section Files

variable {source : List Char} {filePath : String} {language : Language} {strategy : Strategy}

theorem identified_ofResidue? {spans : List Span} {chunk : Chunk}
    (h : ofResidue? source filePath language strategy spans = some chunk) :
    chunk.Identified filePath strategy := by
  unfold ofResidue? at h
  split at h
  · obtain rfl := Option.some.inj h
    exact ⟨rfl, rfl⟩
  · cases h

theorem identified_ofTree {source : String} {options : ChunkOptions} {root : Node} {chunk : Chunk}
    (h : chunk ∈ ofTree source filePath language options root) :
    chunk.Identified filePath options.strategy := by
  rw [ofTree_eq_sorted, List.mem_mergeSort] at h
  rcases mem_unsorted h with ⟨definition, _, rfl⟩ | hResidue
  · exact ⟨rfl, rfl⟩
  · exact identified_ofResidue? hResidue

end Files

end Chunk

/-- Chunks that hold each byte of a source once start with their first spans. -/
theorem Lossless.head?_spans {source : List Char} {chunks : List Chunk} {chunk : Chunk}
    (h : Lossless source chunks) (hChunk : chunk ∈ chunks) :
    chunk.spans.head?.map (·.start) = some chunk.range.start := by
  by_cases hGranularity : chunk.granularity = .residue
  · obtain ⟨first, last, hFirst, _, hRange⟩ := h.residue_range chunk hChunk hGranularity
    rw [hFirst, hRange, Option.map_some]
  · rw [h.single chunk hChunk hGranularity]
    rfl

/-- Such chunks have spans of their own. -/
theorem Lossless.differ {source : List Char} {chunks : List Chunk} (h : Lossless source chunks) :
    chunks.Pairwise Chunk.Differs := by
  refine h.starts.imp_of_mem ?_
  rintro chunk other hChunk hOther hStart ⟨_, hSpans⟩
  have hSame := h.head?_spans hChunk
  rw [hSpans, h.head?_spans hOther] at hSame
  exact absurd (Option.some.inj hSame) (Nat.ne_of_gt hStart)

namespace ChunkedFile

variable {source filePath : String} {options : ChunkOptions} {parse : Parse}

/-- A file is one chunk, or it has the chunks of its tree. -/
theorem chunks_of (source filePath : String) (options : ChunkOptions) (parse : Parse) :
    (∃ language, (of source filePath options parse).chunks =
        [Chunk.wholeFile source filePath language options.strategy]) ∨
      ∃ language root, parse = .clean root ∧
        (of source filePath options parse).chunks =
          Chunk.ofTree source filePath language options root := by
  unfold of
  dsimp only
  split
  · exact .inl ⟨_, rfl⟩
  · exact .inl ⟨_, rfl⟩
  · cases parse with
    | withErrors => exact .inl ⟨_, rfl⟩
    | clean root => exact .inr ⟨_, root, rfl, rfl⟩

theorem identified_of : ∀ chunk ∈ (of source filePath options parse).chunks,
    chunk.Identified filePath options.strategy := by
  intro chunk hChunk
  rcases chunks_of source filePath options parse with ⟨language, hWhole⟩ | ⟨_, _, _, hTree⟩
  · rw [hWhole, List.mem_singleton] at hChunk
    rw [hChunk]
    exact ⟨rfl, rfl⟩
  · rw [hTree] at hChunk
    exact Chunk.identified_ofTree hChunk

/-- **The chunks of a file have spans of their own.** -/
theorem differ_of (h : parse.WellFormed source.toList) :
    (of source filePath options parse).chunks.Pairwise Chunk.Differs := by
  rcases chunks_of source filePath options parse with ⟨language, hWhole⟩ | ⟨_, root, rfl, hTree⟩
  · rw [hWhole]
    exact List.pairwise_singleton _ _
  · rw [hTree]
    exact (Chunk.ofTree_lossless h).differ

/-- **The chunks of a file have identifiers of their own.** -/
theorem nodup_ids_of (h : parse.WellFormed source.toList)
    (hSeparates : Blake3.Separates
      ((of source filePath options parse).chunks.map (Chunk.hashed options.strategy))) :
    ((of source filePath options parse).chunks.map (·.id)).Nodup :=
  Chunk.nodup_ids (fun chunk hChunk => (identified_of chunk hChunk).id) (differ_of h) hSeparates

end ChunkedFile

/-! ### A file with two functions -/

namespace Accent

/-- The definitions of the tree are in order already. -/
theorem settled_eq :
    Chunk.settled source.toList .python ⟨.functions, true⟩ tree =
      Partition.ownPrologue source.toList (Partition.ownBlanks source.toList
        (Partition.disjoint 0
          (Definition.all source.toList (.of .python ⟨.functions, true⟩) tree))) := by
  rw [Chunk.settled, Partition.settle,
    Sorting.sortBy_eq_self fun definition : Definition => definition.span.start]
  decide

theorem separates :
    Blake3.Separates
      ((ChunkedFile.of source "a.py" ⟨.functions, true⟩ (.clean tree)).chunks.map
        (Chunk.hashed .functions)) := by
  have hUnsorted : Blake3.Separates
      ((Chunk.unsorted source.toList "a.py" .python .functions
        (Chunk.settled source.toList .python ⟨.functions, true⟩ tree)).map
          (Chunk.hashed .functions)) := by
    rw [settled_eq]
    decide +kernel
  refine hUnsorted.of_subset fun input hInput => ?_
  obtain ⟨chunk, hChunk, rfl⟩ := List.mem_map.mp hInput
  exact List.mem_map_of_mem (List.mem_mergeSort.mp hChunk)

end Accent

end SourceIndex
