import SourceIndex.Proofs.Chunk.Apart
import SourceIndex.Proofs.Chunk.Lossless

/-!
# One chunk for each definition

Every outermost matching node of a tree gets a chunk of its own, in the order
of the tree, and no chunk of a definition holds a byte of another one's node.
The definitions are apart before their boundaries are settled, so settling
drops and trims none; what is left is that sorting the chunks leaves those of
the definitions in their order, and that the residue is the only other chunk.

## Main results

* `Definition.all_apart` — the definitions of a tree are apart.
* `Chunk.filter_ofTree` — the chunks that are no residue are those of the definitions.
* `Chunk.ofDefinitions_onePerNode` — they stand for the outermost matching nodes.
-/

namespace SourceIndex

/-- The chunks stand for the nodes one by one: each holds the bytes of its
own node and no byte of another one. -/
structure OnePerNode (nodes : List Node) (chunks : List Chunk) : Prop where
  length : chunks.length = nodes.length
  /-- The chunk at a place holds all bytes of the node at that place. -/
  own : ∀ (place : Nat) (node : Node) (chunk : Chunk),
    nodes[place]? = some node → chunks[place]? = some chunk →
      ∀ byte, node.span.Holds byte → ∃ span ∈ chunk.spans, span.Holds byte
  /-- It holds no byte of a node at another place. -/
  others : ∀ (place other : Nat) (node : Node) (chunk : Chunk), other ≠ place →
    nodes[other]? = some node → chunks[place]? = some chunk →
      ∀ byte, node.span.Holds byte → ∀ span ∈ chunk.spans, ¬ span.Holds byte

variable {source : List Char}

/-! ## The definitions of a tree -/

namespace Definition

variable {language : Language} {options : ChunkOptions} {root : Node}

/-- The definitions of a tree with plain matches are apart. -/
theorem all_apart (h : root.WellFormed source)
    (hPlain : ∀ located ∈ (DefinitionRules.of language options).outermost root,
      (DefinitionRules.of language options).Plain located) :
    Span.Apart 0 root.span.stop
      ((all source (DefinitionRules.of language options) root).map (·.span)) := by
  have hApart := DefinitionRules.matchesBelow_apart (DefinitionRules.of language options)
    (fun _ hAttaches => DefinitionRules.definition?_of_attaches hAttaches) root [] h
    (fun _ hMem => by cases hMem) rfl
    (fun located hLocated hOutermost =>
      hPlain located (List.mem_filter.mpr ⟨hLocated, hOutermost⟩))
  rw [all, List.map_map]
  exact hApart.mono (Nat.zero_le _)

/-- Each definition of a tree contains the node that matched. -/
theorem all_hold (h : root.WellFormed source) (rules : DefinitionRules) :
    Partition.Hold ((rules.outermost root).map (·.node)) (all source rules root) := by
  rw [← rules.matchesBelow_outermost root, all, Partition.Hold, List.forall₂_map_left_iff,
    List.forall₂_map_right_iff, List.forall₂_same]
  intro found hFound
  have hMatch := rules.matchesBelow_root_wellFormed h found hFound
  exact ⟨(attach_fits rules hMatch.outer.fits.start hMatch.before).2, Nat.le_refl _⟩

end Definition

namespace Chunk

/-! ## The chunks that are no residue -/

variable {filePath : String} {language : Language} {strategy : Strategy}
  {definitions : List Definition}

theorem filter_unsorted :
    (unsorted source filePath language strategy definitions).filter (·.granularity ≠ .residue) =
      definitions.map (ofDefinition source filePath language strategy) := by
  have hDefinitions : (definitions.map (ofDefinition source filePath language strategy)).filter
      (·.granularity ≠ .residue) =
        definitions.map (ofDefinition source filePath language strategy) := by
    rw [List.filter_eq_self]
    intro chunk hChunk
    obtain ⟨definition, _, rfl⟩ := List.mem_map.mp hChunk
    exact decide_eq_true (granularity_ofStrategy strategy)
  have hResidue : (ofResidue? source filePath language strategy
      (Partition.residue source definitions)).toList.filter (·.granularity ≠ .residue) = [] := by
    rw [List.filter_eq_nil_iff]
    intro chunk hChunk
    have hGranularity := (ofResidue?_eq_some (Option.mem_toList.mp hChunk)).2.1
    simpa using hGranularity
  rw [unsorted, List.filter_append, hDefinitions, hResidue, List.append_nil]

/-- Sorting the chunks of settled definitions leaves those of the definitions
in their order. -/
theorem filter_sorted (h : Partition.Settled source 0 definitions) :
    ((unsorted source filePath language strategy definitions).mergeSort
        fun a b => a.range.start ≤ b.range.start).filter (·.granularity ≠ .residue) =
      definitions.map (ofDefinition source filePath language strategy) := by
  have hPerm := (List.mergeSort_perm (unsorted source filePath language strategy definitions)
    fun a b => decide (a.range.start ≤ b.range.start)).filter
      fun chunk => decide (chunk.granularity ≠ .residue)
  rw [filter_unsorted] at hPerm
  refine Sorting.eq_of_perm (fun chunk : Chunk => chunk.range.start) hPerm ?_ ?_
  · exact (unsorted_lossless h).starts.filter _
  · have hStarts := List.pairwise_map.mp h.apart.starts
    exact List.pairwise_map.mpr hStarts

/-- **The chunks that are no residue are those of the definitions.** -/
theorem filter_ofTree {text : String} {options : ChunkOptions} {root : Node}
    (h : root.WellFormed text.toList) :
    (ofTree text filePath language options root).filter (·.granularity ≠ .residue) =
      (settled text.toList language options root).map
        (ofDefinition text.toList filePath language options.strategy) := by
  rw [ofTree_eq_sorted]
  exact filter_sorted (settled_apart h)

/-- The chunk at a place is that of the definition there. -/
theorem getElem?_ofDefinition {place : Nat} {chunk : Chunk}
    (h : (definitions.map (ofDefinition source filePath language strategy))[place]? =
      some chunk) :
    ∃ definition, definitions[place]? = some definition ∧ chunk.spans = [definition.span] := by
  rw [List.getElem?_map] at h
  obtain ⟨definition, hDefinition, rfl⟩ := Option.map_eq_some_iff.mp h
  exact ⟨definition, hDefinition, rfl⟩

/-- Chunks of definitions that contain their nodes and are apart stand for
the nodes one by one. -/
theorem onePerNode_of_hold {nodes : List Node} {stop : Nat}
    (hHold : Partition.Hold nodes definitions)
    (hApart : Span.Apart 0 stop (definitions.map (·.span))) :
    OnePerNode nodes (definitions.map (ofDefinition source filePath language strategy)) := by
  refine { length := ?_, own := ?_, others := ?_ }
  · rw [List.length_map]
    exact hHold.length_eq.symm
  · intro place node chunk hNode hChunk byte hByte
    obtain ⟨definition, hDefinition, hSpans⟩ := getElem?_ofDefinition hChunk
    obtain ⟨hStart, hStop⟩ := hHold.at hNode hDefinition
    obtain ⟨hFrom, hTo⟩ := hByte
    rw [hSpans]
    exact ⟨definition.span, List.mem_singleton.mpr rfl, by omega, by omega⟩
  · intro place other node chunk hNe hNode hChunk byte hByte span hSpan hHolds
    obtain ⟨definition, hDefinition, hSpans⟩ := getElem?_ofDefinition hChunk
    obtain ⟨neighbour, hNeighbour⟩ := hHold.exists_at hNode
    obtain ⟨hStart, hStop⟩ := hHold.at hNode hNeighbour
    rw [hSpans] at hSpan
    obtain rfl := List.mem_singleton.mp hSpan
    obtain ⟨hFrom, hTo⟩ := hByte
    obtain ⟨hHoldsFrom, hHoldsTo⟩ := hHolds
    rcases Nat.lt_or_gt_of_ne hNe with hBefore | hAfter
    · have hOrder := Partition.apart_at hApart hBefore hNeighbour hDefinition
      omega
    · have hOrder := Partition.apart_at hApart hAfter hDefinition hNeighbour
      omega

/-- The chunks of a tree with plain matches stand for the outermost matching
nodes one by one. -/
theorem ofTree_onePerNode {text : String} {options : ChunkOptions} {root : Node}
    (h : root.WellFormed text.toList)
    (hPlain : ∀ located ∈ (DefinitionRules.of language options).outermost root,
      (DefinitionRules.of language options).Plain located) :
    OnePerNode (((DefinitionRules.of language options).outermost root).map (·.node))
      ((ofTree text filePath language options root).filter (·.granularity ≠ .residue)) := by
  have hHold := Definition.all_hold h (DefinitionRules.of language options)
  rw [filter_ofTree h]
  exact onePerNode_of_hold (Partition.hold_settle (Definition.all_apart h hPlain) hHold)
    (settled_apart h).apart

/-- A file whose path tells its language has the chunks of its tree, unless
files stay whole. -/
theorem ofFile_chunks {source : String} {options : ChunkOptions} {root : Node}
    (hStrategy : options.strategy ≠ .wholeFile)
    (hLanguage : Language.ofPath? filePath = some language) :
    (ChunkedFile.of source filePath options (.clean root)).chunks =
      ofTree source filePath language options root := by
  unfold ChunkedFile.of
  rw [hLanguage]
  cases hOption : options.strategy with
  | wholeFile => exact absurd hOption hStrategy
  | functions => rfl
  | classes => rfl

/--
**No definition is lost, merged or duplicated.**  In a tree whose outermost
matching nodes are not empty and have no comment or attribute around them, the
chunks that are no residue stand for these nodes one by one, in order.
Splitting such a file along its definitions succeeds, and it is what happens
to a file whose path tells its language, unless files stay whole.
-/
theorem ofDefinitions_onePerNode (source filePath : String) (language : Language)
    (options : ChunkOptions) (root : Node) (h : root.WellFormed source.toList)
    (hPlain : ∀ located ∈ (DefinitionRules.of language options).outermost root,
      (DefinitionRules.of language options).Plain located) :
    ∃ chunks,
      ofDefinitions source filePath language options (.clean root) = .ok chunks ∧
      (options.strategy ≠ .wholeFile → Language.ofPath? filePath = some language →
        (ChunkedFile.of source filePath options (.clean root)).chunks = chunks) ∧
      OnePerNode (((DefinitionRules.of language options).outermost root).map (·.node))
        (chunks.filter (·.granularity ≠ .residue)) := by
  exact ⟨ofTree source filePath language options root, rfl, ofFile_chunks,
    ofTree_onePerNode h hPlain⟩

theorem ofDefinitions_onePerNode_accent :
    Accent.tree.WellFormed Accent.source.toList ∧
      (∀ located ∈ (DefinitionRules.of .python ⟨.functions, true⟩).outermost Accent.tree,
        (DefinitionRules.of .python ⟨.functions, true⟩).Plain located) ∧
      ∃ chunks,
        (ChunkedFile.of Accent.source "a.py" ⟨.functions, true⟩ (.clean Accent.tree)).chunks =
          chunks ∧
        OnePerNode [Accent.function ⟨13, 28⟩ ⟨17, 18⟩ ⟨24, 28⟩,
          Accent.function ⟨30, 45⟩ ⟨34, 35⟩ ⟨41, 45⟩]
          (chunks.filter (·.granularity ≠ .residue)) := by
  have hTree : Accent.tree.WellFormed Accent.source.toList := by decide
  have hPlain : ∀ located ∈ (DefinitionRules.of .python ⟨.functions, true⟩).outermost Accent.tree,
      (DefinitionRules.of .python ⟨.functions, true⟩).Plain located := by decide
  have hLanguage : Language.ofPath? "a.py" = some .python := by decide
  obtain ⟨chunks, _, hFile, hNodes⟩ := ofDefinitions_onePerNode Accent.source "a.py" .python
    ⟨.functions, true⟩ Accent.tree hTree hPlain
  exact ⟨hTree, hPlain, chunks, hFile (by decide) hLanguage, hNodes⟩

end Chunk

end SourceIndex
