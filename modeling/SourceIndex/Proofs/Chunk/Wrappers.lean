import SourceIndex.Proofs.Chunk.Kept

/-!
# Wrappers and what they wrap

A decorator, an export or a template that directly wraps a definition matches
like the definition itself, so both are in the chunk of whatever is outermost
around them.  The match looks at the named children of a wrapper only.  Of
wrappers around wrappers it therefore finds the innermost one, and the others
are in its chunk only where something else makes them match, or encloses them
and matches: in `template<...> template<...> void A<T>::f(U u) {}` the first
line of the definition is left to the residue.

## Main results

* `DefinitionRules.definition?_of_wrapped` — a direct wrapper matches.
* `Chunk.ofDefinitions_wrapped` — a chunk owns such a wrapper.
* `Chunk.ofDefinitions_unwrapped` — no chunk holds an outer one.
-/

namespace SourceIndex

namespace DefinitionRules

variable {source : List Char} {rules : DefinitionRules}

/-- A definition is one by itself. -/
theorem direct?_of_kind {located : Located} (hKind : located.node.kind ∈ rules.kinds) :
    rules.direct? located = some located := by
  rw [direct?, if_pos (by simpa using hKind)]

/-- **A wrapper with a definition among its named children matches.** -/
theorem definition?_of_wrapped {wrapper : Located} {child : Node}
    (hWrapper : wrapper.node.kind ∈ rules.language.wrapperKinds)
    (hChild : child ∈ wrapper.node.namedChildren) (hKind : child.kind ∈ rules.kinds) :
    (rules.definition? wrapper).isSome = true := by
  have hFound : (wrapper.namedChildren.findSome? rules.direct?).isSome = true := by
    have hBelow : wrapper.below child ∈ wrapper.namedChildren := List.mem_map_of_mem hChild
    have hDirect : rules.direct? (wrapper.below child) = some (wrapper.below child) :=
      direct?_of_kind hKind
    rw [List.findSome?_isSome_iff]
    exact ⟨wrapper.below child, hBelow, by rw [hDirect, Option.isSome_some]⟩
  obtain ⟨found, hFound⟩ := Option.isSome_iff_exists.mp hFound
  unfold definition?
  cases rules.direct? wrapper with
  | some direct => rfl
  | none =>
      rw [if_pos (by simpa using hWrapper), hFound]
      rfl

/-- No definition of a tree cuts an outermost match. -/
theorem spares_outermost {root : Node} (h : root.WellFormed source) {top : Located}
    (hTop : top ∈ rules.outermost root) :
    ∀ definition ∈ Definition.all source rules root,
      Partition.Spares top.node.span definition := by
  have hReached := (List.mem_filter.mp hTop).1
  obtain ⟨parent, upper, hAncestors, hMem, hParent, _⟩ :=
    (Located.reachedBelow_inside root [] h top hReached).parent
  have hSelf : top = ⟨top.node, parent :: upper⟩ := by rw [← hAncestors]
  refine spares_of_children h hReached hAncestors (hParent.of_mem_children hMem).2 ?_
  intro child hChild other hOther hThrough found hPlaced
  obtain ⟨hWithin, hOrder⟩ :=
    Located.span_within (hParent.of_mem_children hChild).1 hThrough
  have hFrom := hWithin.1
  have hTo := hWithin.2
  unfold Partition.Spares
  rw [Match.ofMatch_span, hPlaced.outer]
  dsimp only
  rcases Span.pair_of_pairwise Node.span hParent.row.pairwise hMem hChild with
    rfl | hBehind | hBefore
  · rcases hThrough with rfl | hBelow
    · exact .inr (.inl (Nat.le_refl _))
    · rw [← hAncestors] at hBelow
      have hAbove : top.ancestors ≠ [] := by simp [hAncestors]
      exact absurd hOther (rules.not_outermost_below hTop hAbove hBelow)
  · exact .inr (.inl (by omega))
  · exact .inl (by omega)

/-- A definition of a tree holds each outermost match. -/
theorem exists_holder {root : Node} (h : root.WellFormed source) {top : Located}
    (hTop : top ∈ rules.outermost root) :
    ∃ definition ∈ Definition.all source rules root, top.node.span.Within definition.span := by
  obtain ⟨definition, hDefinition, hWithin⟩ :=
    Pairing.exists_right (Definition.all_hold h rules) (List.mem_map_of_mem hTop)
  exact ⟨definition, hDefinition, hWithin⟩

end DefinitionRules

namespace Chunk

variable (filePath : String) {language : Language} {options : ChunkOptions} {root : Node}

/-- **A chunk owns each outermost match** that is not empty. -/
theorem exists_owner_of_outermost {text : String} (h : root.WellFormed text.toList)
    {top : Located} (hTop : top ∈ (DefinitionRules.of language options).outermost root)
    (hSize : top.node.span.start < top.node.span.stop) :
    ∃ chunk, Owns (ofTree text filePath language options root) chunk top.node.span :=
  exists_owner h hSize (DefinitionRules.spares_outermost h hTop)
    (DefinitionRules.exists_holder h hTop)

/--
**A wrapper belongs to the definition that it wraps.**  In every well-formed
tree a chunk owns the whole wrapper, and with it the definition, when the
wrapper has the definition among its named children, or when the wrapper
itself or something around it matches.
-/
theorem ofDefinitions_wrapped (source filePath : String) (language : Language)
    (options : ChunkOptions) (root : Node) (h : root.WellFormed source.toList)
    {wrapper inner : Located} (hWrapper : wrapper ∈ Located.reachedBelow [] root)
    (hKind : wrapper.node.kind ∈ language.wrapperKinds)
    (hInner : inner ∈ Located.reachedBelow wrapper.ancestors wrapper.node)
    (hDefinition : inner.node.kind ∈ language.definitionKinds options.strategy)
    (hSize : inner.node.span.start < inner.node.span.stop)
    (hMatch : inner.node ∈ wrapper.node.namedChildren ∨
      ∃ holder ∈ Located.reachedBelow [] root,
        (wrapper = holder ∨ wrapper ∈ Located.reachedBelow holder.ancestors holder.node) ∧
        ((DefinitionRules.of language options).definition? holder).isSome = true) :
    ∃ chunks,
      ofDefinitions source filePath language options (.clean root) = .ok chunks ∧
      (options.strategy ≠ .wholeFile → Language.ofPath? filePath = some language →
        (ChunkedFile.of source filePath options (.clean root)).chunks = chunks) ∧
      ∃ chunk, Owns chunks chunk wrapper.node.span ∧
        inner.node.span.Within chunk.range := by
  refine ⟨ofTree source filePath language options root, rfl, ofFile_chunks, ?_⟩
  have hWrapperInside := Located.reachedBelow_inside root [] h wrapper hWrapper
  have hWithin : inner.node.span.Within wrapper.node.span :=
    (Located.reachedBelow_inside wrapper.node wrapper.ancestors hWrapperInside.wellFormed inner
      hInner).within
  obtain ⟨holder, hHolder, hAround, hFound⟩ : ∃ holder ∈ Located.reachedBelow [] root,
      (wrapper = holder ∨ wrapper ∈ Located.reachedBelow holder.ancestors holder.node) ∧
      ((DefinitionRules.of language options).definition? holder).isSome = true := by
    rcases hMatch with hChild | hAround
    · exact ⟨wrapper, hWrapper, .inl rfl,
        DefinitionRules.definition?_of_wrapped hKind hChild hDefinition⟩
    · exact hAround
  have hHolderInside := Located.reachedBelow_inside root [] h holder hHolder
  have hInHolder := (Located.span_within hHolderInside.wellFormed hAround).1
  obtain ⟨top, hTop, hInTop⟩ :=
    (DefinitionRules.of language options).exists_outermost h hHolder hFound
  have hWhole : wrapper.node.span.Within top.node.span := hInHolder.trans hInTop
  have hTopSize : top.node.span.start < top.node.span.stop := by
    have hFrom := (hWithin.trans hWhole).1
    have hTo := (hWithin.trans hWhole).2
    omega
  obtain ⟨chunk, hOwns⟩ := exists_owner_of_outermost filePath h hTop hTopSize
  exact ⟨chunk, hOwns.mono hWhole, hWithin.trans (hOwns.mono hWhole).inside⟩

end Chunk

/-! ### A template around a template -/

namespace Nested

def source : String := "template <typename T>\ntemplate <typename U>\nvoid A<T>::f(U u) {}\n"

def leaf (kind : String) (span : Span) (roles : List Role) : Node :=
  { kind, named := true, span, roles, children := [] }

def function : Node :=
  { kind := "function_definition", named := true, span := ⟨44, 64⟩, roles := []
    children :=
      [leaf "primitive_type" ⟨44, 48⟩ [.type], leaf "function_declarator" ⟨49, 61⟩ [.declarator],
       leaf "compound_statement" ⟨62, 64⟩ [.body]] }

def innerTemplate : Node :=
  { kind := "template_declaration", named := true, span := ⟨22, 64⟩, roles := []
    children := [leaf "template_parameter_list" ⟨31, 43⟩ [], function] }

def outerTemplate : Node :=
  { kind := "template_declaration", named := true, span := ⟨0, 64⟩, roles := []
    children := [leaf "template_parameter_list" ⟨9, 21⟩ [], innerTemplate] }

def tree : Node :=
  { kind := "translation_unit", named := true, span := ⟨0, 65⟩, roles := []
    children := [outerTemplate] }

def outer : Located := ⟨outerTemplate, [tree]⟩

def middle : Located := ⟨innerTemplate, [outerTemplate, tree]⟩

def inner : Located := ⟨function, [innerTemplate, outerTemplate, tree]⟩

theorem wellFormed : tree.WellFormed source.toList := by decide

theorem middle_reached : middle ∈ Located.reachedBelow [] tree :=
  List.mem_of_getElem? (i := 2) rfl

theorem inner_below_middle :
    inner ∈ Located.reachedBelow [outerTemplate, tree] innerTemplate :=
  List.mem_of_getElem? (i := 1) rfl

theorem settled_spans :
    (Chunk.settled source.toList .cpp ⟨.functions, true⟩ tree).map (·.span) = [⟨22, 65⟩] := by
  rw [Chunk.settled, Partition.settle_of_sorted (by decide)]
  decide +kernel

/-- The chunks are the line of the outer template and what is behind it. -/
theorem spans_of_mem {chunk : Chunk}
    (h : chunk ∈ (ChunkedFile.of source "a.hh" ⟨.functions, true⟩ (.clean tree)).chunks) :
    chunk.spans = [⟨22, 65⟩] ∨ chunk.spans = [⟨0, 22⟩] := by
  rw [Chunk.ofFile_chunks (by decide) (show Language.ofPath? "a.hh" = some .cpp by decide)] at h
  have hSpans := Chunk.spans_of_mem_ofTree h
  rw [Partition.residue, settled_spans] at hSpans
  simpa [show Text.byteLength source.toList = 65 by decide, Partition.gaps] using hSpans

end Nested

/-- Its innermost wrapper is in the chunk of the function. -/
theorem Chunk.ofDefinitions_wrapped_nested :
    Nested.tree.WellFormed Nested.source.toList ∧
      Nested.middle ∈ Located.reachedBelow [] Nested.tree ∧
      Nested.middle.node.kind ∈ Language.cpp.wrapperKinds ∧
      Nested.inner ∈ Located.reachedBelow Nested.middle.ancestors Nested.middle.node ∧
      Nested.inner.node.kind ∈ Language.cpp.definitionKinds .functions ∧
      Nested.inner.node ∈ Nested.middle.node.namedChildren ∧
      ∃ chunk, Owns (ChunkedFile.of Nested.source "a.hh" ⟨.functions, true⟩
        (.clean Nested.tree)).chunks chunk ⟨22, 64⟩ := by
  have hChild : Nested.inner.node ∈ Nested.middle.node.namedChildren :=
    List.mem_of_getElem? (i := 1) rfl
  obtain ⟨chunks, _, hFile, chunk, hOwns, _⟩ := ofDefinitions_wrapped Nested.source "a.hh" .cpp
    ⟨.functions, true⟩ Nested.tree Nested.wellFormed Nested.middle_reached (by decide)
    Nested.inner_below_middle (by decide) (by decide) (.inl hChild)
  rw [hFile (by decide) (by decide)]
  exact ⟨Nested.wellFormed, Nested.middle_reached, by decide, Nested.inner_below_middle,
    by decide, hChild, chunk, hOwns⟩

/-- Each wrapper around the function is a template, and nothing around it is a
definition; still no chunk holds both the function and the outer template. -/
theorem Chunk.ofDefinitions_unwrapped :
    Nested.tree.WellFormed Nested.source.toList ∧
      Nested.outer ∈ Located.reachedBelow [] Nested.tree ∧
      Nested.inner ∈ Located.reachedBelow Nested.outer.ancestors Nested.outer.node ∧
      Nested.inner.node.kind ∈ Language.cpp.definitionKinds .functions ∧
      Nested.inner.node.span.start < Nested.inner.node.span.stop ∧
      (∀ around ∈ Nested.inner.enclosing, around.node.kind ∈ Language.cpp.wrapperKinds) ∧
      (∀ ancestor ∈ Nested.inner.ancestors,
        ancestor.kind ∉ Language.cpp.definitionKinds .functions ∧
          ancestor.kind ∉ Language.cpp.bindingKinds) ∧
      ∀ chunk ∈ (ChunkedFile.of Nested.source "a.hh" ⟨.functions, true⟩
          (.clean Nested.tree)).chunks,
        ¬ (chunk.Holds Nested.inner.node.span ∧ chunk.Holds Nested.outer.node.span) := by
  refine ⟨Nested.wellFormed, List.mem_of_getElem? (i := 0) rfl,
    List.mem_of_getElem? (i := 3) rfl, by decide, by decide, by decide, by decide, ?_⟩
  rintro chunk hChunk ⟨hInner, hOuter⟩
  rcases Nested.spans_of_mem hChunk with hSpans | hSpans
  · exact absurd (hOuter.of_spans hSpans 0 ⟨by decide, by decide⟩).1 (by decide)
  · exact absurd (hInner.of_spans hSpans 44 ⟨by decide, by decide⟩).2 (by decide)

end SourceIndex
