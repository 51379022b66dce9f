import SourceIndex.Proofs.Chunk.Wrappers

/-!
# Parents and the chunks of classes

The parent of a definition is found by a walk up its ancestors, the chunks of
classes by a walk down the tree under other rules.  In a language that binds no
functions or classes to variables both use the same kinds of nodes, so the
walks meet: the container at which the walk up stops matches on the way down,
what is outermost there lies around the definition, and its chunk holds all of
it.

The chunk is named after the class that its node is or wraps, which need not be
the container.  It is the container when there is only one around the definition
and the wrapped class is around it, too.  A template may also wrap a class beside
the definition, which then stands among the parameters of the template.

## Main results

* `Naming.container?_split` — where the walk up stops.
* `Located.mem_enclosing_iff` — what encloses a node is what reaches it.
* `Chunk.forall₂_tells` — the chunks of outermost matches, with names and parents.
* `Chunk.ofDefinitions_contained` — parents against the chunks of classes.
-/

namespace SourceIndex

/-! ## Ancestors -/

namespace Located

theorem mem_of_mem_above {ancestors : List Node} {outer : Located}
    (h : outer ∈ above ancestors) : outer.node ∈ ancestors := by
  induction ancestors with
  | nil => cases h
  | cons node upper ih =>
      cases upper with
      | nil => cases h
      | cons parent rest =>
          rw [above] at h
          rcases List.mem_cons.mp h with rfl | hAbove
          · exact List.mem_cons_self
          · exact List.mem_cons_of_mem node (ih hAbove)

theorem mem_above_append {upper : List Node} (hUpper : upper ≠ []) (nearer : List Node)
    (node : Node) : ⟨node, upper⟩ ∈ above (nearer ++ node :: upper) := by
  induction nearer with
  | nil =>
      rw [List.nil_append, above_cons hUpper]
      exact List.mem_cons_self
  | cons first rest ih =>
      rw [List.cons_append, above_cons (by simp)]
      exact List.mem_cons_of_mem _ ih

/-- The ancestors of a reached node lead to the node from which it is reached. -/
theorem ancestors_of_reached (node : Node) :
    ∀ ancestors : List Node, ∀ located ∈ reachedBelow ancestors node,
      ∃ nearer, located.ancestors = nearer ++ node :: ancestors := by
  induction node using Node.childInduction with
  | step node ih =>
      intro ancestors located hLocated
      rw [reachedBelow_eq] at hLocated
      obtain ⟨child, hChild, _, rfl | hDeeper⟩ := mem_reachedAmong.mp hLocated
      · exact ⟨[], rfl⟩
      · obtain ⟨nearer, hNearer⟩ := ih child hChild (node :: ancestors) located hDeeper
        exact ⟨nearer ++ [child], by rw [hNearer, List.append_assoc]; rfl⟩

/-- What is reached from a reached node is reached. -/
theorem reachedBelow_trans (node : Node) :
    ∀ ancestors : List Node, ∀ middle ∈ reachedBelow ancestors node,
      ∀ located ∈ reachedBelow middle.ancestors middle.node,
        located ∈ reachedBelow ancestors node := by
  induction node using Node.childInduction with
  | step node ih =>
      intro ancestors middle hMiddle located hLocated
      rw [reachedBelow_eq] at hMiddle ⊢
      obtain ⟨child, hChild, hNamed, rfl | hDeeper⟩ := mem_reachedAmong.mp hMiddle
      · exact mem_reachedAmong.mpr ⟨child, hChild, hNamed, .inr hLocated⟩
      · exact mem_reachedAmong.mpr ⟨child, hChild, hNamed,
          .inr (ih child hChild (node :: ancestors) middle hDeeper located hLocated)⟩

/-- What encloses a reached node encloses the node from which it is reached, or
is that node or between the two. -/
theorem reached_of_enclosing (node : Node) :
    ∀ ancestors : List Node, ∀ located ∈ reachedBelow ancestors node,
      ∀ outer ∈ located.enclosing, outer ∈ above (node :: ancestors) ∨
        outer ∈ reachedBelow ancestors node ∧
          located ∈ reachedBelow outer.ancestors outer.node := by
  induction node using Node.childInduction with
  | step node ih =>
      intro ancestors located hLocated outer hOuter
      rw [reachedBelow_eq] at hLocated ⊢
      obtain ⟨child, hChild, hNamed, rfl | hDeeper⟩ := mem_reachedAmong.mp hLocated
      · exact .inl hOuter
      · rcases ih child hChild (node :: ancestors) located hDeeper outer hOuter with
          hAbove | ⟨hReached, hBelow⟩
        · rw [above_cons (List.cons_ne_nil node ancestors)] at hAbove
          rcases List.mem_cons.mp hAbove with rfl | hFurther
          · exact .inr ⟨mem_reachedAmong.mpr ⟨child, hChild, hNamed, .inl rfl⟩, hDeeper⟩
          · exact .inl hFurther
        · exact .inr ⟨mem_reachedAmong.mpr ⟨child, hChild, hNamed, .inr hReached⟩, hBelow⟩

/-- **What encloses a node is what reaches it**, in a tree. -/
theorem mem_enclosing_iff {root : Node} {located outer : Located}
    (h : located ∈ reachedBelow [] root) :
    outer ∈ located.enclosing ↔
      outer ∈ reachedBelow [] root ∧ located ∈ reachedBelow outer.ancestors outer.node := by
  constructor
  · intro hOuter
    rcases reached_of_enclosing root [] located h outer hOuter with hAbove | hReached
    · cases hAbove
    · exact hReached
  · rintro ⟨hOuter, hBelow⟩
    obtain ⟨nearer, hAncestors⟩ := ancestors_of_reached root [] outer hOuter
    exact mem_enclosing (by rw [hAncestors]; simp) hBelow

end Located

/-! ## Where the walk up stops -/

namespace Naming

variable {source : List Char} {language : Language}

/-- The walk up stops at the nearest container, which has the name itself or is
bound by a declarator that has it. -/
theorem container?_split {ancestors : List Node} {name : List Char}
    (h : container? source language ancestors = some name) :
    ∃ nearer node upper, ancestors = nearer ++ node :: upper ∧
      isContainer language node.kind = true ∧
      (name? source node = some name ∨
        ∃ binding, upper.head? = some binding ∧ binding.kind = "variable_declarator") := by
  induction ancestors with
  | nil => cases h
  | cons node upper ih =>
      rw [container?] at h
      split at h
      · next hContainer =>
          refine ⟨[], node, upper, rfl, hContainer, ?_⟩
          cases hName : name? source node with
          | some own =>
              rw [hName] at h
              exact .inl h
          | none =>
              rw [hName] at h
              obtain ⟨binding, hBinding, hFound⟩ := Option.bind_eq_some_iff.mp h
              split at hFound
              · next hKind => exact .inr ⟨binding, hBinding, hKind⟩
              · cases hFound
      · obtain ⟨nearer, found, above, rfl, hFound⟩ := ih h
        exact ⟨node :: nearer, found, above, rfl, hFound⟩

end Naming

/-! ## Languages without values -/

namespace Language

variable {language : Language}

theorem bindingKinds_of_not_script (h : language.isScript = false) :
    language.bindingKinds = [] := by
  simp [bindingKinds, h]

theorem valueKinds_of_not_script (h : language.isScript = false) (strategy : Strategy) :
    language.valueKinds strategy = [] := by
  simp [valueKinds, h]

theorem isContainer_iff (h : language.isScript = false) {kind : String} :
    Naming.isContainer language kind = true ↔ kind ∈ language.definitionKinds .classes := by
  simp [Naming.isContainer, valueKinds_of_not_script h]

/-- No wrapper is a container. -/
theorem wrapper_no_container (language : Language) :
    ∀ kind ∈ language.wrapperKinds, Naming.isContainer language kind = false := by
  cases language <;> decide

end Language

namespace DefinitionRules

variable {language : Language} {options : ChunkOptions} {located inner : Located}

/-- Without values, a definition is of a kind that makes one, or it is the named
child of a wrapper and of such a kind. -/
theorem definition?_cases (hScript : language.isScript = false)
    (h : (DefinitionRules.of language options).definition? located = some inner) :
    inner = located ∧ located.node.kind ∈ language.definitionKinds options.strategy ∨
      located.node.kind ∈ language.wrapperKinds ∧ ∃ child ∈ located.node.namedChildren,
        child.kind ∈ language.definitionKinds options.strategy ∧ inner = located.below child := by
  have hDirect : ∀ {node found : Located},
      (DefinitionRules.of language options).direct? node = some found →
      found = node ∧ node.node.kind ∈ language.definitionKinds options.strategy := by
    intro node found hFound
    simp only [direct?, bound?, DefinitionRules.of,
      Language.bindingKinds_of_not_script hScript] at hFound
    split at hFound
    · next hKind =>
        cases hFound
        exact ⟨rfl, by simpa using hKind⟩
    · simp at hFound
  rw [definition?] at h
  split at h
  · next found hFound =>
      cases h
      exact .inl (hDirect hFound)
  · split at h
    · next hWrapper =>
        refine .inr ⟨by simpa [DefinitionRules.of] using hWrapper, ?_⟩
        split at h
        · next found hFound =>
            cases h
            obtain ⟨node, hNode, hHere⟩ := List.exists_of_findSome?_eq_some hFound
            obtain ⟨child, hChild, rfl⟩ := List.mem_map.mp hNode
            obtain ⟨rfl, hKind⟩ := hDirect hHere
            exact ⟨child, hChild, hKind, rfl⟩
        · simp [DefinitionRules.of, Language.valueKinds_of_not_script hScript] at h
    · cases h

/-- The parent of a definition that is no method of a receiver is found above the
node that it is or that wraps it. -/
theorem parent?_of_definition? (hScript : language.isScript = false) (source : List Char)
    (h : (DefinitionRules.of language options).definition? located = some inner)
    (hMethod : ¬ (language = .go ∧ located.node.kind = "method_declaration")) :
    Naming.parent? source language inner =
      Naming.container? source language located.ancestors := by
  rcases definition?_cases hScript h with ⟨rfl, _⟩ | ⟨hWrapper, child, _, _, rfl⟩
  · rw [Naming.parent?, if_neg hMethod]
  · have hGo : ¬ (language = .go ∧ child.kind = "method_declaration") := by
      rintro ⟨rfl, _⟩
      cases hWrapper
    have hNone := language.wrapper_no_container _ hWrapper
    rw [Naming.parent?, Located.below, if_neg hGo, Naming.container?, hNone]
    rfl

end DefinitionRules

/-! ## What a chunk tells of its match -/

theorem Partition.Settles.within {source : List Char} {rules : DefinitionRules} {found : Match}
    {settled : Definition} (hFound : found.WellFormed source)
    (h : Partition.Settles source (Definition.ofMatch source rules found) settled) :
    found.outer.span.Within settled.span := by
  have hStart : (Definition.ofMatch source rules found).span.start ≤ found.outer.span.start :=
    (Definition.attach_fits rules hFound.outer.fits.start hFound.before).2
  have hStop : found.outer.span.stop ≤ settled.span.stop := h.stop
  refine ⟨?_, hStop⟩
  rcases h.start with hSame | ⟨hZero, _⟩
  · exact hSame ▸ hStart
  · exact hZero ▸ Nat.zero_le _

namespace Chunk

variable {filePath : String} {language : Language} {options : ChunkOptions} {root : Node}

/-- A chunk is around an outermost match and tells the name and the parent of
its definition. -/
structure Tells (source : List Char) (rules : DefinitionRules) (located : Located)
    (chunk : Chunk) : Prop where
  around : located.node.span.Within chunk.range
  definition : ∃ found, rules.Placed found located ∧
    chunk.name = (Definition.ofMatch source rules found).name ∧
    chunk.parent = (Definition.ofMatch source rules found).parent

/-- The chunks that are no residue tell of the outermost matches, one by one. -/
theorem forall₂_tells (filePath : String) {source : String} (h : root.WellFormed source.toList)
    (hPlain : ∀ located ∈ (DefinitionRules.of language options).outermost root,
      (DefinitionRules.of language options).Plain located) :
    List.Forall₂ (Tells source.toList (DefinitionRules.of language options))
      ((DefinitionRules.of language options).outermost root)
      ((ofTree source filePath language options root).filter (·.granularity ≠ .residue)) := by
  have hSettles := Partition.settle_settles (Definition.all_apart h hPlain) (Definition.all_fit _ h)
  refine (Pairing.compose ((DefinitionRules.of language options).matchesBelow_placed root)
    (forall₂_of_settled h hSettles)).imp ?_
  rintro located chunk ⟨found, hFound, hPlaced, definition, hSettled, _, rfl⟩
  have hMatch := DefinitionRules.matchesBelow_root_wellFormed _ h found hFound
  have hName := congrArg Definition.name hSettled.same
  have hParent := congrArg Definition.parent hSettled.same
  exact ⟨hPlaced.outer ▸ hSettled.within hMatch, found, hPlaced, hName, hParent⟩

/-- What the chunks that are no residue tell, the settled definitions do. -/
theorem map_filter_ofTree {α : Type} (tell : Chunk → α) (filePath : String) (language : Language)
    (options : ChunkOptions) {source : String} (h : root.WellFormed source.toList) :
    ((ofTree source filePath language options root).filter (·.granularity ≠ .residue)).map tell =
      (settled source.toList language options root).map fun definition =>
        tell (ofDefinition source.toList filePath language options.strategy definition) := by
  rw [filter_ofTree h, List.map_map]
  rfl

/-- A chunk that is no residue owns what lies inside it. -/
theorem owns_of_mem {source : String} (h : root.WellFormed source.toList) {chunk : Chunk}
    (hChunk : chunk ∈ (ofTree source filePath language options root).filter
      (·.granularity ≠ .residue))
    {target : Span} (hWithin : target.Within chunk.range) :
    Owns (ofTree source filePath language options root) chunk target := by
  rw [filter_ofTree h] at hChunk
  obtain ⟨definition, hDefinition, rfl⟩ := List.mem_map.mp hChunk
  rw [ofTree_eq_sorted]
  exact owns_of_settled (settled_apart h) hDefinition hWithin

end Chunk

/-! ## The class around a definition -/

/-- There is one class around a definition, and the walks up and down the tree
agree on which one it is. -/
structure Located.OneClass (language : Language) (located : Located) : Prop where
  one : (located.ancestors.filter fun node =>
    Naming.isContainer language node.kind).length = 1
  /-- The class is not bound to a variable, as it is in no grammar. -/
  unbound : ∀ outer ∈ located.enclosing, Naming.isContainer language outer.node.kind = true →
    ∀ binding, outer.parent? = some binding → binding.kind ≠ "variable_declarator"
  /-- A class that a wrapper around the definition wraps is around it, too. -/
  wrapped : ∀ outer ∈ located.enclosing, outer.node.kind ∈ language.wrapperKinds →
    ∀ child ∈ outer.node.namedChildren, Naming.isContainer language child.kind = true →
      child ∈ located.ancestors

namespace Located

variable {source : List Char} {language : Language} {docstrings : Bool} {root : Node}
  {located : Located}

theorem OneClass.eq {first second : Node} (h : located.OneClass language)
    (hFirst : first ∈ located.ancestors) (hFirstKind : Naming.isContainer language first.kind)
    (hSecond : second ∈ located.ancestors)
    (hSecondKind : Naming.isContainer language second.kind) : first = second := by
  obtain ⟨only, hOnly⟩ := List.length_eq_one_iff.mp h.one
  have hIs : ∀ node ∈ located.ancestors, Naming.isContainer language node.kind → node = only := by
    intro node hNode hKind
    have hMem : node ∈ [only] := hOnly ▸ List.mem_filter.mpr ⟨hNode, hKind⟩
    exact List.mem_singleton.mp hMem
  rw [hIs first hFirst hFirstKind, hIs second hSecond hSecondKind]

/-- A container at which the walk up stops encloses the definition. -/
theorem mem_enclosing_of_container (hLocated : located ∈ reachedBelow [] root)
    (hRoot : Naming.isContainer language root.kind = false) {nearer upper : List Node}
    {node : Node} (hSplit : located.ancestors = nearer ++ node :: upper)
    (hContainer : Naming.isContainer language node.kind = true) :
    ⟨node, upper⟩ ∈ located.enclosing := by
  have hUpper : upper ≠ [] := by
    rintro rfl
    obtain ⟨others, hOthers⟩ := ancestors_of_reached root [] located hLocated
    rw [hSplit] at hOthers
    obtain rfl : node = root := (List.append_singleton_inj.mp hOthers).2
    rw [hRoot] at hContainer
    cases hContainer
  rw [enclosing, hSplit]
  exact mem_above_append hUpper nearer node

/-- **What is outermost around a class is around the definitions in it.** -/
theorem exists_outermost_class (docstrings : Bool) (hScript : language.isScript = false)
    (hLocated : located ∈ reachedBelow [] root) {outer : Located}
    (hOuter : outer ∈ located.enclosing)
    (hContainer : Naming.isContainer language outer.node.kind = true) :
    ∃ top ∈ (DefinitionRules.of language ⟨.classes, docstrings⟩).outermost root,
      top ∈ located.enclosing := by
  obtain ⟨hReached, hBelow⟩ := (mem_enclosing_iff hLocated).mp hOuter
  have hMatch : ((DefinitionRules.of language ⟨.classes, docstrings⟩).definition? outer).isSome =
      true := by
    rw [DefinitionRules.definition?,
      DefinitionRules.direct?_of_kind ((Language.isContainer_iff hScript).mp hContainer)]
    rfl
  obtain ⟨top, hTop, hOutermost, hAround⟩ :=
    DefinitionRules.exists_outermost_of _ root [] rfl outer hReached hMatch
  refine ⟨top, List.mem_filter.mpr ⟨hTop, hOutermost⟩, (mem_enclosing_iff hLocated).mpr ⟨hTop, ?_⟩⟩
  rcases hAround with rfl | hInside
  · exact hBelow
  · exact reachedBelow_trans top.node top.ancestors outer hInside located hBelow

/-- The outermost class around a definition has the name of its parent, when it
is the only one. -/
theorem OneClass.nameOf (hScript : language.isScript = false) (h : located.OneClass language)
    {top : Located} (hTop : top ∈ located.enclosing) {found : Match}
    (hPlaced : (DefinitionRules.of language ⟨.classes, docstrings⟩).Placed found top)
    {node : Node} (hNode : node ∈ located.ancestors)
    (hContainer : Naming.isContainer language node.kind = true) {name : List Char}
    (hName : Naming.name? source node = some name) :
    Definition.nameOf source found = some name := by
  have hClass : ∀ {kind : String}, kind ∈ language.definitionKinds .classes →
      Naming.isContainer language kind = true := fun hKind =>
    (Language.isContainer_iff hScript).mpr hKind
  have hInner : found.inner.node = node := by
    rcases DefinitionRules.definition?_cases hScript hPlaced.inner with
      ⟨hSame, hKind⟩ | ⟨hWrapper, child, hChild, hKind, hSame⟩
    · rw [hSame]
      exact h.eq (mem_of_mem_above hTop) (hClass hKind) hNode hContainer
    · rw [hSame]
      exact h.eq (h.wrapped top hTop hWrapper child hChild (hClass hKind)) (hClass hKind) hNode
        hContainer
  rw [Definition.nameOf, hInner, hName]
  rfl

end Located

namespace Chunk

/-- What the chunk of a definition and the chunks of classes say of its parent:
a chunk of a class owns the node of a definition with a parent, unless this is
the type of its receiver. -/
structure Contained (language : Language) (classes : List Chunk) (located : Located)
    (chunk : Chunk) : Prop where
  around : located.node.span.Within chunk.range
  holder : ∀ parent, chunk.parent = some parent →
    ¬ (language = .go ∧ located.node.kind = "method_declaration") →
    ∃ holder, Owns classes holder located.node.span ∧
      (located.OneClass language → holder.name = some parent)

variable {filePath : String} {language : Language} {root : Node} {docstrings : Bool}

/-- The chunk of a class is around each definition that has a parent. -/
theorem Tells.contained {source : String} (hScript : language.isScript = false)
    (h : root.WellFormed source.toList)
    (hRoot : Naming.isContainer language root.kind = false)
    (hPlain : ∀ located ∈ (DefinitionRules.of language ⟨.classes, docstrings⟩).outermost root,
      (DefinitionRules.of language ⟨.classes, docstrings⟩).Plain located)
    {options : ChunkOptions} {located : Located} {chunk : Chunk}
    (hLocated : located ∈ Located.reachedBelow [] root)
    (hTells : Tells source.toList (DefinitionRules.of language options) located chunk) :
    Contained language (ofTree source filePath language ⟨.classes, docstrings⟩ root) located
      chunk := by
  refine ⟨hTells.around, ?_⟩
  intro parent hParent hMethod
  obtain ⟨found, hPlaced, _, hSame⟩ := hTells.definition
  -- The walk up from the definition stops at a container.
  have hName : Naming.container? source.toList language located.ancestors =
      some parent.toList := by
    rw [← DefinitionRules.parent?_of_definition? hScript source.toList hPlaced.inner hMethod]
    obtain ⟨name, hFound, rfl⟩ := Option.map_eq_some_iff.mp (hSame.symm.trans hParent)
    rw [String.toList_ofList]
    exact hFound
  obtain ⟨nearer, node, upper, hSplit, hContainer, hNamed⟩ := Naming.container?_split hName
  have hEnclosing := Located.mem_enclosing_of_container hLocated hRoot hSplit hContainer
  -- The walk down meets something outermost around it, and this has a chunk.
  obtain ⟨top, hTop, hAround⟩ :=
    Located.exists_outermost_class docstrings hScript hLocated hEnclosing hContainer
  obtain ⟨holder, hHolder, hHolderTells⟩ :=
    Pairing.exists_right (forall₂_tells filePath h hPlain) hTop
  obtain ⟨hReached, hBelow⟩ := (Located.mem_enclosing_iff hLocated).mp hAround
  have hTopWellFormed := (Located.reachedBelow_inside root [] h top hReached).wellFormed
  have hWithin := (Located.span_within hTopWellFormed (.inr hBelow)).1
  refine ⟨holder, owns_of_mem h hHolder (hWithin.trans hHolderTells.around), ?_⟩
  intro hOne
  have hOwnName : Naming.name? source.toList node = some parent.toList := by
    rcases hNamed with hOwn | ⟨binding, hBinding, hKind⟩
    · exact hOwn
    · exact absurd hKind (hOne.unbound _ hEnclosing hContainer binding hBinding)
  have hNode : node ∈ located.ancestors := by
    rw [hSplit]
    exact List.mem_append_right _ List.mem_cons_self
  obtain ⟨matched, hMatched, hHolderName, _⟩ := hHolderTells.definition
  have hNameOf := hOne.nameOf hScript hAround hMatched hNode hContainer hOwnName
  rw [hHolderName, Definition.ofMatch]
  simp only [hNameOf, Option.map_some, String.ofList_toList]

/--
**Definitions are contained where their parents say.**  In a language that binds
no functions or classes to variables, a definition with a parent, other than a
method of a receiver, lies inside one chunk of a class when its file is split
along the classes.  This chunk has the parent's name when there is one class
around the definition and no wrapper around it wraps another.
-/
theorem ofDefinitions_contained (source filePath : String) (language : Language)
    (functionDocs classDocs : Bool) (root : Node) (hScript : language.isScript = false)
    (h : root.WellFormed source.toList)
    (hRoot : Naming.isContainer language root.kind = false)
    (hFunctions : ∀ located ∈
        (DefinitionRules.of language ⟨.functions, functionDocs⟩).outermost root,
      (DefinitionRules.of language ⟨.functions, functionDocs⟩).Plain located)
    (hClasses : ∀ located ∈ (DefinitionRules.of language ⟨.classes, classDocs⟩).outermost root,
      (DefinitionRules.of language ⟨.classes, classDocs⟩).Plain located) :
    ∃ functions classes,
      ofDefinitions source filePath language ⟨.functions, functionDocs⟩ (.clean root) =
        .ok functions ∧
      ofDefinitions source filePath language ⟨.classes, classDocs⟩ (.clean root) =
        .ok classes ∧
      (Language.ofPath? filePath = some language →
        (ChunkedFile.of source filePath ⟨.functions, functionDocs⟩ (.clean root)).chunks =
            functions ∧
          (ChunkedFile.of source filePath ⟨.classes, classDocs⟩ (.clean root)).chunks =
            classes) ∧
      List.Forall₂ (Contained language classes)
        ((DefinitionRules.of language ⟨.functions, functionDocs⟩).outermost root)
        (functions.filter (·.granularity ≠ .residue)) := by
  refine ⟨ofTree source filePath language ⟨.functions, functionDocs⟩ root,
    ofTree source filePath language ⟨.classes, classDocs⟩ root, rfl, rfl, ?_, ?_⟩
  · exact fun hLanguage => ⟨ofFile_chunks nofun hLanguage, ofFile_chunks nofun hLanguage⟩
  · have hTells := forall₂_tells filePath h hFunctions
    have hReached : ∀ located ∈
        (DefinitionRules.of language ⟨.functions, functionDocs⟩).outermost root,
        located ∈ Located.reachedBelow [] root :=
      fun located hLocated => (List.mem_filter.mp hLocated).1
    refine ((List.forall₂_and_left _ _).mpr ⟨hReached, hTells⟩).imp ?_
    exact fun located chunk hBoth => hBoth.2.contained hScript h hRoot hClasses hBoth.1

end Chunk

/-! ### A class that a template wraps -/

namespace Wrapped

def source : String := "template <class T> class A { void f() {} };\n"

open Nested (leaf)

def function : Node :=
  { kind := "function_definition", named := true, span := ⟨29, 40⟩, roles := []
    children :=
      [leaf "primitive_type" ⟨29, 33⟩ [.type],
       { leaf "function_declarator" ⟨34, 37⟩ [.declarator] with
         children := [leaf "field_identifier" ⟨34, 35⟩ [.declarator]] },
       leaf "compound_statement" ⟨38, 40⟩ [.body]] }

def body : Node := { leaf "field_declaration_list" ⟨27, 42⟩ [.body] with children := [function] }

def classNode : Node :=
  { leaf "class_specifier" ⟨19, 42⟩ [] with
    children := [leaf "type_identifier" ⟨25, 26⟩ [.name], body] }

def template : Node :=
  { leaf "template_declaration" ⟨0, 43⟩ [] with
    children := [leaf "template_parameter_list" ⟨9, 18⟩ [], classNode] }

def tree : Node := { leaf "translation_unit" ⟨0, 44⟩ [] with children := [template] }

def method : Located := ⟨function, [body, classNode, template, tree]⟩

theorem wellFormed : tree.WellFormed source.toList := by decide

theorem plain_functions :
    ∀ located ∈ (DefinitionRules.of .cpp ⟨.functions, true⟩).outermost tree,
      (DefinitionRules.of .cpp ⟨.functions, true⟩).Plain located := by decide

theorem plain_classes : ∀ located ∈ (DefinitionRules.of .cpp ⟨.classes, true⟩).outermost tree,
    (DefinitionRules.of .cpp ⟨.classes, true⟩).Plain located := by decide

theorem outermost : (DefinitionRules.of .cpp ⟨.functions, true⟩).outermost tree = [method] := by
  rfl

/-- The template wraps the class around the method. -/
theorem oneClass : method.OneClass .cpp := by
  refine ⟨by decide, by decide, ?_⟩
  intro outer hOuter hKind child hChild hContainer
  have hEnclosing : method.enclosing = [⟨body, [classNode, template, tree]⟩,
      ⟨classNode, [template, tree]⟩, ⟨template, [tree]⟩] := rfl
  have hChildren : template.namedChildren =
      [leaf "template_parameter_list" ⟨9, 18⟩ [], classNode] := rfl
  rw [hEnclosing] at hOuter
  simp only [List.mem_cons, List.not_mem_nil, or_false] at hOuter
  rcases hOuter with rfl | rfl | rfl
  · exact absurd hKind (by decide)
  · exact absurd hKind (by decide)
  · rw [hChildren] at hChild
    simp only [List.mem_cons, List.not_mem_nil, or_false] at hChild
    rcases hChild with rfl | rfl
    · exact absurd hContainer (by decide)
    · exact List.mem_of_getElem? (i := 1) rfl

theorem parents : (Chunk.settled source.toList .cpp ⟨.functions, true⟩ tree).map (·.parent) =
    [some "A"] := by
  rw [Chunk.settled, Partition.settle_of_sorted (by decide)]
  decide +kernel

end Wrapped

/-- The method is in the chunk of the template, which is named after the class. -/
theorem Chunk.ofDefinitions_contained_wrapped :
    Language.cpp.isScript = false ∧ Wrapped.tree.WellFormed Wrapped.source.toList ∧
      Naming.isContainer .cpp Wrapped.tree.kind = false ∧
      (∀ located ∈ (DefinitionRules.of .cpp ⟨.functions, true⟩).outermost Wrapped.tree,
        (DefinitionRules.of .cpp ⟨.functions, true⟩).Plain located) ∧
      (∀ located ∈ (DefinitionRules.of .cpp ⟨.classes, true⟩).outermost Wrapped.tree,
        (DefinitionRules.of .cpp ⟨.classes, true⟩).Plain located) ∧
      Wrapped.method.OneClass .cpp ∧
      ∃ holder, Owns (ChunkedFile.of Wrapped.source "a.hh" ⟨.classes, true⟩
        (.clean Wrapped.tree)).chunks holder Wrapped.function.span ∧ holder.name = some "A" := by
  obtain ⟨functions, classes, hFunctions, _, hFiles, hAll⟩ :=
    ofDefinitions_contained Wrapped.source "a.hh" .cpp true true Wrapped.tree rfl
      Wrapped.wellFormed (by decide) Wrapped.plain_functions Wrapped.plain_classes
  have hParents := map_filter_ofTree (·.parent) "a.hh" .cpp ⟨.functions, true⟩ Wrapped.wellFormed
  rw [show ofTree Wrapped.source "a.hh" .cpp ⟨.functions, true⟩ Wrapped.tree = functions from
    Except.ok.inj hFunctions] at hParents
  rw [(hFiles (by decide)).2]
  rw [Wrapped.outermost] at hAll
  generalize functions.filter _ = chunks at hAll hParents
  cases hAll with
  | cons hContained hRest =>
      cases hRest
      have hParent := (List.cons.inj (hParents.trans Wrapped.parents)).1
      obtain ⟨holder, hOwns, hName⟩ := hContained.holder "A" hParent (by decide)
      exact ⟨rfl, Wrapped.wellFormed, by decide, Wrapped.plain_functions, Wrapped.plain_classes,
        Wrapped.oneClass, holder, hOwns, hName Wrapped.oneClass⟩

/-! ### A class among the parameters of a template -/

namespace Beside

def source : String :=
  "template <auto F = [] { class S { int q() { return 1; } }; }>\nclass A {};\n"

open Nested (leaf)

def function : Node :=
  { leaf "function_definition" ⟨34, 55⟩ [] with
    children :=
      [leaf "primitive_type" ⟨34, 37⟩ [.type],
       { leaf "function_declarator" ⟨38, 41⟩ [.declarator] with
         children := [leaf "field_identifier" ⟨38, 39⟩ [.declarator]] },
       leaf "compound_statement" ⟨42, 55⟩ [.body]] }

def innerBody : Node :=
  { leaf "field_declaration_list" ⟨32, 57⟩ [.body] with children := [function] }

def innerClass : Node :=
  { leaf "class_specifier" ⟨24, 57⟩ [] with
    children := [leaf "type_identifier" ⟨30, 31⟩ [.name], innerBody] }

def block : Node := { leaf "compound_statement" ⟨22, 60⟩ [.body] with children := [innerClass] }

def lambda : Node :=
  { leaf "lambda_expression" ⟨19, 60⟩ [] with
    children := [leaf "lambda_capture_specifier" ⟨19, 21⟩ [], block] }

def parameter : Node :=
  { leaf "optional_parameter_declaration" ⟨10, 60⟩ [] with
    children :=
      [leaf "placeholder_type_specifier" ⟨10, 14⟩ [.type],
       leaf "identifier" ⟨15, 16⟩ [.declarator], lambda] }

def parameters : Node :=
  { leaf "template_parameter_list" ⟨9, 61⟩ [] with children := [parameter] }

def outerClass : Node :=
  { leaf "class_specifier" ⟨62, 72⟩ [] with
    children :=
      [leaf "type_identifier" ⟨68, 69⟩ [.name], leaf "field_declaration_list" ⟨70, 72⟩ [.body]] }

def template : Node :=
  { leaf "template_declaration" ⟨0, 73⟩ [] with children := [parameters, outerClass] }

def tree : Node := { leaf "translation_unit" ⟨0, 74⟩ [] with children := [template] }

def method : Located :=
  ⟨function, [innerBody, innerClass, block, lambda, parameter, parameters, template, tree]⟩

theorem wellFormed : tree.WellFormed source.toList := by decide

theorem outermost : (DefinitionRules.of .cpp ⟨.functions, true⟩).outermost tree = [method] := by
  rfl

theorem parents : (Chunk.settled source.toList .cpp ⟨.functions, true⟩ tree).map (·.parent) =
    [some "S"] := by
  rw [Chunk.settled, Partition.settle_of_sorted (by decide)]
  decide +kernel

theorem names : (Chunk.settled source.toList .cpp ⟨.classes, true⟩ tree).map (·.name) =
    [some "A"] := by
  rw [Chunk.settled, Partition.settle_of_sorted (by decide)]
  decide +kernel

/-- Whether a node is of a kind that makes a function or a class. -/
def isDefinition (node : Node) : Bool :=
  (Language.cpp.definitionKinds .functions ++ Language.cpp.definitionKinds .classes).contains
    node.kind

end Beside

/-- The parent of the method is the only class around it, but the chunk that holds
the method is named after the class beside it that the template wraps. -/
theorem Chunk.ofDefinitions_misnamed :
    Beside.tree.WellFormed Beside.source.toList ∧
      Naming.isContainer .cpp Beside.tree.kind = false ∧
      (∀ located ∈ (DefinitionRules.of .cpp ⟨.functions, true⟩).outermost Beside.tree,
        (DefinitionRules.of .cpp ⟨.functions, true⟩).Plain located) ∧
      (∀ located ∈ (DefinitionRules.of .cpp ⟨.classes, true⟩).outermost Beside.tree,
        (DefinitionRules.of .cpp ⟨.classes, true⟩).Plain located) ∧
      (∀ wrapper ∈ Located.reachedBelow [] Beside.tree,
        wrapper.node.kind ∈ Language.cpp.wrapperKinds →
          (wrapper.node.namedChildren.filter Beside.isDefinition).length ≤ 1) ∧
      (DefinitionRules.of .cpp ⟨.functions, true⟩).outermost Beside.tree = [Beside.method] ∧
      (Beside.method.ancestors.filter fun node =>
        Naming.isContainer .cpp node.kind).length = 1 ∧
      ((ofTree Beside.source "a.hpp" .cpp ⟨.functions, true⟩ Beside.tree).filter
        (·.granularity ≠ .residue)).map (·.parent) = [some "S"] ∧
      ∀ holder, Owns (ofTree Beside.source "a.hpp" .cpp ⟨.classes, true⟩ Beside.tree) holder
        Beside.function.span → holder.name = some "A" := by
  refine ⟨Beside.wellFormed, by decide, by decide, by decide, by decide, Beside.outermost,
    by decide, ?_, ?_⟩
  · rw [map_filter_ofTree _ _ _ _ Beside.wellFormed]
    exact Beside.parents
  · intro holder hOwns
    have hNames := map_filter_ofTree (·.name) "a.hpp" .cpp ⟨.classes, true⟩ Beside.wellFormed
    have hHolder : holder ∈ (ofTree Beside.source "a.hpp" .cpp ⟨.classes, true⟩
        Beside.tree).filter (·.granularity ≠ .residue) :=
      List.mem_filter.mpr ⟨hOwns.mem, decide_eq_true hOwns.definition⟩
    have hName := List.mem_map_of_mem (f := (·.name)) hHolder
    rw [hNames] at hName
    exact List.mem_singleton.mp (Beside.names ▸ hName)

end SourceIndex
