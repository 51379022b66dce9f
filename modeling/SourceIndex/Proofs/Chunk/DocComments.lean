import Mathlib.Data.List.Chain
import Mathlib.Data.List.TakeWhile
import SourceIndex.Proofs.Chunk.Attached
import SourceIndex.Proofs.Pairing

/-!
# The comments that document a definition

In a language without attributes a definition takes with it the longest run of
comments right before its node in which each one starts its line and leaves at
most one line feed up to what is behind it.  The run is told here by the
siblings of the node: it is a chain, and the sibling before it does not
continue the chain.

## Main results

* `Text.startsLine_iff` — only blanks are before an offset on its line.
* `Match.docRun_attached` — the attached siblings are such a run.
* `Chunk.ofDefinitions_documented` — a chunk holds this run before its node.
-/

namespace SourceIndex

open Text (InkAt Inkless)

/-! ## Starts of lines -/

namespace Text

/-- Only blanks are before an offset on its line. -/
def StartsLine (text : List Char) (offset : Nat) : Prop :=
  ∃ earlier indent, takeBytes offset text = earlier ++ indent ∧
    (∀ last ∈ earlier.getLast?, last = '\n') ∧ '\n' ∉ indent ∧ allBlank indent = true

/-- What is behind the last line feed of a text is its last line. -/
theorem takeWhile_reverse_append {earlier line : List Char}
    (hEarlier : ∀ last ∈ earlier.getLast?, last = '\n') (hLine : '\n' ∉ line) :
    (earlier ++ line).reverse.takeWhile (· != '\n') = line.reverse := by
  have hAll : ∀ c ∈ line.reverse, (c != '\n') = true := by
    intro c hMem
    have hNe : c ≠ '\n' := fun hFeed => hLine (hFeed ▸ List.mem_reverse.mp hMem)
    exact bne_iff_ne.mpr hNe
  rw [List.reverse_append, List.takeWhile_append_of_pos hAll]
  rw [← List.head?_reverse] at hEarlier
  cases hReverse : earlier.reverse with
  | nil => rw [List.takeWhile_nil, List.append_nil]
  | cons last rest =>
      obtain rfl := hEarlier last (by rw [hReverse]; rfl)
      rw [List.takeWhile_cons_of_neg (by decide), List.append_nil]

theorem startsLine_iff {text : List Char} {offset : Nat} :
    StartsLine text offset ↔
      allBlank ((takeBytes offset text).reverse.takeWhile (· != '\n')) = true := by
  constructor
  · rintro ⟨earlier, indent, hText, hEarlier, hIndent, hBlank⟩
    rw [hText, takeWhile_reverse_append hEarlier hIndent, allBlank, List.all_reverse]
    exact hBlank
  · intro hBlank
    refine ⟨((takeBytes offset text).reverse.dropWhile (· != '\n')).reverse,
      ((takeBytes offset text).reverse.takeWhile (· != '\n')).reverse, ?_, ?_, ?_, ?_⟩
    · rw [← List.reverse_append, List.takeWhile_append_dropWhile, List.reverse_reverse]
    · intro last hLast
      rw [List.getLast?_reverse] at hLast
      have hFeed := List.head?_dropWhile_not (· != '\n') (takeBytes offset text).reverse
      rw [Option.mem_def.mp hLast] at hFeed
      simpa using hFeed
    · intro hMem
      have hNot := List.mem_takeWhile_imp (List.mem_reverse.mp hMem)
      exact absurd hNot (by decide)
    · rw [allBlank, List.all_reverse]
      exact hBlank

end Text

/-! ## Runs of comments -/

/-- A comment documents what starts at `next`: it starts its line, and up to
`next` there are blanks only, with at most one line feed; one that ends the
comment counts. -/
structure Node.Documents (source : List Char) (language : Language) (comment : Node)
    (next : Nat) : Prop where
  kind : language.commentKinds.contains comment.kind = true
  line : Text.StartsLine source comment.span.start
  blank : Text.allBlank (Text.slice source comment.span.stop next) = true
  feeds : Text.lineFeeds (Text.slice source comment.span.stop next) +
    (if (comment.text source).getLast? = some '\n' then 1 else 0) ≤ 1

/-- Siblings right before a node, all that document it: each of them documents
the next one or the node, and the sibling before them does not. -/
structure Located.DocRun (source : List Char) (language : Language) (located : Located)
    (run : List Node) : Prop where
  chain : (run ++ [located.node]).IsChain fun comment next =>
    comment.Documents source language next.span.start
  maximal : ∃ parent earlier later, located.parent? = some parent ∧
    parent.children = earlier ++ run ++ located.node :: later ∧
    ∀ node ∈ earlier.getLast?, ∀ next ∈ (run ++ [located.node]).head?,
      ¬ node.Documents source language next.span.start

variable {source : List Char}

namespace Definition

variable {language : Language} {strategy : Strategy}

/-- Without attributes, what joins is what documents. -/
theorem joins_iff_documents (h : language.attributeKinds = []) {node : Node} {start : Nat} :
    joins source (.of language ⟨strategy, true⟩) node start = true ↔
      node.Documents source language start := by
  have hAttribute : ¬ language.attributeKinds.contains node.kind = true := by
    rw [h]
    exact Bool.false_ne_true
  rw [joins, DefinitionRules.of, if_neg hAttribute, isAdjacent]
  simp only [Bool.and_eq_true, decide_eq_true_eq, ← Text.startsLine_iff]
  constructor
  · rintro ⟨⟨_, hKind⟩, ⟨hBlank, hFeeds⟩, hLine⟩
    exact ⟨hKind, hLine, hBlank, hFeeds⟩
  · rintro ⟨hKind, hLine, hBlank, hFeeds⟩
    exact ⟨⟨trivial, hKind⟩, ⟨hBlank, hFeeds⟩, hLine⟩

/-- The attached siblings are a chain that goes back from the node, and the next
sibling does not join it. -/
theorem attached_chain (source : List Char) (rules : DefinitionRules) (before : List Node) :
    ∀ node : Node,
      (node :: attached source rules node.span.start before).IsChain
        (fun next earlier => joins source rules earlier next.span.start = true) ∧
      ∃ rest, before = attached source rules node.span.start before ++ rest ∧
        ∀ earlier ∈ rest.head?,
          ∀ last ∈ (node :: attached source rules node.span.start before).getLast?,
            ¬ joins source rules earlier last.span.start = true := by
  induction before with
  | nil => exact fun node => ⟨.singleton node, [], rfl, nofun⟩
  | cons first before ih =>
      intro node
      by_cases hJoins : joins source rules first node.span.start = true
      · obtain ⟨hChain, rest, hBefore, hMaximal⟩ := ih first
        rw [attached_cons_of_joins before hJoins]
        refine ⟨.cons_cons hJoins hChain, rest, ?_, ?_⟩
        · rw [List.cons_append, ← hBefore]
        · rw [List.getLast?_cons_cons]
          exact hMaximal
      · rw [attached_cons_of_not_joins before hJoins]
        refine ⟨.singleton node, first :: before, rfl, ?_⟩
        intro earlier hEarlier last hLast
        obtain rfl := Option.some.inj hEarlier
        obtain rfl := Option.some.inj hLast
        exact hJoins

/-- Where the last of some nodes starts. -/
theorem start_getLast? (node : Node) (nodes : List Node) :
    ∃ last, (node :: nodes).getLast? = some last ∧
      last.span.start = frontier node.span.start nodes := by
  induction nodes generalizing node with
  | nil => exact ⟨node, rfl, rfl⟩
  | cons first rest ih =>
      rw [List.getLast?_cons_cons]
      exact ih first

end Definition

/-! ## The run of a match -/

namespace Match

variable {language : Language} {strategy : Strategy} {found : Match} {located : Located}

/-- **The attached siblings are the run that documents the node.** -/
theorem docRun_attached (h : language.attributeKinds = [])
    (hPlaced : (DefinitionRules.of language ⟨strategy, true⟩).Placed found located) :
    located.DocRun source language
      (found.attached source (.of language ⟨strategy, true⟩)).reverse := by
  obtain ⟨hChain, rest, hBefore, hMaximal⟩ := Definition.attached_chain source
    (.of language ⟨strategy, true⟩) found.before found.outer
  obtain ⟨parent, after, hParent, hChildren⟩ := hPlaced.siblings
  rw [← attached] at hChain hBefore hMaximal
  rw [hPlaced.outer] at hChain hMaximal
  refine ⟨?_, parent, rest.reverse, after, hParent, ?_, ?_⟩
  · rw [← List.reverse_cons, List.isChain_reverse]
    exact hChain.imp fun _ _ hJoins => (Definition.joins_iff_documents h).mp hJoins
  · rw [hChildren, hBefore, List.reverse_append]
  · intro earlier hEarlier next hNext hDocuments
    rw [List.getLast?_reverse] at hEarlier
    rw [← List.reverse_cons, List.head?_reverse] at hNext
    exact hMaximal earlier hEarlier next hNext
      ((Definition.joins_iff_documents h).mpr hDocuments)

/-- The docstring of a match comes from its body, in Python, or else from the
attached siblings. -/
theorem docstring_ofMatch (h : language.attributeKinds = []) :
    (Definition.ofMatch source (.of language ⟨strategy, true⟩) found).docstring =
      Docstring.of? source language found.inner.node
        ((found.attached source (.of language ⟨strategy, true⟩)).reverse.map
          (·.text source)) := by
  have hAll : ∀ nodes : List Node, (nodes.filter fun node =>
      !(DefinitionRules.of language ⟨strategy, true⟩).language.attributeKinds.contains
        node.kind) = nodes := by
    intro nodes
    refine List.filter_eq_self.mpr fun node _ => ?_
    show (!language.attributeKinds.contains node.kind) = true
    rw [h]
    rfl
  rw [Definition.ofMatch, Definition.attach_eq, hAll]
  rfl

end Match

/-! ## Chunks with their comments -/

/-- A chunk holds the comments of a run and blanks before a node, and in front
of the run only the blanks that start the file.  Its docstring is computed from
the run, unless a string opens the body of a Python definition. -/
structure Chunk.DocumentedBy (source : List Char) (rules : DefinitionRules) (located : Located)
    (run : List Node) (chunk : Chunk) : Prop where
  spans : chunk.spans = [chunk.range]
  stop : located.node.span.stop ≤ chunk.range.stop
  fill : Node.Fill source chunk.range.start located.node.span.start run
  start : ∀ first ∈ (run ++ [located.node]).head?, chunk.range.start = first.span.start ∨
    chunk.range.start = 0 ∧ Inkless source 0 first.span.start
  docstring : ∃ inner, rules.definition? located = some inner ∧
    chunk.docstring =
      ((if rules.language = .python then Docstring.ofBody? source inner.node else none) <|>
        Docstring.ofComments (run.map (·.text source)))

namespace Chunk

variable {filePath : String} {language : Language} {strategy : Strategy}

/-- The chunk of a match holds the attached siblings. -/
theorem OfMatch.documentedBy {found : Match} {located : Located} {chunk : Chunk}
    (h : language.attributeKinds = [])
    (hChunk : OfMatch source (.of language ⟨strategy, true⟩) found chunk)
    (hFound : found.WellFormed source)
    (hPlaced : (DefinitionRules.of language ⟨strategy, true⟩).Placed found located) :
    chunk.DocumentedBy source (.of language ⟨strategy, true⟩) located
      (found.attached source (.of language ⟨strategy, true⟩)).reverse := by
  have hOuter := hPlaced.outer
  have hFill := (hFound.fill (.of language ⟨strategy, true⟩)).reverse
  have hPrologue : Inkless source chunk.range.start
      (found.start source (.of language ⟨strategy, true⟩)) := by
    rcases hChunk.start with hSame | ⟨hZero, hBlank⟩
    · rw [hSame]
      exact Text.inkless_self source _
    · rw [hZero]
      exact hBlank
  refine
    { spans := hChunk.spans
      stop := hOuter ▸ hChunk.stop
      fill := hOuter ▸ hFill.extend hChunk.start_le hPrologue
      start := ?_
      docstring := ⟨found.inner, hPlaced.inner, ?_⟩ }
  · intro first hFirst
    obtain ⟨last, hLast, hStart⟩ := Definition.start_getLast? found.outer
      (found.attached source (.of language ⟨strategy, true⟩))
    rw [← hOuter, ← List.reverse_cons, List.head?_reverse, hLast] at hFirst
    obtain rfl := Option.some.inj hFirst
    rw [hStart]
    exact hChunk.start
  · rw [hChunk.docstring, Match.docstring_ofMatch h, Docstring.of?]
    rfl

/-- Only one language has attributes. -/
theorem attributeKinds_eq_nil (h : language ≠ .rust) : language.attributeKinds = [] := by
  cases language with
  | rust => exact absurd rfl h
  | _ => rfl

/-- The chunks of a tree hold the runs that document its outermost matching
nodes. -/
theorem ofTree_documented {source : String} {root : Node} (h : root.WellFormed source.toList)
    (hAttributes : language.attributeKinds = [])
    (hPlain : ∀ located ∈ (DefinitionRules.of language ⟨strategy, true⟩).outermost root,
      (DefinitionRules.of language ⟨strategy, true⟩).Plain located) :
    List.Forall₂
      (fun located chunk => ∃ run, located.DocRun source.toList language run ∧
        chunk.DocumentedBy source.toList (.of language ⟨strategy, true⟩) located run)
      ((DefinitionRules.of language ⟨strategy, true⟩).outermost root)
      ((ofTree source filePath language ⟨strategy, true⟩ root).filter
        (·.granularity ≠ .residue)) := by
  have hFound := (DefinitionRules.of language ⟨strategy, true⟩).matchesBelow_root_wellFormed h
  have hPlaced := (DefinitionRules.of language ⟨strategy, true⟩).matchesBelow_placed root
  refine (Pairing.compose hPlaced (forall₂_ofTree h hPlain)).imp ?_
  rintro located chunk ⟨found, hMem, hHere, hChunk⟩
  exact ⟨_, Match.docRun_attached hAttributes hHere,
    hChunk.documentedBy hAttributes (hFound found hMem) hHere⟩

/--
**Comments belong to the definition they are adjacent to.**  In a language
without attributes, and in a tree whose outermost matching nodes are not empty
and have no comment around them, the chunk of each such node holds before the
node the longest run of comments that start their lines and leave no blank line
up to it, and nothing else but blanks.  The docstring is computed from this run
unless a string opens the body of a Python definition.
-/
theorem ofDefinitions_documented (source filePath : String) (language : Language)
    (strategy : Strategy) (root : Node) (h : root.WellFormed source.toList)
    (hLanguage : language ≠ .rust)
    (hPlain : ∀ located ∈ (DefinitionRules.of language ⟨strategy, true⟩).outermost root,
      (DefinitionRules.of language ⟨strategy, true⟩).Plain located) :
    ∃ chunks,
      ofDefinitions source filePath language ⟨strategy, true⟩ (.clean root) = .ok chunks ∧
      (strategy ≠ .wholeFile → Language.ofPath? filePath = some language →
        (ChunkedFile.of source filePath ⟨strategy, true⟩ (.clean root)).chunks = chunks) ∧
      List.Forall₂
        (fun located chunk => ∃ run, located.DocRun source.toList language run ∧
          chunk.DocumentedBy source.toList (.of language ⟨strategy, true⟩) located run)
        ((DefinitionRules.of language ⟨strategy, true⟩).outermost root)
        (chunks.filter (·.granularity ≠ .residue)) := by
  refine ⟨ofTree source filePath language ⟨strategy, true⟩ root, rfl, ?_,
    ofTree_documented h (attributeKinds_eq_nil hLanguage) hPlain⟩
  exact fun hStrategy hPath => ofFile_chunks hStrategy hPath

theorem ofDefinitions_documented_accent :
    Accent.tree.WellFormed Accent.source.toList ∧
      Language.python ≠ .rust ∧
      (∀ located ∈ (DefinitionRules.of .python ⟨.functions, true⟩).outermost Accent.tree,
        (DefinitionRules.of .python ⟨.functions, true⟩).Plain located) ∧
      List.Forall₂
        (fun located chunk => ∃ run, located.DocRun Accent.source.toList .python run ∧
          chunk.DocumentedBy Accent.source.toList (.of .python ⟨.functions, true⟩) located run)
        ((DefinitionRules.of .python ⟨.functions, true⟩).outermost Accent.tree)
        ((ChunkedFile.of Accent.source "a.py" ⟨.functions, true⟩
          (.clean Accent.tree)).chunks.filter (·.granularity ≠ .residue)) := by
  have hPython : Language.python ≠ .rust := by decide
  obtain ⟨chunks, _, hFile, hDocumented⟩ := ofDefinitions_documented Accent.source "a.py" .python
    .functions Accent.tree Accent.wellFormed hPython Accent.plain
  rw [hFile (by decide) Accent.language]
  exact ⟨Accent.wellFormed, hPython, Accent.plain, hDocumented⟩

end Chunk

end SourceIndex
