import SourceIndex.Proofs.Chunk.CheckedDefinition
import SourceIndex.Proofs.Chunk.Outermost
import SourceIndex.Proofs.Pairing
import SourceIndex.Proofs.Text.Beginnings
import SourceIndex.Proofs.Text.Trimming
import SourceIndex.Proofs.Text.Words

/-!
# Signatures

A signature is the header of a definition on one line.  Whatever is done to the
header on the way, only blanks are taken from it or put into it, and at last the
marks that open a body are cut off its end; so without blanks it is the header
without blanks, up to such marks (`inked_header`).  A header is the beginning of
the definition, or of the declaration that binds it, and where there is a body
behind this beginning, it is all before the body.

Which of the two it is depends on the kind of a node alone.  No grammar has a
definition of the kind that declarators have, so a match is such a node exactly
when a declaration binds it (`DefinitionRules.kind_ne_declarator`).

## Main results

* `Naming.inked_header` — what a signature keeps of the header.
* `Naming.signature?_spaced` — a signature is one clean line.
* `Definition.signature_heads` — the signatures of the definitions of a tree.
-/

namespace SourceIndex

open Text (Spaced inked)

namespace Naming

variable {source : List Char} {definition : Located} {signature : List Char}

/-! ## What is kept of a header -/

/-- The header on one line without the marks at its end. -/
def headerLine (source : List Char) (definition : Located) : List Char :=
  Text.trimEnd (Text.trimEndWhere opensBody (Text.collapse (header source definition)))

/-- A signature is such a line, unless this is empty. -/
theorem signature?_eq_some_iff :
    signature? source definition = some signature ↔
      signature ≠ [] ∧ headerLine source definition = signature := by
  unfold signature? headerLine
  dsimp only
  split
  · next hEmpty =>
      rw [List.isEmpty_iff] at hEmpty
      rw [hEmpty]
      exact ⟨nofun, fun h => absurd h.2.symm h.1⟩
  · next hSome =>
      rw [List.isEmpty_iff] at hSome
      constructor
      · rintro ⟨⟩
        exact ⟨hSome, rfl⟩
      · rintro ⟨_, rfl⟩
        rfl

theorem headerLine_of_none (h : signature? source definition = none) :
    headerLine source definition = [] := by
  by_contra hSome
  rw [signature?_eq_some_iff.mpr ⟨hSome, rfl⟩] at h
  cases h

/-- **A line keeps the header up to the marks that open a body**, but for blanks. -/
theorem inked_header (source : List Char) (definition : Located) :
    ∃ marks, inked (header source definition) = inked (headerLine source definition) ++ marks ∧
      ∀ mark ∈ marks, opensBody mark = true := by
  obtain ⟨marks, hMarks, hOpen⟩ :=
    Text.exists_trimEndWhere_append opensBody (Text.collapse (header source definition))
  obtain ⟨blanks, hBlanks, hBlank⟩ := Text.exists_trimEndWhere_append Text.isBlank
    (Text.trimEndWhere opensBody (Text.collapse (header source definition)))
  refine ⟨inked marks, ?_, fun mark hMark => hOpen mark (List.mem_filter.mp hMark).1⟩
  calc
    inked (header source definition)
        = inked (Text.collapse (header source definition)) := (Text.inked_collapse _).symm
    _ = inked (headerLine source definition ++ blanks ++ marks) :=
        congrArg inked (hMarks.trans (congrArg (· ++ marks) hBlanks))
    _ = inked (headerLine source definition) ++ inked marks := by
        rw [Text.inked_append, Text.inked_append, Text.inked_eq_nil hBlank, List.append_nil]

/-- **A signature is one clean line.** -/
theorem signature?_spaced (h : signature? source definition = some signature) :
    signature ≠ [] ∧ Spaced signature := by
  obtain ⟨hSome, rfl⟩ := signature?_eq_some_iff.mp h
  refine ⟨hSome, ?_⟩
  obtain ⟨rest, hRest⟩ : headerLine source definition <+:
      Text.collapse (header source definition) :=
    (Text.trimEndWhere_begins _ _).trans (Text.trimEndWhere_begins _ _)
  have hSpaced := Text.spaced_collapse (header source definition)
  rw [← hRest] at hSpaced
  exact hSpaced.beginning (Text.getLast?_trimEndWhere Text.isBlank _)

/-- A definition without a signature has nothing in its header but marks that open
a body. -/
theorem marks_of_none (h : signature? source definition = none) :
    ∀ c ∈ inked (header source definition), opensBody c = true := by
  obtain ⟨marks, hMarks, hOpen⟩ := inked_header source definition
  rw [headerLine_of_none h] at hMarks
  rw [hMarks]
  exact hOpen

/-! ## Where a header stands -/

/-- A text that begins, without its blanks, like the source from an offset on, and
has nothing of a body behind this offset. -/
structure Heads (source : List Char) (start : Nat) (body : Option Node) (signature : List Char) :
    Prop where
  begins : inked signature <+: inked (Text.dropBytes start source)
  stops : ∀ node, body = some node → start < node.span.start →
    inked signature <+: inked (Text.slice source start node.span.start)

/-- A header is the beginning of what stands where it starts. -/
theorem header_begins (source : List Char) (definition : Located) :
    header source definition <+: Text.dropBytes (headerStart definition) source := by
  have hLine : Text.firstLine (Text.slice source (headerStart definition)
      definition.node.span.stop) <+: Text.dropBytes (headerStart definition) source :=
    (Text.firstLine_begins _).trans (Text.takeBytes_begins _ _)
  unfold header
  dsimp only
  split
  · split
    · exact Text.takeBytes_begins _ _
    · exact hLine
  · exact hLine

/-- In front of a body it is all that stands there. -/
theorem header_of_body {body : Node} (hBody : body? definition.node = some body)
    (hBefore : headerStart definition < body.span.start) :
    header source definition =
      Text.slice source (headerStart definition) body.span.start := by
  unfold header
  rw [hBody]
  exact if_pos hBefore

theorem heads_of_signature? (h : signature? source definition = some signature) :
    Heads source (headerStart definition) (body? definition.node) signature := by
  obtain ⟨_, rfl⟩ := signature?_eq_some_iff.mp h
  obtain ⟨marks, hMarks, _⟩ := inked_header source definition
  have hHeader : inked (headerLine source definition) <+: inked (header source definition) :=
    ⟨marks, hMarks.symm⟩
  refine ⟨hHeader.trans ((header_begins source definition).filter _), fun body hBody hBefore => ?_⟩
  rwa [header_of_body hBody hBefore] at hHeader

end Naming

/-! ## Definitions that a declaration binds -/

namespace DefinitionRules

variable {language : Language} {options : ChunkOptions} {found : Match}
  {located inner declaration : Located}

/-- No definition is of the kind of declarators, and no expression that is one. -/
theorem declarator_no_definition (language : Language) (strategy : Strategy) :
    "variable_declarator" ∉ language.definitionKinds strategy ∧
      "variable_declarator" ∉ language.valueKinds strategy := by
  cases language <;> cases strategy <;> decide

variable {rules : DefinitionRules}

/-- A declaration binds a declarator below it. -/
theorem bound?_eq_some (h : rules.bound? declaration = some inner) :
    inner.node.kind = "variable_declarator" ∧ inner.parent? = some declaration.node := by
  unfold bound? at h
  split at h
  · obtain ⟨child, _, rfl⟩ := List.mem_map.mp (List.mem_of_find?_eq_some h)
    have hFound := List.find?_some h
    rw [Bool.and_eq_true, beq_iff_eq] at hFound
    exact ⟨hFound.1, rfl⟩
  · cases h

/-- A definition by itself is of one of the kinds, or a declaration binds it. -/
theorem direct?_cases (h : rules.direct? located = some inner) :
    inner.node.kind ∈ rules.kinds ∨ rules.bound? located = some inner := by
  unfold direct? at h
  split at h
  · next hKind =>
      cases h
      exact .inl (by simpa using hKind)
  · exact .inr h

/-- A match is of one of the kinds of definitions, or a declaration binds it. -/
theorem definition?_origin (h : rules.definition? located = some inner) :
    inner.node.kind ∈ rules.kinds ∨ inner.node.kind ∈ rules.valueKinds ∨
      ∃ declaration, rules.bound? declaration = some inner := by
  have hDirect : ∀ {node : Located}, rules.direct? node = some inner →
      inner.node.kind ∈ rules.kinds ∨ inner.node.kind ∈ rules.valueKinds ∨
        ∃ declaration, rules.bound? declaration = some inner := by
    intro node hNode
    rcases direct?_cases hNode with hKind | hBound
    · exact .inl hKind
    · exact .inr (.inr ⟨node, hBound⟩)
  unfold definition? at h
  split at h
  · next hFound =>
      cases h
      exact hDirect hFound
  · split at h
    · split at h
      · next hWrapped =>
          cases h
          obtain ⟨child, _, hChild⟩ := List.exists_of_findSome?_eq_some hWrapped
          exact hDirect hChild
      · have hValue := (Option.filter_eq_some_iff.mp h).2
        exact .inr (.inl (by simpa using hValue))
    · cases h

/-- **A match that no declaration binds is no declarator.** -/
theorem kind_ne_declarator
    (h : (DefinitionRules.of language options).definition? located = some inner)
    (hFree : ∀ declaration, (DefinitionRules.of language options).bound? declaration ≠ some inner) :
    inner.node.kind ≠ "variable_declarator" := by
  obtain ⟨hKinds, hValues⟩ := declarator_no_definition language options.strategy
  intro hKind
  rcases definition?_origin h with hOwn | hValue | ⟨declaration, hBound⟩
  · exact hKinds (hKind ▸ hOwn)
  · exact hValues (hKind ▸ hValue)
  · exact hFree declaration hBound

/-- Where the header of a bound definition starts, and which body ends it. -/
theorem header_of_bound (h : rules.bound? declaration = some inner) :
    Naming.headerStart inner = declaration.node.span.start ∧
      Naming.body? inner.node = (inner.node.child? .value).bind (·.child? .body) := by
  obtain ⟨hKind, hParent⟩ := bound?_eq_some h
  constructor
  · rw [Naming.headerStart, if_pos hKind, hParent]
  · rw [Naming.body?, if_pos hKind]

theorem header_of_free (h : inner.node.kind ≠ "variable_declarator") :
    Naming.headerStart inner = inner.node.span.start ∧
      Naming.body? inner.node = inner.node.child? .body := by
  constructor
  · rw [Naming.headerStart, if_neg h]
  · rw [Naming.body?, if_neg h]

end DefinitionRules

/-! ## The definitions of a tree -/

namespace Definition

open Naming (Heads)

/-- What is true of the signature of a match: it is one clean line, made of what
the definition starts with or, where a declaration binds it, of what this does. -/
structure Signed (source : List Char) (rules : DefinitionRules) (found : Match)
    (signature : List Char) : Prop where
  filled : signature ≠ []
  spaced : Spaced signature
  own : (∀ declaration, rules.bound? declaration ≠ some found.inner) →
    Heads source found.inner.node.span.start (found.inner.node.child? .body) signature
  bound : ∀ declaration, rules.bound? declaration = some found.inner →
    Heads source declaration.node.span.start
      ((found.inner.node.child? .value).bind (·.child? .body)) signature

/--
**Signatures are one clean line of the header.**  In a well-formed tree no
signature takes a cut that the source does not have, and one is missing only where
the header has nothing but marks that open a body.  A signature is not empty, its
blanks are single spaces between other characters, and without them it is the
beginning of the definition without blanks, or of the declaration that binds it,
and has nothing of the body.
-/
theorem signature_heads (source : String) (language : Language) (options : ChunkOptions)
    (root : Node) (h : root.WellFormed source.toList) :
    ∀ found ∈ (DefinitionRules.of language options).matchesBelow [] root,
      Checked.signature source.toList found.inner =
          .ok (Naming.signature? source.toList found.inner) ∧
        ((ofMatch source.toList (DefinitionRules.of language options) found).signature = none →
          ∀ c ∈ inked (Naming.header source.toList found.inner), Naming.opensBody c = true) ∧
        ∀ signature,
          (ofMatch source.toList (DefinitionRules.of language options) found).signature =
              some signature →
            Signed source.toList (DefinitionRules.of language options) found signature.toList := by
  intro found hFound
  have hMatch := (DefinitionRules.of language options).matchesBelow_root_wellFormed h found hFound
  obtain ⟨located, _, hPlaced⟩ := Pairing.exists_right
    ((DefinitionRules.of language options).matchesBelow_placed root) hFound
  refine ⟨Checked.signature_eq hMatch.inner,
    fun hNone => Naming.marks_of_none (Option.map_eq_none_iff.mp hNone),
    fun signature hSignature => ?_⟩
  obtain ⟨line, hLine, rfl⟩ := Option.map_eq_some_iff.mp hSignature
  rw [String.toList_ofList]
  obtain ⟨hFilled, hSpaced⟩ := Naming.signature?_spaced hLine
  have hHeads := Naming.heads_of_signature? hLine
  refine { filled := hFilled, spaced := hSpaced, own := fun hFree => ?_, bound := ?_ }
  · obtain ⟨hStart, hBody⟩ := DefinitionRules.header_of_free
      (DefinitionRules.kind_ne_declarator hPlaced.inner hFree)
    rwa [hStart, hBody] at hHeads
  · intro declaration hBound
    obtain ⟨hStart, hBody⟩ := DefinitionRules.header_of_bound hBound
    rwa [hStart, hBody] at hHeads

/-! ### A function that is exported and bound, on two lines -/

namespace Arrow

def source : String := "export const f = (a,\n  b) => \x7b\n\x7d\n"

def body : Node :=
  { kind := "statement_block", named := true, span := ⟨29, 32⟩, roles := [.body], children := [] }

/-- The function and its name. -/
def declarator : Node :=
  { kind := "variable_declarator", named := true, span := ⟨13, 32⟩, roles := []
    children :=
      [{ kind := "identifier", named := true, span := ⟨13, 14⟩, roles := [.name], children := [] },
       { kind := "arrow_function", named := true, span := ⟨17, 32⟩, roles := [.value]
         children :=
           [{ kind := "formal_parameters", named := true, span := ⟨17, 25⟩, roles := []
              children := [] }, body] }] }

def declaration : Node :=
  { kind := "lexical_declaration", named := true, span := ⟨7, 32⟩, roles := []
    children := [declarator] }

def statement : Node :=
  { kind := "export_statement", named := true, span := ⟨0, 32⟩, roles := []
    children := [declaration] }

def tree : Node :=
  { kind := "program", named := true, span := ⟨0, 33⟩, roles := [], children := [statement] }

def found : Match :=
  { outer := statement, before := [], inner := ⟨declarator, [declaration, statement, tree]⟩ }

end Arrow

theorem signature_heads_arrow :
    Arrow.tree.WellFormed Arrow.source.toList ∧
      Arrow.found ∈ (DefinitionRules.of .javascript ⟨.functions, true⟩).matchesBelow [] Arrow.tree ∧
      (ofMatch Arrow.source.toList (DefinitionRules.of .javascript ⟨.functions, true⟩)
        Arrow.found).signature = some "const f = (a, b) =>" ∧
      Heads Arrow.source.toList Arrow.declaration.span.start (some Arrow.body)
        "const f = (a, b) =>".toList := by
  have h : Arrow.tree.WellFormed Arrow.source.toList := by decide
  have hFound : Arrow.found ∈
      (DefinitionRules.of .javascript ⟨.functions, true⟩).matchesBelow [] Arrow.tree :=
    List.mem_singleton.mpr rfl
  have hSignature : (ofMatch Arrow.source.toList
      (DefinitionRules.of .javascript ⟨.functions, true⟩) Arrow.found).signature =
        some "const f = (a, b) =>" := by rfl
  obtain ⟨_, _, hSigned⟩ := signature_heads Arrow.source .javascript ⟨.functions, true⟩ Arrow.tree h
    Arrow.found hFound
  exact ⟨h, hFound, hSignature, (hSigned _ hSignature).bound
    ⟨Arrow.declaration, [Arrow.statement, Arrow.tree]⟩ rfl⟩

end Definition

end SourceIndex
