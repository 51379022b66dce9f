import SourceIndex.Proofs.Chunk.Matches

/-!
# Definitions with checked cuts

The functions that read a definition off the source, with every cut of the
source checked: each stands for the one of the same name in `Naming`,
`Docstring` or `Definition` and cuts at the same offsets, but a cut that is
inverted, outside of the source or inside a character stops it with that cut.

In a well-formed tree none of them is stopped, and what they return is what
the unchecked functions return.  The cuts of a name, a receiver or a literal
are spans of nodes below the definition; those of a header run from the start
of the definition, or of the declaration around it, to the body or the end;
those in front of the definition lie between siblings in their order.

## Main results

* `Checked.name_eq`, `Checked.parent_eq`, `Checked.signature_eq` — names.
* `Checked.docstring_eq` — docstrings.
* `Checked.attach_eq` — comments and attributes.
* `Checked.definition_eq` — the whole definition of a match.
-/

namespace SourceIndex

open Text (BadCut checkedSlice IsBoundary)

namespace Checked

variable (source : List Char)

/-- The source text of a node. -/
def text (node : Node) : Except BadCut (List Char) :=
  checkedSlice source node.span.start node.span.stop

/-! ## Definitions -/

mutual

/-- The name of a definition. -/
def name : Node → Except BadCut (Option (List Char))
  | ⟨kind, named, span, roles, children⟩ =>
    let node : Node := ⟨kind, named, span, roles, children⟩
    if kind = "impl_item" then
      match node.child? .type with
      | some type => some <$> text source type
      | none => pure none
    else if node.kindEndsWith "identifier" then some <$> text source node
    else match node.child? .name with
      | some name => some <$> text source name
      | none =>
        if (node.child? .declarator).isSome then declaratorName children
        else specificationName children

/-- The name of the first declarator among some children. -/
def declaratorName : List Node → Except BadCut (Option (List Char))
  | [] => pure none
  | child :: rest =>
    if child.roles.contains .declarator then name child else declaratorName rest

/-- The name of the first specification, among some children, that has one. -/
def specificationName : List Node → Except BadCut (Option (List Char))
  | [] => pure none
  | child :: rest => do
    let found ← if child.named && child.kindEndsWith "_spec" then name child else pure none
    if found.isSome then return found else specificationName rest

end

/-- The name of the nearest container among the ancestors of a definition. -/
def container (language : Language) : List Node → Except BadCut (Option (List Char))
  | [] => pure none
  | node :: above =>
    if Naming.isContainer language node.kind then do
      let found ← name source node
      if found.isSome then return found
      match above.head? with
      | some binding =>
        if binding.kind = "variable_declarator" then name source binding else return none
      | none => return none
    else container language above

/-- The type of a Go method's receiver. -/
def receiverType (method : Node) : Except BadCut (Option (List Char)) :=
  match (method.child? .receiver).bind fun receiver =>
    receiver.namedChildren.head?.bind (·.child? .type) with
  | some type => (some <| ·.dropWhile (· == '*')) <$> text source type
  | none => pure none

/-- The name of what a definition belongs to. -/
def parent (language : Language) (definition : Located) : Except BadCut (Option (List Char)) :=
  if language = .go ∧ definition.node.kind = "method_declaration" then
    receiverType source definition.node
  else container source language definition.ancestors

/-- The header of a definition. -/
def header (definition : Located) : Except BadCut (List Char) :=
  let start := Naming.headerStart definition
  let wholeLine := Text.firstLine <$> checkedSlice source start definition.node.span.stop
  match Naming.body? definition.node with
  | some body =>
    if start < body.span.start then checkedSlice source start body.span.start else wholeLine
  | none => wholeLine

/-- The header on one line. -/
def signature (definition : Located) : Except BadCut (Option (List Char)) := do
  let found ← header source definition
  let line := Text.trimEnd (Text.trimEndWhere Naming.opensBody (Text.collapse found))
  return if line.isEmpty then none else some line

/-- The string literal that opens a definition's body. -/
def openingLiteral? (definition : Node) : Option Node := do
  let body ← definition.child? .body
  let first ← body.namedChildren.head?
  if first.kind ≠ "expression_statement" then none
  else
    let literal ← first.namedChildren.head?
    if literal.kind ≠ "string" then none else some literal

/-- The docstring of a definition with the given comments in front of it. -/
def docstring (language : Language) (definition : Node) (comments : List (List Char)) :
    Except BadCut (Option String) := do
  let opening ←
    if language = .python then
      match openingLiteral? definition with
      | some literal =>
        (fun found => Docstring.nonEmpty? (Docstring.literalContents found)) <$>
          text source literal
      | none => pure none
    else pure none
  return opening <|> Docstring.ofComments comments

/-- Whether a comment belongs to what starts at `next`. -/
def isAdjacent (comment : Node) (next : Nat) : Except BadCut Bool := do
  let gap ← checkedSlice source comment.span.stop next
  if !Text.allBlank gap then return false
  let written ← text source comment
  let ownFeed := if written.getLast? = some '\n' then 1 else 0
  let before ← checkedSlice source 0 comment.span.start
  let line := before.reverse.takeWhile (· != '\n')
  let lead ← checkedSlice source (comment.span.start - Text.byteLength line) comment.span.start
  return Text.lineFeeds gap + ownFeed ≤ 1 && Text.allBlank lead

/-- Where a definition starts with its attributes and comments, and the
texts of the comments. -/
def attach (rules : DefinitionRules) (start : Nat) :
    List Node → Except BadCut (Nat × List (List Char))
  | [] => pure (start, [])
  | node :: before =>
    if rules.language.attributeKinds.contains node.kind then do
      let gap ← checkedSlice source node.span.stop start
      if Text.allBlank gap then attach rules node.span.start before else return (start, [])
    else if rules.docstrings && rules.language.commentKinds.contains node.kind then do
      let adjacent ← isAdjacent source node start
      if adjacent then
        let comment ← text source node
        let (first, comments) ← attach rules node.span.start before
        return (first, comments ++ [comment])
      else return (start, [])
    else pure (start, [])

/-- The definition of a match. -/
def definition (rules : DefinitionRules) (found : Match) : Except BadCut Definition := do
  let (start, comments) ← attach source rules found.outer.span.start found.before
  let docstring ←
    if rules.docstrings then docstring source rules.language found.inner.node comments
    else pure none
  let ownName ← name source found.inner.node
  let name :=
    ownName <|> if Definition.isDefaultExport found.outer then some "default".toList else none
  let signature ← signature source found.inner
  let parent ← parent source rules.language found.inner
  return {
    span := ⟨start, found.outer.span.stop⟩
    name := name.map String.ofList, signature := signature.map String.ofList
    parent := parent.map String.ofList, docstring }

/-! ## Names -/

variable {source}

theorem text_eq {node : Node} (h : node.WellFormed source) :
    text source node = pure (node.text source) :=
  h.fits.checkedSlice

private theorem text_child?_eq {node found : Node} {role : Role} (h : node.WellFormed source)
    (hFound : node.child? role = some found) : text source found = pure (found.text source) :=
  text_eq (h.of_mem_children (Node.mem_children_of_child? hFound)).1

private theorem declaratorName_eq {children : List Node}
    (h : ∀ child ∈ children, name source child = pure (Naming.name? source child)) :
    declaratorName source children = pure (Naming.declaratorName? source children) := by
  induction children with
  | nil => rfl
  | cons child rest ih =>
      rw [declaratorName, Naming.declaratorName?]
      split
      · exact h child List.mem_cons_self
      · exact ih fun other hOther => h other (List.mem_cons_of_mem child hOther)

private theorem specificationName_eq {children : List Node}
    (h : ∀ child ∈ children, name source child = pure (Naming.name? source child)) :
    specificationName source children = pure (Naming.specificationName? source children) := by
  induction children with
  | nil => rfl
  | cons child rest ih =>
      have hRest := ih fun other hOther => h other (List.mem_cons_of_mem child hOther)
      rw [specificationName, Naming.specificationName?, hRest]
      by_cases hSpec : (child.named && child.kindEndsWith "_spec") = true
      · rw [if_pos hSpec, if_pos hSpec, h child List.mem_cons_self, pure_bind]
        cases Naming.name? source child <;> rfl
      · rw [if_neg hSpec, if_neg hSpec, pure_bind]
        rfl

/-- The name of a well-formed node takes no bad cut. -/
theorem name_eq (node : Node) :
    node.WellFormed source → name source node = pure (Naming.name? source node) := by
  induction node using Node.childInduction with
  | step node ih =>
      intro h
      have hChildren : ∀ child ∈ node.children,
          name source child = pure (Naming.name? source child) := fun child hChild =>
        ih child hChild (h.of_mem_children hChild).1
      obtain ⟨kind, named, span, roles, children⟩ := node
      rw [name, Naming.name?]
      split
      · cases hType : Node.child? ⟨kind, named, span, roles, children⟩ .type with
        | none => rfl
        | some type => simp only [text_child?_eq h hType, map_pure, Option.map_some]
      · split
        · rw [text_eq h, map_pure]
        · cases hName : Node.child? ⟨kind, named, span, roles, children⟩ .name with
          | some found => simp only [text_child?_eq h hName, map_pure]
          | none =>
              simp only
              split
              · exact declaratorName_eq hChildren
              · exact specificationName_eq hChildren

theorem container_eq {language : Language} {ancestors : List Node}
    (h : ∀ ancestor ∈ ancestors, ancestor.WellFormed source) :
    container source language ancestors = pure (Naming.container? source language ancestors) := by
  induction ancestors with
  | nil => rfl
  | cons node above ih =>
      have hAbove : ∀ ancestor ∈ above, ancestor.WellFormed source := fun ancestor hMem =>
        h ancestor (List.mem_cons_of_mem node hMem)
      rw [container, Naming.container?]
      split
      · rw [name_eq node (h node List.mem_cons_self), pure_bind]
        cases Naming.name? source node with
        | some found => rfl
        | none =>
            cases above with
            | nil => rfl
            | cons binding above =>
                simp only [Option.isSome_none, Bool.false_eq_true, if_false, List.head?_cons,
                  Option.bind_some]
                split
                · rw [name_eq binding (hAbove binding List.mem_cons_self)]
                  rfl
                · rfl
      · exact ih hAbove

theorem receiverType_eq {method : Node} (h : method.WellFormed source) :
    receiverType source method = pure (Naming.receiverType? source method) := by
  unfold receiverType Naming.receiverType?
  cases hReceiver : method.child? .receiver with
  | none => rfl
  | some receiver =>
      cases hParameter : receiver.namedChildren.head? with
      | none => simp [hParameter]
      | some parameter =>
          cases hType : parameter.child? .type with
          | none => simp [hParameter, hType]
          | some type =>
              have hReceiverFits := h.of_mem_children (Node.mem_children_of_child? hReceiver)
              have hParameterFits := hReceiverFits.1.of_mem_children
                (Node.mem_children_of_namedChildren (List.mem_of_head? hParameter))
              simp [hParameter, hType, text_child?_eq hParameterFits.1 hType]

theorem parent_eq {language : Language} {definition : Located}
    (h : definition.WellFormed source) :
    parent source language definition = pure (Naming.parent? source language definition) := by
  unfold parent Naming.parent?
  split
  · exact receiverType_eq h.node
  · exact container_eq h.ancestors

/-! ## Signatures -/

/-- A header starts at a boundary, no later than its definition. -/
theorem headerStart_fits {definition : Located} (h : definition.WellFormed source) :
    IsBoundary source (Naming.headerStart definition) ∧
      Naming.headerStart definition ≤ definition.node.span.start := by
  have hOwn := h.node.fits.start
  unfold Naming.headerStart
  split
  · cases hParent : definition.parent? with
    | none => exact ⟨hOwn, Nat.le_refl _⟩
    | some declaration =>
        have hMem : declaration ∈ definition.ancestors := List.mem_of_head? hParent
        exact ⟨(h.ancestors declaration hMem).fits.start, (h.inside declaration hParent).start⟩
  · exact ⟨hOwn, Nat.le_refl _⟩

theorem body?_wellFormed {definition body : Node} (h : definition.WellFormed source)
    (hBody : Naming.body? definition = some body) : body.WellFormed source := by
  unfold Naming.body? at hBody
  split at hBody
  · obtain ⟨value, hValue, hFound⟩ := Option.bind_eq_some_iff.mp hBody
    have hValueFits := h.of_mem_children (Node.mem_children_of_child? hValue)
    exact (hValueFits.1.of_mem_children (Node.mem_children_of_child? hFound)).1
  · exact (h.of_mem_children (Node.mem_children_of_child? hBody)).1

theorem header_eq {definition : Located} (h : definition.WellFormed source) :
    header source definition = pure (Naming.header source definition) := by
  obtain ⟨hStart, hLe⟩ := headerStart_fits h
  have hFits := h.node.fits
  have hOrder := hFits.ordered
  have hLine := Text.checkedSlice_eq hStart hFits.stop (by omega)
  unfold header Naming.header
  simp only [hLine, map_pure]
  cases hBody : Naming.body? definition.node with
  | none => rfl
  | some body =>
      simp only
      split
      · next hBefore =>
          have hBodyStart := (body?_wellFormed h.node hBody).fits.start
          exact Text.checkedSlice_eq hStart hBodyStart (by omega)
      · rfl

theorem signature_eq {definition : Located} (h : definition.WellFormed source) :
    signature source definition = pure (Naming.signature? source definition) := by
  unfold signature Naming.signature?
  rw [header_eq h, pure_bind]

/-! ## Docstrings -/

theorem openingLiteral?_wellFormed {definition literal : Node}
    (h : definition.WellFormed source) (hFound : openingLiteral? definition = some literal) :
    literal.WellFormed source := by
  unfold openingLiteral? at hFound
  obtain ⟨body, hBody, hFound⟩ := Option.bind_eq_some_iff.mp hFound
  obtain ⟨first, hFirst, hFound⟩ := Option.bind_eq_some_iff.mp hFound
  split at hFound
  · cases hFound
  · obtain ⟨opening, hOpening, hFound⟩ := Option.bind_eq_some_iff.mp hFound
    split at hFound
    · cases hFound
    · cases hFound
      have hBodyFits := h.of_mem_children (Node.mem_children_of_child? hBody)
      have hFirstFits := hBodyFits.1.of_mem_children
        (Node.mem_children_of_namedChildren (List.mem_of_head? hFirst))
      exact (hFirstFits.1.of_mem_children
        (Node.mem_children_of_namedChildren (List.mem_of_head? hOpening))).1

/-- The string that opens a body, by way of its literal. -/
theorem ofBody?_eq (definition : Node) :
    Docstring.ofBody? source definition = (openingLiteral? definition).bind fun literal =>
      Docstring.nonEmpty? (Docstring.literalContents (literal.text source)) := by
  unfold Docstring.ofBody? openingLiteral?
  simp only [bind, Option.bind_assoc]
  congr 1
  funext body
  congr 1
  funext first
  split
  · rfl
  · rw [Option.bind_assoc]
    congr 1
    funext literal
    split <;> rfl

theorem docstring_eq {language : Language} {definition : Node} {comments : List (List Char)}
    (h : definition.WellFormed source) :
    docstring source language definition comments =
      pure (Docstring.of? source language definition comments) := by
  unfold docstring Docstring.of?
  split
  · rw [ofBody?_eq]
    cases hLiteral : openingLiteral? definition with
    | none => rfl
    | some literal =>
        simp only [text_eq (openingLiteral?_wellFormed h hLiteral), map_pure, pure_bind,
          Option.bind_some]
  · rw [pure_bind]

/-! ## Comments and attributes -/

/-- The end of a text from its last line feed on is a slice of the text. -/
theorem slice_lastLine {offset : Nat} (hOffset : IsBoundary source offset) :
    IsBoundary source (offset - Text.byteLength
        ((Text.takeBytes offset source).reverse.takeWhile (· != '\n'))) ∧
      Text.slice source (offset - Text.byteLength
        ((Text.takeBytes offset source).reverse.takeWhile (· != '\n'))) offset =
        ((Text.takeBytes offset source).reverse.takeWhile (· != '\n')).reverse := by
  obtain ⟨front, back, rfl, rfl⟩ := Text.isBoundary_iff.mp hOffset
  rw [Text.takeBytes_byteLength_append]
  generalize hLine : front.reverse.takeWhile (· != '\n') = line
  have hSplit : front = (front.reverse.dropWhile (· != '\n')).reverse ++ line.reverse := by
    rw [← List.reverse_append, ← hLine, List.takeWhile_append_dropWhile, List.reverse_reverse]
  generalize (front.reverse.dropWhile (· != '\n')).reverse = lines at hSplit
  have hLength : Text.byteLength front - Text.byteLength line = Text.byteLength lines := by
    rw [hSplit, Text.byteLength_append, Text.byteLength_reverse]
    omega
  rw [hLength, hSplit]
  constructor
  · exact Text.isBoundary_iff.mpr ⟨lines, line.reverse ++ back, List.append_assoc .., rfl⟩
  · rw [Text.byteLength_append, Text.slice_middle]

theorem isAdjacent_eq {comment : Node} {next : Nat} (h : comment.WellFormed source)
    (hNext : IsBoundary source next) (hLe : comment.span.stop ≤ next) :
    isAdjacent source comment next = pure (Definition.isAdjacent source comment next) := by
  have hFits := h.fits
  obtain ⟨hLineStart, hLine⟩ := slice_lastLine hFits.start
  have hBefore := Text.checkedSlice_eq (Text.isBoundary_zero source) hFits.start (Nat.zero_le _)
  have hLead := Text.checkedSlice_eq hLineStart hFits.start (Nat.sub_le _ _)
  unfold isAdjacent Definition.isAdjacent
  simp only [Text.checkedSlice_eq hFits.stop hNext hLe, text_eq h, hBefore, pure_bind,
    Text.slice_zero, hLead, hLine]
  cases hGap : Text.allBlank (Text.slice source comment.span.stop next) with
  | false => rfl
  | true =>
      simp only [Bool.not_true, Bool.false_eq_true, if_false, Bool.true_and]
      rw [Text.allBlank_reverse]

/-- **Attaching takes no bad cut**: all cuts in front of a definition lie
between siblings in their order. -/
theorem attach_eq {rules : DefinitionRules} {before : List Node} :
    ∀ {start : Nat}, IsBoundary source start → Node.Preceding source start before →
      attach source rules start before = pure (Definition.attach source rules start before) := by
  induction before with
  | nil =>
      intro start _ _
      rfl
  | cons node before ih =>
      intro start hStart hBefore
      obtain ⟨hNode, hStop, hPreceding⟩ := hBefore
      have hRest := ih hNode.fits.start hPreceding
      have hGap := Text.checkedSlice_eq hNode.fits.stop hStart hStop
      rw [attach, Definition.attach]
      split
      · rw [hGap, pure_bind]
        split
        · exact hRest
        · rfl
      · by_cases hComment :
          (rules.docstrings && rules.language.commentKinds.contains node.kind) = true
        · rw [if_pos hComment, isAdjacent_eq hNode hStart hStop, pure_bind]
          cases hAdjacent : Definition.isAdjacent source node start with
          | true => simp only [hComment, text_eq hNode, hRest, pure_bind, Bool.and_true, if_true]
          | false => simp only [Bool.and_false, Bool.false_eq_true, if_false]
        · simp only [Bool.not_eq_true] at hComment
          simp only [hComment, Bool.false_and, Bool.false_eq_true, if_false]

/-! ## Whole definitions -/

/-- **The definition of a well-formed match takes no bad cut.** -/
theorem definition_eq {rules : DefinitionRules} {found : Match} (h : found.WellFormed source) :
    definition source rules found = pure (Definition.ofMatch source rules found) := by
  unfold definition Definition.ofMatch Definition.nameOf
  rw [attach_eq h.outer.fits.start h.before, pure_bind, name_eq _ h.inner.node,
    signature_eq h.inner, parent_eq h.inner]
  cases hDocstrings : rules.docstrings with
  | true => simp only [if_true, docstring_eq h.inner.node, pure_bind]
  | false => simp only [Bool.false_eq_true, if_false, pure_bind]

end Checked

end SourceIndex
