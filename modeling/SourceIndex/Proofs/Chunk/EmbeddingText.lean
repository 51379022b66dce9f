import Mathlib.Data.List.Forall2
import SourceIndex.Chunk.EmbeddingText
import SourceIndex.Proofs.Text.Beginnings
import SourceIndex.Proofs.Text.Lines

/-!
# What is embedded of a chunk

An embedding text is a header and a beginning of the code.  The header is a text
of its own, made from what a chunk is (`Heading`) and from nothing that tells
where it lies or what it holds: groups of lines, one for the path, one for each
fact that is known, in a fixed order, and one line for each line of the
docstring.  A group is what is told after a mark; where the path, a name or a
signature has line feeds, so has its group.

## Main results

* `header_eq` — the header of a chunk is the text of its heading.
* `heading_then_code` — what is embedded is this text and the longest beginning
  of the code that fits.
-/

namespace SourceIndex.EmbeddingText

/-- What a header tells of a chunk. -/
structure Heading where
  filePath : String
  granularity : Granularity
  name : Option String
  parent : Option String
  signature : Option String
  language : Option Language
  docstring : Option String

namespace Heading

/-- The heading of a chunk. -/
def of (chunk : Chunk) : Heading :=
  { filePath := chunk.filePath
    granularity := chunk.granularity
    name := chunk.name
    parent := chunk.parent
    signature := chunk.signature
    language := chunk.language
    docstring := chunk.docstring }

/-- What is known of a definition and its file, each with its label. -/
def facts (heading : Heading) : List (String × String) :=
  heading.name.toList.map (heading.granularity.label, ·) ++
    heading.parent.toList.map ("In", ·) ++
    heading.signature.toList.map ("Signature", ·) ++
    heading.language.toList.map ("Language", ·.id)

/-- The lines of the docstring. -/
def docLines (heading : Heading) : List (List Char) :=
  Text.rows (heading.docstring.getD "").toList

/-- The lines of the docstring without their trailing blanks. -/
def notes (heading : Heading) : List String :=
  heading.docLines.map fun line => String.ofList (Text.trimEnd line)

/-- What is told, in order. -/
def groups (heading : Heading) : List String :=
  heading.filePath :: heading.facts.map (fun fact => fact.1 ++ ": " ++ fact.2) ++ heading.notes

/-- Each group behind a mark and with a line feed. -/
def text (heading : Heading) : String :=
  String.join (heading.groups.map fun group => "# " ++ group ++ "\n")

end Heading

/-! ## The text of a heading -/

theorem toList_group (group : String) :
    ("# " ++ group ++ "\n").toList = headerLine group.toList := by
  rw [String.toList_append, String.toList_append]
  rfl

theorem toList_text (heading : Heading) :
    heading.text.toList = heading.groups.flatMap fun group => headerLine group.toList := by
  rw [Heading.text, String.toList_join, List.flatMap_map]
  simp only [toList_group]

/-- The line of a fact is its group, if it is known. -/
theorem factLine_eq (label : String) (known : Option String) :
    factLine label known =
      known.toList.flatMap fun value => headerLine (label ++ ": " ++ value).toList := by
  cases known with
  | none => rfl
  | some value => simp [factLine, String.toList_append]

/-- The lines that are read of a docstring are its rows, without trailing blanks. -/
theorem docLines_eq (heading : Heading) :
    ((Text.lines (heading.docstring.getD "").toList).flatMap fun line =>
        headerLine (Text.trimEnd line)) =
      heading.notes.flatMap fun group => headerLine group.toList := by
  have hRows := congrArg (List.flatMap headerLine)
    (Text.map_trimEnd_lines (heading.docstring.getD "").toList)
  rw [List.flatMap_map, List.flatMap_map] at hRows
  rw [hRows, Heading.notes, Heading.docLines, List.flatMap_map]
  simp only [String.toList_ofList]

/-- **The header of a chunk is the text of its heading.** -/
theorem header_eq (chunk : Chunk) : header chunk = (Heading.of chunk).text.toList := by
  have hNotes := docLines_eq (Heading.of chunk)
  rw [toList_text, Heading.groups, List.cons_append, List.flatMap_cons, List.flatMap_append,
    ← hNotes]
  simp only [header, factLine_eq, Heading.facts, Heading.of, Option.toList_map, List.map_append,
    List.flatMap_append, List.flatMap_map, List.append_assoc]

/-- **What is embedded of a chunk** is its header and the longest beginning of its
code that has at most 65536 bytes and cuts no character: all of the code where it
fits, else more than 65532 bytes.  The header is the text of the heading, so all
chunks of one heading have the same, and its last lines are those of the
docstring without their trailing blanks. -/
theorem heading_then_code (chunk : Chunk) :
    (∃ kept : String,
      of chunk = (Heading.of chunk).text ++ kept ∧
        Text.Keeps 65536 chunk.text kept ∧
        (chunk.text.utf8ByteSize ≤ 65536 → kept = chunk.text) ∧
        (65536 < chunk.text.utf8ByteSize → 65532 < kept.utf8ByteSize)) ∧
      (∀ other, Heading.of other = Heading.of chunk → header other = header chunk) ∧
      List.Forall₂ (fun line note => Text.Bares line note.toList) (Heading.of chunk).docLines
        (Heading.of chunk).notes := by
  have hKeeps : Text.Keeps 65536 chunk.text
      (String.ofList (Text.takeBytes maxCodeBytes chunk.text.toList)) :=
    Text.keeps_takeBytes maxCodeBytes chunk.text
  refine ⟨⟨_, ?_, hKeeps, hKeeps.whole, fun hLonger => ?_⟩, fun other hSame => ?_, ?_⟩
  · rw [of, header_eq, String.ofList_append, String.ofList_toList]
  · have hNearly := hKeeps.nearly hLonger
    omega
  · rw [header_eq, header_eq, hSame]
  · rw [Heading.notes, List.forall₂_map_right_iff, List.forall₂_same]
    intro line _
    rw [String.toList_ofList]
    exact Text.bares_trimEnd line

/-! ### A method with a docstring of two lines -/

def greeting : Chunk :=
  { id := "0"
    filePath := "src/lib.rs"
    range := ⟨4, 21⟩
    spans := [⟨4, 21⟩]
    lines := ⟨2, 2⟩
    granularity := .function
    name := some "hello"
    signature := none
    parent := some "Greeter"
    text := "fn hello() \x7b 42 \x7d"
    docstring := some "Says hello. \r\nOnce.\n"
    language := some .rust }

/-- The same method elsewhere, with other code. -/
def rewritten : Chunk :=
  { greeting with range := ⟨9, 30⟩, lines := ⟨3, 5⟩, text := "fn hello() \x7b\n  43\n\x7d" }

theorem heading_then_code_greeting :
    of greeting = String.join ["# src/lib.rs\n", "# Function: hello\n", "# In: Greeter\n",
        "# Language: rust\n", "# Says hello.\n", "# Once.\n", "fn hello() \x7b 42 \x7d"] ∧
      header rewritten = header greeting := by
  obtain ⟨⟨kept, hText, _, hWhole, _⟩, hSame, _⟩ := heading_then_code greeting
  refine ⟨?_, hSame rewritten rfl⟩
  rw [hText, hWhole (by decide)]
  decide

end SourceIndex.EmbeddingText
