import Mathlib.Data.String.Basic
import SourceIndex.Proofs.Text.Boundaries
import SourceIndex.Proofs.Text.Trimming
import SourceIndex.Text.Lines

/-!
# Beginnings of texts

What is kept of a text when it is cut to a number of bytes, to its first line, or
at its last characters of some sort is a beginning of it.  A cut to a number of
bytes is the longest one: `Keeps` says so in terms of strings, their sizes in
bytes and the positions in them that are valid, and knows nothing of how the cut
is found.

## Main results

* `firstLine_begins`, `trimEndWhere_begins` — what is kept is a beginning.
* `keeps_takeBytes` — the longest beginning of some size.
* `Keeps.whole`, `Keeps.nearly` — how long it is.
-/

namespace SourceIndex.Text

variable {text front : List Char} {limit : Nat}

/-! ## Cuts that leave a beginning -/

theorem takeBytes_begins (limit : Nat) (text : List Char) : takeBytes limit text <+: text :=
  ⟨dropBytes limit text, takeBytes_append_dropBytes limit text⟩

theorem firstLine_begins (text : List Char) : firstLine text <+: text := by
  rw [firstLine]
  fun_induction splitLine text with
  | case1 => exact List.prefix_refl _
  | case2 rest => exact List.nil_prefix
  | case3 rest => exact List.nil_prefix
  | case4 c rest _ _ line after hRest ih =>
      rw [hRest] at ih
      exact List.cons_prefix_cons.mpr ⟨rfl, ih⟩

theorem trimEndWhere_begins (p : Char → Bool) (text : List Char) :
    trimEndWhere p text <+: text := by
  obtain ⟨after, hText, _⟩ := exists_trimEndWhere_append p text
  exact ⟨after, hText.symm⟩

/-! ## Sizes of beginnings -/

theorem byteLength_takeBytes_le (limit : Nat) (text : List Char) :
    byteLength (takeBytes limit text) ≤ limit := by
  fun_induction takeBytes limit text with
  | case1 => exact Nat.zero_le _
  | case2 limit c rest hFits ih =>
      rw [byteLength_cons]
      omega
  | case3 => exact Nat.zero_le _

/-- A beginning that fits is no longer than the one that is kept. -/
theorem byteLength_le_takeBytes (hFront : front <+: text) (hFits : byteLength front ≤ limit) :
    byteLength front ≤ byteLength (takeBytes limit text) := by
  induction front generalizing limit text with
  | nil => exact Nat.zero_le _
  | cons c front ih =>
      obtain ⟨back, rfl⟩ := hFront
      rw [byteLength_cons] at hFits
      have hRest : byteLength front ≤ byteLength (takeBytes (limit - c.utf8Size) (front ++ back)) :=
        ih (List.prefix_append front back) (by omega)
      rw [List.cons_append, takeBytes, if_pos (by omega), byteLength_cons, byteLength_cons]
      omega

/-! ## Strings -/

theorem utf8ByteSize_ofList (text : List Char) :
    (String.ofList text).utf8ByteSize = byteLength text := by
  rw [String.utf8ByteSize_ofList]
  induction text with
  | nil => rfl
  | cons c rest ih => rw [String.utf8Len_cons, ih, byteLength_cons, Nat.add_comm]

/-- The longest beginning of a text that has at most so many bytes and cuts no
character. -/
structure Keeps (limit : Nat) (text kept : String) : Prop where
  begins : ∃ rest, text = kept ++ rest
  fits : kept.utf8ByteSize ≤ limit
  longest : ∀ cut : String.Pos.Raw, cut.IsValid text → cut.byteIdx ≤ limit →
    cut.byteIdx ≤ kept.utf8ByteSize

/-- **Cutting a text to a number of bytes keeps the longest beginning.** -/
theorem keeps_takeBytes (limit : Nat) (text : String) :
    Keeps limit text (String.ofList (takeBytes limit text.toList)) := by
  refine ⟨⟨String.ofList (dropBytes limit text.toList), ?_⟩, ?_, ?_⟩
  · rw [← String.ofList_append, takeBytes_append_dropBytes, String.ofList_toList]
  · rw [utf8ByteSize_ofList]
    exact byteLength_takeBytes_le limit text.toList
  · intro cut hValid hLimit
    obtain ⟨front, back, rfl, rfl⟩ := String.Pos.Raw.isValid_iff_exists_append.mp hValid
    have hSize : front.utf8ByteSize = byteLength front.toList := by
      rw [← utf8ByteSize_ofList, String.ofList_toList]
    rw [String.byteIdx_rawEndPos, hSize] at hLimit ⊢
    rw [utf8ByteSize_ofList]
    refine byteLength_le_takeBytes ?_ hLimit
    rw [String.toList_append]
    exact List.prefix_append _ _

variable {text kept : String}

/-- All of a text that fits is kept. -/
theorem Keeps.whole (h : Keeps limit text kept) (hFits : text.utf8ByteSize ≤ limit) :
    kept = text := by
  obtain ⟨rest, rfl⟩ := h.begins
  have hEnd := h.longest (kept ++ rest).rawEndPos
    (String.Pos.Raw.isValid_iff_exists_append.mpr ⟨kept ++ rest, "", by simp, rfl⟩) hFits
  rw [String.byteIdx_rawEndPos, String.utf8ByteSize_append] at hEnd
  have hNone : rest = "" := String.utf8ByteSize_eq_zero_iff.mp (by omega)
  rw [hNone, String.append_empty]

/-- Of a text that does not fit, less than a character is missing to the limit. -/
theorem Keeps.nearly (h : Keeps limit text kept) (hLonger : limit < text.utf8ByteSize) :
    limit < kept.utf8ByteSize + 4 := by
  obtain ⟨rest, rfl⟩ := h.begins
  have hFits := h.fits
  rcases hRest : rest.toList with _ | ⟨c, after⟩
  · have hNone : rest.utf8ByteSize = 0 := by
      rw [← String.ofList_toList (s := rest), hRest]
      rfl
    rw [String.utf8ByteSize_append] at hLonger
    omega
  · -- The next character would have been kept with the others.
    have hNext : kept ++ rest = (kept ++ String.ofList [c]) ++ String.ofList after := by
      rw [String.append_assoc, ← String.ofList_append, List.singleton_append, ← hRest,
        String.ofList_toList]
    have hSize : (kept ++ String.ofList [c]).utf8ByteSize = kept.utf8ByteSize + c.utf8Size := by
      rw [String.utf8ByteSize_append, utf8ByteSize_ofList, byteLength_cons, byteLength_nil,
        Nat.add_zero]
    have hEnd := h.longest (kept ++ String.ofList [c]).rawEndPos
      (String.Pos.Raw.isValid_iff_exists_append.mpr ⟨_, _, hNext, rfl⟩)
    rw [String.byteIdx_rawEndPos, hSize] at hEnd
    have hPos := c.utf8Size_pos
    have hFour := c.utf8Size_le_four
    by_contra hFar
    have hKept := hEnd (by omega)
    omega

end SourceIndex.Text
