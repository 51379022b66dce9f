import SourceIndex.Proofs.Url.Percent
import SourceIndex.Proofs.Url.Reading

/-!
# The end of a URL

A text that is put at the end of a URL goes through all rules of reading: its
blanks and line breaks may be dropped, a number sign starts the fragment, a
question mark the query, a backslash counts as a slash, and segments of dots
are resolved.  A text that has none of these, question marks apart, and no
escapes is *kept*: the URL that is asked ends in it, encoded.  So two URLs that
start alike and differ in such an ending are written differently.

## Main results

* `writeEnding_inj` — how a kept ending is written tells it.
* `written_ending` — the URL that is asked ends in a kept ending.
-/

namespace SourceIndex.Url

open Text

/-! ## Writing endings -/

/-- Segments are written as the text that they are cut from, when only slashes
cut it. -/
theorem writeSegments_splitWhere {text : List Char} (h : '\\' ∉ text) :
    writeSegments ((splitWhere isSlash text).map (Percent.encode Percent.path)) =
      '/' :: Percent.encode Percent.path text := by
  induction text with
  | nil => rfl
  | cons c rest ih =>
      rw [List.mem_cons, not_or] at h
      have hRest := ih h.2
      by_cases hSlash : isSlash c = true
      · obtain rfl : c = '/' := by
          rw [isSlash, Bool.or_eq_true, beq_iff_eq, beq_iff_eq] at hSlash
          exact hSlash.resolve_right (Ne.symm h.1)
        rw [splitWhere_cons_of_pos hSlash, List.map_cons, Percent.encode_cons]
        exact congrArg ('/' :: ·) hRest
      · obtain ⟨piece, others, hPieces⟩ := exists_splitWhere_eq_cons isSlash rest
        rw [hPieces, List.map_cons, writeSegments, List.flatMap_cons, List.cons_append,
          List.cons.injEq] at hRest
        rw [splitWhere_cons_of_neg hSlash hPieces, List.map_cons, writeSegments,
          List.flatMap_cons, Percent.encode_cons, Percent.encode_cons, List.cons_append,
          List.append_assoc, hRest.2]

/-- How an ending is written: in the query that has started before it, or as
the end of the path, perhaps with a query. -/
def writeEnding (inQuery : Bool) (ending : List Char) : List Char :=
  if inQuery then Percent.encode Percent.specialQuery ending
  else
    Percent.encode Percent.path (splitPart '?' ending).1 ++
      writePart '?' ((splitPart '?' ending).2.map (Percent.encode Percent.specialQuery))

/-- An ending of a URL that is kept as it is, up to encoding. -/
structure Kept (ending : List Char) : Prop where
  visible : ∀ c ∈ ending, 0x20 ≤ c.toNat
  noNumberSign : '#' ∉ ending
  noBackslash : '\\' ∉ ending
  /-- No percent sign stands before two digits. -/
  plain : Percent.Plain ending
  /-- No segment of the path consists of dots. -/
  names : ∀ segment ∈ splitWhere isSlash (splitPart '?' ending).1, IsName segment

instance (ending : List Char) : Decidable (Kept ending) :=
  decidable_of_iff
    ((ending.all fun c => 0x20 ≤ c.toNat) = true ∧ '#' ∉ ending ∧ '\\' ∉ ending ∧ Percent.Plain ending ∧
      ∀ segment ∈ splitWhere isSlash (splitPart '?' ending).1, IsName segment)
    ⟨fun ⟨hVisible, hNumberSign, hBackslash, hPlain, hNames⟩ =>
        ⟨by simpa using hVisible, hNumberSign, hBackslash, hPlain, hNames⟩,
      fun ⟨hVisible, hNumberSign, hBackslash, hPlain, hNames⟩ =>
        ⟨by simpa using hVisible, hNumberSign, hBackslash, hPlain, hNames⟩⟩

/-- What stands before the query of a kept ending, and this query. -/
theorem Kept.parts {ending : List Char} (h : Kept ending) :
    Percent.Plain (splitPart '?' ending).1 ∧ '\\' ∉ (splitPart '?' ending).1 ∧
      ∀ part ∈ (splitPart '?' ending).2, Percent.Plain part := by
  have hPlain := h.plain
  have hBackslash := h.noBackslash
  rw [← writePart_splitPart '?' ending] at hPlain hBackslash
  refine ⟨hPlain.of_append.1, fun hMem => hBackslash (List.mem_append_left _ hMem), ?_⟩
  intro part hPart
  have hQuery := hPlain.of_append.2
  rw [Option.mem_def.mp hPart] at hQuery
  exact (Percent.plain_cons.mp hQuery).2

/-- **A kept ending is told by how it is written.** -/
theorem writeEnding_inj {inQuery : Bool} {ending other : List Char} (hEnding : Kept ending)
    (hOther : Kept other) (h : writeEnding inQuery ending = writeEnding inQuery other) :
    ending = other := by
  cases inQuery with
  | true => exact Percent.encode_inj hEnding.plain hOther.plain h
  | false =>
      have hQuestion : ∀ text, '?' ∉ Percent.encode Percent.path text :=
        Percent.not_mem_encode (by decide) (by decide) (by decide)
      have hParts := congrArg (splitPart '?') h
      simp only [writeEnding, Bool.false_eq_true, if_false,
        splitPart_writePart (hQuestion _)] at hParts
      obtain ⟨hPath, hQuery⟩ := Prod.mk.inj hParts
      obtain ⟨hFirst, _, hFirstQuery⟩ := hEnding.parts
      obtain ⟨hSecond, _, hSecondQuery⟩ := hOther.parts
      have hSame : splitPart '?' ending = splitPart '?' other :=
        Prod.ext (Percent.encode_inj hFirst hSecond hPath)
          (Percent.map_encode_inj hFirstQuery hSecondQuery hQuery)
      exact splitPart_inj hSame

/-- The user of a URL is taken from it whatever stands behind the host. -/
theorem withoutUser_with (url : Url) (path : Path) (query fragment : Option (List Char)) :
    ({ url with path, query, fragment } : Url).withoutUser =
      { url.withoutUser with path, query, fragment } := by
  obtain ⟨scheme, user, host, port, _, _, _⟩ := url
  cases user with
  | none => rfl
  | some user =>
      unfold withoutUser
      dsimp only
      split
      · rfl
      · rfl

theorem exists_withoutUser_eq (url : Url) :
    ∃ user, url.withoutUser = { url with user := user } := by
  unfold withoutUser
  split
  · exact ⟨url.user, rfl⟩
  · split
    · exact ⟨none, rfl⟩
    · exact ⟨url.user, rfl⟩

/-- What is written before the path of a URL. -/
def writeStart (url : Url) : List Char := url.scheme ++ ':' :: writeAuthority url

theorem written_query (url : Url) (query : Option (List Char)) :
    ({ url with query, fragment := none } : Url).withoutUser.withoutFragment.written =
      writeStart url.withoutUser ++ writePath { url.withoutUser with path := url.path } ++
        writePart '?' query := by
  rw [withoutUser_with url url.path]
  exact List.append_nil _

theorem written_path {url : Url} (hHost : url.host ≠ none) (done segments : List (List Char))
    (query : Option (List Char)) :
    ({ url with path := .rooted (done ++ segments), query, fragment := none } :
        Url).withoutUser.withoutFragment.written =
      writeStart url.withoutUser ++ writeSegments done ++
        (writeSegments segments ++ writePart '?' query) := by
  have hPath : writePath { url.withoutUser with path := .rooted (done ++ segments) } =
      writeSegments done ++ writeSegments segments := by
    unfold writePath
    dsimp only
    split
    · next hNone _ =>
        obtain ⟨user, hUser⟩ := exists_withoutUser_eq url
        rw [hUser] at hNone
        exact absurd hNone hHost
    · exact List.flatMap_append
  rw [withoutUser_with]
  show writeStart url.withoutUser ++
    writePath { url.withoutUser with path := .rooted (done ++ segments) } ++
      writePart '?' query ++ [] = _
  rw [hPath, List.append_nil, List.append_assoc, List.append_assoc, List.append_assoc]

section Whole

variable {before middle ending : List Char}

/-- **Reading a URL up to what its ending becomes.** -/
theorem read?_append (hBefore : '#' ∉ before) (hMiddle : '#' ∉ middle) (hKept : Kept ending)
    (hLast : ∀ last ∈ ending.getLast?, isOuter last = false) :
    read? (String.ofList (before ++ '/' :: (middle ++ '/' :: ending))) =
      (readScheme? (unbroken (before.dropWhile isOuter))).bind fun found =>
        let parts := splitPart '?' (found.2 ++ '/' :: unbroken middle ++ '/' :: ending)
        let special := (standardPort? found.1).isSome || found.1 = "file".toList
        (readRest? found.1 parts.1).map fun url =>
          { url with
            query := parts.2.map
              (Percent.encode (if special then Percent.specialQuery else Percent.query))
            fragment := none } := by
  unfold read?
  rw [String.toList_ofList, stripped_append hKept.visible hLast, readScheme?_append]
  cases hScheme : readScheme? (unbroken (before.dropWhile isOuter)) with
  | none => rfl
  | some found =>
      obtain ⟨scheme, rest⟩ := found
      have hRest : '#' ∉ rest := by
        intro hMem
        have hWhole := mem_unbroken (mem_of_readScheme? hScheme hMem)
        exact hBefore ((List.dropWhile_suffix isOuter).subset hWhole)
      have hAll : '#' ∉ rest ++ '/' :: (unbroken middle ++ '/' :: ending) := by
        simp only [List.mem_append, List.mem_cons, not_or]
        exact ⟨hRest, by decide, fun h => hMiddle (mem_unbroken h), by decide, hKept.noNumberSign⟩
      rw [Option.map_some, Option.bind_eq_bind, Option.bind_some, Option.bind_some]
      dsimp only
      rw [splitPart_of_not_mem hAll, List.append_assoc, List.cons_append]
      dsimp only
      cases readRest? scheme
          (splitPart '?' (rest ++ '/' :: (unbroken middle ++ '/' :: ending))).1 with
      | none => rfl
      | some url => rfl

/-- A URL of the web is read from a text with a kept ending. -/
structure EndsIn (before middle ending : List Char) (url : Url) : Prop where
  kept : Kept ending
  last : ∀ last ∈ ending.getLast?, isOuter last = false
  read : read? (String.ofList (before ++ '/' :: (middle ++ '/' :: ending))) = some url
  web : IsWebScheme url.scheme

section Scheme

variable {scheme rest first part : List Char}
  (hBefore : '#' ∉ before) (hMiddle : '#' ∉ middle)
  (hScheme : readScheme? (unbroken (before.dropWhile isOuter)) = some (scheme, rest))
include hBefore hMiddle hScheme

/-- What such a URL is read from, behind its scheme. -/
theorem EndsIn.parts {url : Url} (h : EndsIn before middle ending url)
    {parts : List Char × Option (List Char)}
    (hParts : splitPart '?' (rest ++ '/' :: unbroken middle ++ '/' :: ending) = parts) :
    IsWebScheme scheme ∧ ∃ whole, readRest? scheme parts.1 = some whole ∧
      url = { whole with
        query := parts.2.map (Percent.encode Percent.specialQuery), fragment := none } := by
  have hRead := h.read
  rw [read?_append hBefore hMiddle h.kept h.last, hScheme, Option.bind_some] at hRead
  dsimp only at hRead
  rw [hParts] at hRead
  obtain ⟨whole, hWhole, rfl⟩ := Option.map_eq_some_iff.mp hRead
  have hSame : whole.scheme = scheme := readRest?_scheme hWhole
  have hWeb : IsWebScheme scheme := hSame ▸ h.web
  refine ⟨hWeb, whole, hWhole, ?_⟩
  rcases hWeb with rfl | rfl
  · rfl
  · rfl

/-- Behind a question mark, the ending goes on the query. -/
theorem written_inQuery
    (hQuery : splitPart '?' (rest ++ '/' :: unbroken middle) = (first, some part)) :
    ∃ start, ∀ ending url, EndsIn before middle ending url →
      url.withoutUser.withoutFragment.written = start ++ '/' :: writeEnding true ending := by
  cases hRest : readRest? scheme first with
  | none =>
      refine ⟨[], fun ending url hEnds => ?_⟩
      obtain ⟨_, whole, hWhole, _⟩ :=
        hEnds.parts hBefore hMiddle hScheme (splitPart_append_some hQuery _)
      rw [hRest] at hWhole
      cases hWhole
  | some found =>
      refine ⟨writeStart found.withoutUser ++
        writePath { found.withoutUser with path := found.path } ++
          '?' :: Percent.encode Percent.specialQuery part, fun ending url hEnds => ?_⟩
      obtain ⟨_, whole, hWhole, rfl⟩ :=
        hEnds.parts hBefore hMiddle hScheme (splitPart_append_some hQuery _)
      rw [hRest] at hWhole
      cases hWhole
      rw [written_query, Option.map_some, Percent.encode_append, writePart,
        List.append_assoc _ _ ('/' :: _)]
      rfl

/-- Without a question mark, it goes on the path. -/
theorem written_inPath (hQuery : '?' ∉ rest ++ '/' :: unbroken middle)
    (hName : ∃ c ∈ unbroken middle, isSlash c = false) :
    ∃ start, ∀ ending url, EndsIn before middle ending url →
      url.withoutUser.withoutFragment.written = start ++ '/' :: writeEnding false ending := by
  have hSplit : ∀ ending, splitPart '?' (rest ++ '/' :: unbroken middle ++ '/' :: ending) =
      (rest ++ '/' :: unbroken middle ++ '/' :: (splitPart '?' ending).1,
        (splitPart '?' ending).2) := by
    intro ending
    rw [splitPart_append_of_not_mem hQuery, splitPart_cons_of_ne (by decide)]
  obtain ⟨c, hc, hOther⟩ := hName
  have hNamed : ∃ c ∈ rest ++ '/' :: unbroken middle, isSlash c = false :=
    ⟨c, List.mem_append_right _ (List.mem_cons_of_mem _ hc), hOther⟩
  by_cases hWeb : IsWebScheme scheme
  · rcases readRest?_append hWeb hNamed with hNone | ⟨found, done, hHost, hFound⟩
    · refine ⟨[], fun ending url hEnds => ?_⟩
      obtain ⟨_, whole, hWhole, _⟩ := hEnds.parts hBefore hMiddle hScheme (hSplit ending)
      rw [hNone] at hWhole
      cases hWhole
    · refine ⟨writeStart found.withoutUser ++ writeSegments done, fun ending url hEnds => ?_⟩
      obtain ⟨_, whole, hWhole, rfl⟩ := hEnds.parts hBefore hMiddle hScheme (hSplit ending)
      rw [hFound _ hEnds.kept.names] at hWhole
      cases hWhole
      have hBackslash := hEnds.kept.parts.2.1
      rw [written_path hHost, writeSegments_splitWhere hBackslash]
      rfl
  · refine ⟨[], fun ending url hEnds => ?_⟩
    exact absurd (hEnds.parts hBefore hMiddle hScheme (hSplit ending)).1 hWeb

end Scheme

/--
**The URL that is asked ends in a kept ending.**  What is written before it, and
whether it goes on a query, depends on what it is put after only.
-/
theorem written_ending (hBefore : '#' ∉ before) (hMiddle : '#' ∉ middle)
    (hName : ∃ c ∈ unbroken middle, isSlash c = false) :
    ∃ start inQuery, ∀ ending url, EndsIn before middle ending url →
      url.withoutUser.withoutFragment.written = start ++ '/' :: writeEnding inQuery ending := by
  cases hScheme : readScheme? (unbroken (before.dropWhile isOuter)) with
  | none =>
      refine ⟨[], false, fun ending url hEnds => ?_⟩
      have hRead := hEnds.read
      rw [read?_append hBefore hMiddle hEnds.kept hEnds.last, hScheme] at hRead
      cases hRead
  | some found =>
      obtain ⟨scheme, rest⟩ := found
      by_cases hQuery : '?' ∈ rest ++ '/' :: unbroken middle
      · obtain ⟨first, part, hSplit⟩ := splitPart_of_mem hQuery
        obtain ⟨start, hStart⟩ := written_inQuery hBefore hMiddle hScheme hSplit
        exact ⟨start, true, hStart⟩
      · obtain ⟨start, hStart⟩ := written_inPath hBefore hMiddle hScheme hQuery hName
        exact ⟨start, false, hStart⟩

end Whole

end SourceIndex.Url
