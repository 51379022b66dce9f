import SourceIndex.Proofs.Text.Cuts
import SourceIndex.Url.Reader

/-!
# Reading URLs that go on

What reading makes of a text that goes on behind a slash, step by step: what is
stripped, the scheme, the parts behind signs, the segments of the path.  What
has been read so far is the same however the text goes on, up to segments of
dots, which lead back from where they stand.

## Main results

* `stripped_append`, `readScheme?_append`, `splitPart_append_some` — the steps of
  reading, for a text that goes on.
* `readPath_append`, `readRest?_append` — the segments of a path that goes on.
* `readRest?_scheme` — the scheme of what is read.
-/

namespace SourceIndex.Url

open Text

/-! ## Parts -/

section Parts

variable {sign : Char} {before after text part : List Char}

theorem splitPart_cons_self (sign : Char) (rest : List Char) :
    splitPart sign (sign :: rest) = ([], some rest) := by
  simp [splitPart, spanTo]

theorem splitPart_cons_of_ne {c : Char} (h : c ≠ sign) (rest : List Char) :
    splitPart sign (c :: rest) = (c :: (splitPart sign rest).1, (splitPart sign rest).2) := by
  have hOther : (!(c == sign)) = true := by simp [h]
  have hTake : (c :: rest).takeWhile (!· == sign) = c :: rest.takeWhile (!· == sign) :=
    List.takeWhile_cons_of_pos hOther
  have hDrop : (c :: rest).dropWhile (!· == sign) = rest.dropWhile (!· == sign) :=
    List.dropWhile_cons_of_pos hOther
  unfold splitPart spanTo
  rw [hTake, hDrop]
  cases rest.dropWhile (fun c => !(c == sign)) with
  | nil => rfl
  | cons d later => rfl

/-- A sign that is there already starts the part. -/
theorem splitPart_append_some (h : splitPart sign before = (text, some part))
    (after : List Char) : splitPart sign (before ++ after) = (text, some (part ++ after)) := by
  induction before generalizing text with
  | nil => cases h
  | cons c rest ih =>
      by_cases hSign : c = sign
      · subst hSign
        rw [splitPart_cons_self] at h
        cases h
        rw [List.cons_append, splitPart_cons_self]
      · rw [splitPart_cons_of_ne hSign] at h
        obtain ⟨hText, hPart⟩ := Prod.mk.inj h
        have hRest := ih (Prod.ext rfl hPart : splitPart sign rest = (_, some part))
        rw [List.cons_append, splitPart_cons_of_ne hSign, hRest, ← hText]

/-- Without the sign, all of the text stands before the part. -/
theorem splitPart_append_of_not_mem (h : sign ∉ before) (after : List Char) :
    splitPart sign (before ++ after) =
      (before ++ (splitPart sign after).1, (splitPart sign after).2) := by
  induction before with
  | nil => rfl
  | cons c rest ih =>
      rw [List.mem_cons, not_or] at h
      rw [List.cons_append, splitPart_cons_of_ne (Ne.symm h.1), ih h.2, List.cons_append]

theorem splitPart_of_not_mem (h : sign ∉ text) : splitPart sign text = (text, none) := by
  have hAll := splitPart_append_of_not_mem h []
  rw [List.append_nil] at hAll
  rw [hAll, show splitPart sign [] = ([], none) from rfl, List.append_nil]

/-- A sign that is there starts a part. -/
theorem splitPart_of_mem (h : sign ∈ text) :
    ∃ start part, splitPart sign text = (start, some part) := by
  induction text with
  | nil => cases h
  | cons c rest ih =>
      by_cases hSign : c = sign
      · subst hSign
        exact ⟨[], rest, splitPart_cons_self c rest⟩
      · obtain ⟨start, part, hRest⟩ := ih ((List.mem_cons.mp h).resolve_left (Ne.symm hSign))
        exact ⟨c :: start, part, by rw [splitPart_cons_of_ne hSign, hRest]⟩

/-- The text before the sign and the part tell the whole text. -/
theorem writePart_splitPart (sign : Char) (text : List Char) :
    (splitPart sign text).1 ++ writePart sign (splitPart sign text).2 = text := by
  induction text with
  | nil => rfl
  | cons c rest ih =>
      by_cases hSign : c = sign
      · subst hSign
        rw [splitPart_cons_self]
        rfl
      · rw [splitPart_cons_of_ne hSign, List.cons_append, ih]

/-- What is written with a sign is split at it. -/
theorem splitPart_writePart (h : sign ∉ text) (part : Option (List Char)) :
    splitPart sign (text ++ writePart sign part) = (text, part) := by
  rw [splitPart_append_of_not_mem h]
  cases part with
  | none => rw [writePart, splitPart_of_not_mem List.not_mem_nil, List.append_nil]
  | some rest => rw [writePart, splitPart_cons_self, List.append_nil]

theorem splitPart_inj (h : splitPart sign before = splitPart sign after) : before = after := by
  rw [← writePart_splitPart sign before, h, writePart_splitPart]

end Parts

/-- What stands before a stop does not depend on what follows it. -/
theorem spanTo_append {stop : Char → Bool} {c : Char} (hStop : stop c = true)
    (before after : List Char) :
    spanTo stop (before ++ c :: after) =
      ((spanTo stop before).1, (spanTo stop before).2 ++ c :: after) := by
  have hDrop : (before ++ c :: after).dropWhile (!stop ·) =
      before.dropWhile (!stop ·) ++ c :: after :=
    dropWhile_append_cons (by simp [hStop]) before after
  have hTake : (before ++ c :: after).takeWhile (!stop ·) = before.takeWhile (!stop ·) := by
    rw [List.takeWhile_append]
    split
    · next hAll =>
        rw [List.takeWhile_cons_of_neg (by simp [hStop]), List.append_nil]
        exact (List.takeWhile_prefix _).eq_of_length hAll |>.symm
    · rfl
  unfold spanTo
  rw [hTake, hDrop]

/-! ## What is stripped -/

/-- The characters that are dropped at both ends of a URL. -/
def isOuter (c : Char) : Bool := c.toNat ≤ 0x20

/-- A text without the line breaks and tabs that are dropped everywhere. -/
def unbroken (text : List Char) : List Char :=
  text.filter fun c => !(['\t', '\n', '\r'].contains c)

/-- **A text that goes on is stripped at its start**, and its ending stays. -/
theorem stripped_append {ending : List Char} (hVisible : ∀ c ∈ ending, 0x20 ≤ c.toNat)
    (hLast : ∀ last ∈ ending.getLast?, isOuter last = false) (before middle : List Char) :
    stripped (before ++ '/' :: (middle ++ '/' :: ending)) =
      unbroken (before.dropWhile isOuter) ++ '/' :: (unbroken middle ++ '/' :: ending) := by
  have hWhole : ∀ last ∈ (before.dropWhile isOuter ++ '/' :: (middle ++ '/' :: ending)).getLast?,
      isOuter last = false := by
    intro last hMem
    rw [show before.dropWhile isOuter ++ '/' :: (middle ++ '/' :: ending) =
      (before.dropWhile isOuter ++ '/' :: middle) ++ ['/'] ++ ending by simp,
      List.getLast?_append, List.getLast?_concat] at hMem
    cases hEnding : ending.getLast? with
    | none =>
        rw [hEnding] at hMem
        cases hMem
        rfl
    | some found =>
        rw [hEnding] at hMem
        cases hMem
        exact hLast last hEnding
  have hUnbroken : unbroken ending = ending := by
    unfold unbroken
    rw [List.filter_eq_self]
    intro c hc
    have hCode := hVisible c hc
    have hBreaks : (['\t', '\n', '\r'].all fun d => d.toNat < 0x20) = true := by decide
    have hNot : c ∉ ['\t', '\n', '\r'] := by
      intro hBreak
      have hLess := of_decide_eq_true (List.all_eq_true.mp hBreaks c hBreak)
      omega
    rw [Bool.not_eq_true', ← Bool.not_eq_true, List.contains_iff_mem]
    exact hNot
  show unbroken (trimEndWhere isOuter
    ((before ++ '/' :: (middle ++ '/' :: ending)).dropWhile isOuter)) = _
  rw [dropWhile_append_cons (by decide), trimEndWhere_of_getLast? hWhole]
  unfold unbroken at hUnbroken ⊢
  rw [List.filter_append, List.filter_cons_of_pos (by decide), List.filter_append,
    List.filter_cons_of_pos (by decide), hUnbroken]

theorem mem_unbroken {c : Char} {text : List Char} (h : c ∈ unbroken text) : c ∈ text :=
  (List.mem_filter.mp h).1

/-! ## Schemes -/

/-- A scheme starts with a letter. -/
def isScheme : List Char → Bool
  | first :: others =>
      first.isAlpha && others.all fun c => c.isAlphanum || ['+', '-', '.'].contains c
  | [] => false

theorem isScheme_of_slash {scheme : List Char} (h : '/' ∈ scheme) : isScheme scheme = false := by
  cases scheme with
  | nil => cases h
  | cons first others =>
      rcases List.mem_cons.mp h with rfl | hLater
      · rfl
      · have hOthers :
            (others.all fun c => c.isAlphanum || ['+', '-', '.'].contains c) = false := by
          rw [List.all_eq_false]
          exact ⟨'/', hLater, by decide⟩
        rw [isScheme, hOthers, Bool.and_false]

theorem readScheme?_eq (text : List Char) :
    readScheme? text =
      match splitPart ':' text with
      | (scheme, some rest) =>
          if isScheme scheme then some (scheme.map Char.toLower, rest) else none
      | (_, none) => none := by
  unfold readScheme? splitPart
  rcases spanTo (· == ':') text with ⟨scheme, _ | ⟨c, rest⟩⟩
  · rfl
  · cases scheme with
    | nil => rfl
    | cons first others => rfl

/-- **The scheme of a text that goes on.** -/
theorem readScheme?_append (before after : List Char) :
    readScheme? (before ++ '/' :: after) =
      (readScheme? before).map fun found => (found.1, found.2 ++ '/' :: after) := by
  rw [readScheme?_eq, readScheme?_eq]
  by_cases hColon : ':' ∈ before
  · obtain ⟨scheme, rest, hBefore⟩ := splitPart_of_mem hColon
    rw [splitPart_append_some hBefore, hBefore]
    dsimp only
    split
    · rfl
    · rfl
  · have hSlash : isScheme (before ++ (splitPart ':' ('/' :: after)).1) = false := by
      apply isScheme_of_slash
      rw [splitPart_cons_of_ne (by decide)]
      exact List.mem_append_right _ List.mem_cons_self
    rw [splitPart_append_of_not_mem hColon, splitPart_of_not_mem hColon]
    dsimp only
    cases (splitPart ':' ('/' :: after)).2 with
    | none => rfl
    | some rest =>
        dsimp only
        rw [hSlash]
        rfl

/-- What a scheme leaves of a text is a part of it. -/
theorem mem_of_readScheme? {text scheme rest : List Char}
    (h : readScheme? text = some (scheme, rest)) {c : Char} (hc : c ∈ rest) : c ∈ text := by
  rw [readScheme?_eq] at h
  rcases hSplit : splitPart ':' text with ⟨before, _ | after⟩
  · rw [hSplit] at h
    cases h
  · rw [hSplit] at h
    dsimp only at h
    split at h
    · cases h
      rw [← writePart_splitPart ':' text, hSplit]
      exact List.mem_append_right _ (List.mem_cons_of_mem _ hc)
    · cases h

/-! ## Paths -/

/-- What separates segments where schemes have a standard port. -/
def isSlash (c : Char) : Bool := c == '/' || c == '\\'

theorem splitPath_append (before after : List Char) :
    splitPath isSlash (before ++ '/' :: after) =
      splitPath isSlash before ++ splitWhere isSlash after := by
  cases before with
  | nil => rfl
  | cons c rest =>
      show splitWhere isSlash
          (if isSlash c then rest ++ '/' :: after else c :: rest ++ '/' :: after) =
        splitWhere isSlash (if isSlash c then rest else c :: rest) ++ _
      by_cases hSlash : isSlash c = true
      · rw [if_pos hSlash, if_pos hSlash, splitWhere_append rfl]
      · rw [if_neg hSlash, if_neg hSlash, splitWhere_append rfl]

/-- A segment is not resolved. -/
def IsName (segment : List Char) : Prop := isDot segment = false ∧ isDoubleDot segment = false

instance (segment : List Char) : Decidable (IsName segment) :=
  inferInstanceAs (Decidable (_ ∧ _))

/-- Segments that others follow are resolved whatever these are. -/
theorem resolve_append (root : List Char → List Char) (before first : List (List Char)) :
    ∃ done, ∀ later, later ≠ [] →
      resolve root before (first ++ later) = resolve root done later := by
  induction first generalizing before with
  | nil => exact ⟨before, fun later _ => rfl⟩
  | cons segment rest ih =>
      have hNonempty : ∀ later : List (List Char),
          later ≠ [] → (rest ++ later).isEmpty = false := by
        intro later hLater
        simp [hLater]
      by_cases hDouble : isDoubleDot segment = true
      · obtain ⟨done, hDone⟩ := ih (leave before)
        refine ⟨done, fun later hLater => ?_⟩
        rw [List.cons_append, resolve, if_pos hDouble, hNonempty later hLater]
        exact hDone later hLater
      · by_cases hDot : isDot segment = true
        · obtain ⟨done, hDone⟩ := ih before
          refine ⟨done, fun later hLater => ?_⟩
          rw [List.cons_append, resolve, if_neg hDouble, if_pos hDot, hNonempty later hLater]
          exact hDone later hLater
        · obtain ⟨done, hDone⟩ := ih ((if before.isEmpty then
            root (Percent.encode Percent.path segment) else Percent.encode Percent.path segment) ::
              before)
          refine ⟨done, fun later hLater => ?_⟩
          rw [List.cons_append, resolve, if_neg hDouble, if_neg hDot]
          exact hDone later hLater

/-- Names are encoded and stay in their order. -/
theorem resolve_names (before : List (List Char)) {names : List (List Char)}
    (h : ∀ name ∈ names, IsName name) :
    resolve id before names = before.reverse ++ names.map (Percent.encode Percent.path) := by
  induction names generalizing before with
  | nil => exact (List.append_nil _).symm
  | cons name rest ih =>
      obtain ⟨hDot, hDouble⟩ := h name List.mem_cons_self
      rw [resolve, hDouble, hDot]
      dsimp only
      rw [if_neg (by decide), if_neg (by decide), ih _ fun other hOther =>
        h other (List.mem_cons_of_mem _ hOther)]
      simp

/-- **The segments of a path that goes on.** -/
theorem readPath_append (before : List Char) :
    ∃ done, ∀ after, (∀ segment ∈ splitWhere isSlash after, IsName segment) →
      readPath isSlash (before ++ '/' :: after) =
        done ++ (splitWhere isSlash after).map (Percent.encode Percent.path) := by
  obtain ⟨done, hDone⟩ := resolve_append id [] (splitPath isSlash before)
  refine ⟨done.reverse, fun after hNames => ?_⟩
  rw [readPath, splitPath_append, hDone _ (splitWhere_ne_nil _ _), resolve_names done hNames]

/-! ## Whole URLs -/

/-- **Of what follows two slashes, only the path tells how it goes on.** -/
theorem readHierarchy?_append (scheme before : List Char) :
    (∀ after, readHierarchy? scheme isSlash (before ++ '/' :: after) = none) ∨
      ∃ (url : Url) (done : List (List Char)), url.host ≠ none ∧ ∀ after,
        (∀ segment ∈ splitWhere isSlash after, IsName segment) →
        readHierarchy? scheme isSlash (before ++ '/' :: after) =
          some { url with
            path := .rooted (done ++
              (splitWhere isSlash after).map (Percent.encode Percent.path)) } := by
  rcases hSpan : spanTo isSlash before with ⟨authority, rest⟩
  have hText : ∀ after, spanTo isSlash (before ++ '/' :: after) =
      (authority, rest ++ '/' :: after) := by
    intro after
    rw [spanTo_append rfl, hSpan]
  unfold readHierarchy?
  simp only [hText]
  rcases splitUser authority with ⟨user, server⟩
  dsimp only
  by_cases hNobody : (server.isEmpty && user == some []) = true
  · left
    intro after
    rw [if_pos hNobody]
    rfl
  · cases hServer : readServer? scheme server with
    | none =>
        left
        intro after
        rw [if_neg hNobody]
        rfl
    | some found =>
        obtain ⟨host, port, more⟩ := found
        by_cases hHost : (host.isEmpty && (user.bind readUser?).isSome) = true
        · left
          intro after
          rw [if_neg hNobody, Option.bind_eq_bind, Option.bind_some]
          dsimp only
          rw [if_pos hHost]
          rfl
        · right
          obtain ⟨done, hDone⟩ := readPath_append (more ++ rest)
          refine ⟨{ scheme, user := user.bind readUser?, host := some host, port
                    path := .rooted [], query := none, fragment := none }, done,
            Option.some_ne_none host, ?_⟩
          intro after hNames
          have hPath := hDone after hNames
          rw [List.append_assoc] at hPath
          have hNonempty : (done ++ (splitWhere isSlash after).map
              (Percent.encode Percent.path)).isEmpty = false := by
            simp [splitWhere_ne_nil]
          rw [if_neg hNobody, Option.bind_eq_bind, Option.bind_some]
          dsimp only
          rw [if_neg hHost, hPath, hNonempty, Bool.and_false]
          rfl

theorem readHierarchy?_scheme {scheme text : List Char} {isEnd : Char → Bool} {url : Url}
    (h : readHierarchy? scheme isEnd text = some url) : url.scheme = scheme := by
  unfold readHierarchy? at h
  generalize spanTo isEnd text = span at h
  obtain ⟨authority, rest⟩ := span
  dsimp only at h
  generalize splitUser authority = split at h
  obtain ⟨user, server⟩ := split
  dsimp only at h
  split at h
  · cases h
  · cases hServer : readServer? scheme server with
    | none =>
        rw [hServer] at h
        cases h
    | some found =>
        rw [hServer, Option.bind_eq_bind, Option.bind_some] at h
        split at h
        · cases h
        · cases h
          rfl

theorem readFile?_scheme {text : List Char} {url : Url} (h : readFile? text = some url) :
    url.scheme = "file".toList := by
  unfold readFile? at h
  split at h
  · dsimp only at h
    split at h
    · split at h
      · cases h
        rfl
      · split at h
        · obtain ⟨written, _, hWritten⟩ := Option.bind_eq_some_iff.mp h
          split at hWritten
          · cases hWritten
            rfl
          · cases hWritten
            rfl
        · obtain ⟨written, _, hWritten⟩ := Option.bind_eq_some_iff.mp h
          split at hWritten
          · cases hWritten
            rfl
          · cases hWritten
            rfl
    · cases h
      rfl
  · cases h
    rfl

/-- The scheme that is read is that of the URL. -/
theorem readRest?_scheme {scheme text : List Char} {url : Url}
    (h : readRest? scheme text = some url) : url.scheme = scheme := by
  unfold readRest? at h
  split at h
  · next hFile =>
      rw [hFile]
      exact readFile?_scheme h
  · split at h
    · exact readHierarchy?_scheme h
    · split at h
      · exact readHierarchy?_scheme h
      · cases h
        rfl
      · cases h
        rfl

/-- The schemes of the web. -/
def IsWebScheme (scheme : List Char) : Prop := scheme = "http".toList ∨ scheme = "https".toList

theorem readRest?_web {scheme : List Char} (h : IsWebScheme scheme)
    (text : List Char) :
    readRest? scheme text = readHierarchy? scheme isSlash (text.dropWhile isSlash) := by
  rcases h with rfl | rfl
  · rfl
  · rfl

/-- Where schemes have a standard port, only the path tells how a text goes on
that has named a host. -/
theorem readRest?_append {scheme head : List Char} (hWeb : IsWebScheme scheme)
    (hName : ∃ c ∈ head, isSlash c = false) :
    (∀ after, readRest? scheme (head ++ '/' :: after) = none) ∨
      ∃ (url : Url) (done : List (List Char)), url.host ≠ none ∧ ∀ after,
        (∀ segment ∈ splitWhere isSlash after, IsName segment) →
        readRest? scheme (head ++ '/' :: after) =
          some { url with
            path := .rooted (done ++
              (splitWhere isSlash after).map (Percent.encode Percent.path)) } := by
  have hText : ∀ after, readRest? scheme (head ++ '/' :: after) =
      readHierarchy? scheme isSlash (head.dropWhile isSlash ++ '/' :: after) := by
    intro after
    obtain ⟨c, hMem, hOther⟩ := hName
    rw [readRest?_web hWeb, dropWhile_append_of_mem hOther hMem]
  simp only [hText]
  exact readHierarchy?_append scheme (head.dropWhile isSlash)

end SourceIndex.Url
