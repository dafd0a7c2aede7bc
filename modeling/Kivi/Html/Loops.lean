import Kivi.Html.ParserLaws
import Kivi.Html.EntitiesLaws
import Kivi.Python.Loop

/-!
The loops of `decode_entities`, `parse_attrs` and `parse_html` as the code writes them, over an index: every pass
moves the index forward, so each loop ends, and it ends with what the scans over the text still to read return.
-/

namespace Kivi

/-! ## `decode_entities` -/

/--
One pass of the loop of `decode_entities` at index `i` with the text decoded so far. A reference `&...;` whose `;`
lies within twelve characters goes to `decodeReference`, whose failure is the `except` branch that keeps the
reference as written; any other character is copied.
-/
def decodePass (text : List Char) : Nat × List Char → Pass (Nat × List Char)
  | (i, result) =>
    let copied := Pass.next (i + 1, result ++ [text.getD i ' '])
    if text.getD i ' ' = '&' then
      match findFrom ';' text i with
      | some endPos =>
        if endPos - i < 12 then
          let entity := slice text (i + 1) endPos
          .next (endPos + 1, result ++ (decodeReference entity).getD (slice text i (endPos + 1)))
        else copied
      | none => copied
    else copied

/-- `decode_entities` as the code runs it: its loop from index 0 with nothing decoded, allowed a pass per character. -/
def decodeEntitiesLoop (text : String) : Option String :=
  (whileLoop (fun st => st.1 < text.data.length) (decodePass text.data) (text.data.length + 1) (0, [])).map
    fun st => ⟨st.2⟩

/-- Every pass of `decode_entities` moves past the character it reads, or past the whole reference. -/
theorem decodePass_advances {text : List Char} {i j : Nat} {result result' : List Char}
    (went : decodePass text (i, result) = .next (j, result')) : i < j := by
  unfold decodePass at went
  dsimp only at went
  split at went
  · split at went
    · next endPos found =>
      split at went
      · cases went
        exact Nat.lt_succ_of_le (le_of_findFrom found)
      · cases went
        exact Nat.lt_succ_self _
    · cases went
      exact Nat.lt_succ_self _
  · cases went
    exact Nat.lt_succ_self _

/--
A pass at a character `c` emits what the scan over the text still to read emits first, and moves to where that
scan goes on.
-/
theorem decodePass_step {text rest : List Char} {i : Nat} {c : Char} (at_i : text.drop i = c :: rest)
    (result : List Char) : ∃ j out, decodePass text (i, result) = .next (j, result ++ out) ∧
      out ++ decodeFrom (text.drop j) = decodeFrom (c :: rest) := by
  obtain ⟨-, read⟩ := getD_of_drop_eq_cons at_i ' '
  have after := drop_succ_of_drop_eq_cons at_i
  by_cases amp : c = '&'
  · subst amp
    have search := findFrom_of_ne at_i (by decide : '&' ≠ ';')
    rw [decodeFrom.eq_2]
    cases found : findChar ';' rest with
    | none =>
      -- No `;` after the ampersand: it is copied.
      refine ⟨i + 1, ['&'], ?_, by rw [after]; rfl⟩
      simp only [decodePass, read, search, found, Option.map_none', if_true]
    | some k =>
      dsimp only
      have span : k + (i + 1) - i = k + 1 := by omega
      by_cases short : k + 1 < 12
      · -- A reference: decoded, or kept as written when `int` or `chr` fails.
        refine ⟨k + (i + 1) + 1, (decodeReference (rest.take k)).getD ('&' :: rest.take (k + 1)), ?_, ?_⟩
        · have entity : slice text (i + 1) (k + (i + 1)) = rest.take k := by
            rw [slice, after, Nat.add_sub_cancel]
          have literal : slice text i (k + (i + 1) + 1) = '&' :: rest.take (k + 1) := by
            rw [slice, at_i, show k + (i + 1) + 1 - i = k + 1 + 1 by omega, List.take_succ_cons]
          simp only [decodePass, read, search, found, Option.map_some', if_true, span, if_pos short, entity,
            literal]
        · rw [if_pos short, show k + (i + 1) + 1 = i + 1 + (k + 1) by omega, ← List.drop_drop, after]
      · -- The `;` is too far: the ampersand is copied.
        refine ⟨i + 1, ['&'], ?_, by rw [if_neg short, after]; rfl⟩
        simp only [decodePass, read, search, found, Option.map_some', if_true, span, if_neg short]
  · refine ⟨i + 1, [c], ?_, by rw [decodeFrom_cons amp, after]; rfl⟩
    simp only [decodePass, read, if_neg amp]

/-- The loop of `decode_entities` computes what the scan over the text still to read appends to the result. -/
def decodeComputes (text : List Char) :
    Computes (fun st => st.1 < text.length) (decodePass text) (fun st => (⟨st.2⟩ : String))
      (fun st => ⟨st.2 ++ decodeFrom (text.drop st.1)⟩) where
  measure st := text.length - st.1
  exits := fun ⟨i, result⟩ failed => by
    have beyond : text.length ≤ i := by simpa using failed
    rw [List.drop_eq_nil_of_le beyond, decodeFrom.eq_1, List.append_nil]
  stops := fun ⟨i, result⟩ _ passed went => by
    obtain ⟨j, out, again, -⟩ := decodePass_step (drop_eq_getD_cons (by simpa using passed) ' ') result
    rw [again] at went
    cases went
  nexts := fun ⟨i, result⟩ _ passed went => by
    have within : i < text.length := by simpa using passed
    obtain ⟨j, out, again, emits⟩ := decodePass_step (drop_eq_getD_cons within ' ') result
    rw [again] at went
    cases went
    have moved := decodePass_advances again
    refine ⟨show text.length - j < text.length - i by omega, ?_⟩
    show (⟨(result ++ out) ++ decodeFrom (text.drop j)⟩ : String) = ⟨result ++ decodeFrom (text.drop i)⟩
    rw [List.append_assoc, emits, ← drop_eq_getD_cons within ' ']

/-- The loop of `decode_entities` ends within a pass per character, and returns what the model decodes. -/
theorem decodeEntitiesLoop_eq (text : String) : decodeEntitiesLoop text = some (decodeEntities text) :=
  (decodeComputes text.data).run (show text.data.length - 0 < text.data.length + 1 by omega)

/-! ## `parse_attrs` -/

/--
The value after a name, read from index `i` to the index after it: quoted up to the matching quote, which is
stepped over even when it is missing, else up to a blank or `>`.
-/
def attrValueAt (attrStr : List Char) (i : Nat) : List Char × Nat :=
  if i < attrStr.length ∧ (attrStr.getD i ' ' = '"' ∨ attrStr.getD i ' ' = '\'') then
    let quote := attrStr.getD i ' '
    let start := i + 1
    let i := skipWhile (· ≠ quote) attrStr start
    (slice attrStr start i, i + 1)
  else
    let start := i
    let i := skipWhile (fun c => !(attrBlank c || c = '>')) attrStr i
    (slice attrStr start i, i)

/--
One pass of the loop of `parse_attrs` at index `i` with the attributes read so far: blanks, then a name, then
blanks and `=` together, then a value. An empty name is read over but not stored.
-/
def attrsPass (attrStr : List Char) : Nat × Attrs → Pass (Nat × Attrs)
  | (i, attrs) =>
    let i := skipWhile attrBlank attrStr i
    if i ≥ attrStr.length then .stop (i, attrs)
    else
      let start := i
      let i := skipWhile (fun c => !(c = '=' || attrBlank c)) attrStr i
      let name := pyLower ⟨slice attrStr start i⟩
      let value := attrValueAt attrStr (skipWhile (fun c => attrBlank c || c = '=') attrStr i)
      .next (value.2, if name ≠ "" then dictSet attrs name ⟨value.1⟩ else attrs)

/-- `parse_attrs` as the code runs it: its loop from index 0 with no attributes, allowed a pass per character. -/
def parseAttrsLoop (attrStr : String) : Option Attrs :=
  (whileLoop (fun st => st.1 < attrStr.data.length) (attrsPass attrStr.data) (attrStr.data.length + 1) (0, [])).map
    Prod.snd

/-- The value read from an index is the one the scan reads from what is left there, and so is what follows it. -/
theorem attrValueAt_eq (attrStr : List Char) (i : Nat) :
    (attrValueAt attrStr i).1 = (attrValue (attrStr.drop i)).1 ∧
      attrStr.drop (attrValueAt attrStr i).2 = (attrValue (attrStr.drop i)).2 := by
  cases left : attrStr.drop i with
  | nil =>
    -- At the end nothing is read.
    have beyond : attrStr.length ≤ i := List.drop_eq_nil_iff.mp left
    have bare : ¬(i < attrStr.length ∧ (attrStr.getD i ' ' = '"' ∨ attrStr.getD i ' ' = '\'')) :=
      fun ⟨within, _⟩ => absurd within (not_lt.mpr beyond)
    simp only [attrValueAt, if_neg bare, slice_skipWhile, drop_skipWhile, left]
    exact ⟨rfl, rfl⟩
  | cons q rest =>
    obtain ⟨within, read⟩ := getD_of_drop_eq_cons left ' '
    have after := drop_succ_of_drop_eq_cons left
    by_cases quoted : q = '"' ∨ q = '\''
    · -- A quoted value: up to the matching quote, which is stepped over.
      simp only [attrValueAt, read, if_pos (And.intro within quoted), slice_skipWhile, after, attrValue,
        if_pos quoted, true_and]
      rw [← List.drop_drop, drop_skipWhile, after]
    · simp only [attrValueAt, read, quoted, and_false, if_false, slice_skipWhile, drop_skipWhile, left,
        attrValue, true_and]

/--
A pass from an index where something other than blanks is left reads one attribute as the scan over the text
still to read does, and moves to where that scan goes on.
-/
theorem attrsPass_step {attrStr rest : List Char} {i : Nat} {c : Char} (attrs : Attrs)
    (skipped : (attrStr.drop i).dropWhile attrBlank = c :: rest) :
    ∃ j, attrsPass attrStr (i, attrs) = .next (j,
        if (attrItem (c :: rest)).1 = [] then attrs
        else dictSet attrs (pyLower ⟨(attrItem (c :: rest)).1⟩) ⟨(attrItem (c :: rest)).2.1⟩) ∧
      attrStr.drop j = (attrItem (c :: rest)).2.2 := by
  have start := (drop_skipWhile attrBlank attrStr i).trans skipped
  obtain ⟨within, -⟩ := getD_of_drop_eq_cons start ' '
  obtain ⟨value, following⟩ := attrValueAt_eq attrStr
    (skipWhile (fun c => attrBlank c || c = '=') attrStr (skipWhile (fun c => !(c = '=' || attrBlank c)) attrStr
      (skipWhile attrBlank attrStr i)))
  rw [drop_skipWhile, drop_skipWhile, start] at value following
  refine ⟨_, ?_, following⟩
  simp only [attrsPass, ge_iff_le, if_neg (not_le.mpr within), slice_skipWhile, start, value, ne_eq,
    pyLower_eq_empty]
  by_cases empty : (attrItem (c :: rest)).1 = []
  · simp only [attrItem] at empty ⊢
    simp only [empty, not_true_eq_false, if_false, if_true]
  · simp only [attrItem] at empty ⊢
    simp only [empty, not_false_eq_true, if_true, if_false]

/-- Where only blanks are left, a pass leaves the loop with the attributes it has. -/
theorem attrsPass_blank {attrStr : List Char} {i : Nat} (attrs : Attrs)
    (blank : (attrStr.drop i).dropWhile attrBlank = []) :
    attrsPass attrStr (i, attrs) = .stop (skipWhile attrBlank attrStr i, attrs) := by
  have beyond : attrStr.length ≤ skipWhile attrBlank attrStr i :=
    List.drop_eq_nil_iff.mp ((drop_skipWhile attrBlank attrStr i).trans blank)
  simp only [attrsPass, ge_iff_le, if_pos beyond]

/-- Where only blanks are left, the scan over the rest returns the attributes it has. -/
theorem parseAttrsFrom_blank {cs : List Char} (attrs : Attrs) (blank : cs.dropWhile attrBlank = []) :
    parseAttrsFrom cs attrs = attrs := by
  rw [parseAttrsFrom]
  split
  · rfl
  · next skipped => rw [blank] at skipped; cases skipped

/-- Where something other than blanks is left, the scan over the rest reads one attribute and goes on after it. -/
theorem parseAttrsFrom_item {cs rest : List Char} {c : Char} (attrs : Attrs)
    (skipped : cs.dropWhile attrBlank = c :: rest) :
    parseAttrsFrom cs attrs = parseAttrsFrom (attrItem (c :: rest)).2.2
      (if (attrItem (c :: rest)).1 = [] then attrs
      else dictSet attrs (pyLower ⟨(attrItem (c :: rest)).1⟩) ⟨(attrItem (c :: rest)).2.1⟩) := by
  rw [parseAttrsFrom]
  split
  · next blank => rw [skipped] at blank; cases blank
  · next c' rest' skipped' =>
    rw [skipped] at skipped'
    cases skipped'
    rfl

/-- Every pass of `parse_attrs` that goes round again consumes a name character or an `=`. -/
theorem attrsPass_advances {attrStr : List Char} {i j : Nat} {attrs attrs' : Attrs}
    (went : attrsPass attrStr (i, attrs) = .next (j, attrs')) : i < j := by
  cases skipped : (attrStr.drop i).dropWhile attrBlank with
  | nil =>
    rw [attrsPass_blank attrs skipped] at went
    cases went
  | cons c rest =>
    obtain ⟨k, again, following⟩ := attrsPass_step attrs skipped
    rw [again] at went
    cases went
    -- The attribute takes at least its first character, which is no blank.
    have solid : attrBlank c = false := by
      have first := List.head_dropWhile_not attrBlank (attrStr.drop i) (by rw [skipped]; exact List.cons_ne_nil _ _)
      simpa only [skipped, List.head_cons] using first
    have consumed := @attrItem_length c rest solid
    have shorter := (@List.dropWhile_suffix _ (attrStr.drop i) attrBlank).length_le
    rw [← following] at consumed
    rw [skipped] at shorter
    simp only [List.length_drop, List.length_cons] at consumed shorter
    omega

/-- The loop of `parse_attrs` computes what the scan over the text still to read adds to the attributes. -/
def attrsComputes (attrStr : List Char) :
    Computes (fun st => st.1 < attrStr.length) (attrsPass attrStr) Prod.snd
      (fun st => parseAttrsFrom (attrStr.drop st.1) st.2) where
  measure st := attrStr.length - st.1
  exits := fun ⟨i, attrs⟩ failed => by
    have beyond : attrStr.length ≤ i := by simpa using failed
    exact (parseAttrsFrom_blank attrs (by rw [List.drop_eq_nil_of_le beyond]; rfl)).symm
  stops := fun ⟨i, attrs⟩ _ _ went => by
    cases skipped : (attrStr.drop i).dropWhile attrBlank with
    | nil =>
      rw [attrsPass_blank attrs skipped] at went
      cases went
      exact (parseAttrsFrom_blank attrs skipped).symm
    | cons c rest =>
      obtain ⟨k, again, -⟩ := attrsPass_step attrs skipped
      rw [again] at went
      cases went
  nexts := fun ⟨i, attrs⟩ _ passed went => by
    have within : i < attrStr.length := by simpa using passed
    cases skipped : (attrStr.drop i).dropWhile attrBlank with
    | nil =>
      rw [attrsPass_blank attrs skipped] at went
      cases went
    | cons c rest =>
      obtain ⟨k, again, following⟩ := attrsPass_step attrs skipped
      have moved := attrsPass_advances again
      rw [again] at went
      cases went
      refine ⟨show attrStr.length - k < attrStr.length - i by omega, ?_⟩
      show parseAttrsFrom (attrStr.drop k) _ = parseAttrsFrom (attrStr.drop i) attrs
      rw [following, parseAttrsFrom_item attrs skipped]

/-- The loop of `parse_attrs` ends within a pass per character, and returns what the model reads. -/
theorem parseAttrsLoop_eq (attrStr : String) : parseAttrsLoop attrStr = some (parseAttrs attrStr) :=
  (attrsComputes attrStr.data).run (show attrStr.data.length - 0 < attrStr.data.length + 1 by omega)

/-! ## `parse_html` -/

/--
One pass of the loop of `parse_html` at index `i` with the stack of open elements. At a `<` the tag up to the next
`>` is handled, or the loop breaks when there is none; elsewhere the text up to the next `<` is.
-/
def htmlPass (html : List Char) : Nat × Frames → Pass (Nat × Frames)
  | (i, frames) =>
    if html.getD i ' ' = '<' then
      match findFrom '>' html i with
      | none => .stop (i, frames)
      | some endPos => .next (endPos + 1, handleTag (stripList (slice html (i + 1) endPos)) frames)
    else
      let nextTag := (findFrom '<' html i).getD html.length
      .next (nextTag, handleText (slice html i nextTag) frames)

/-- `parse_html` as the code runs it: its loop from index 0 with the root alone, allowed a pass per character. -/
def parseHtmlLoop (html : String) : Option Element :=
  (whileLoop (fun st => st.1 < html.data.length) (htmlPass html.data) (html.data.length + 1) (0, rootFrames)).map
    fun st => st.2.close

/-- A `<` with no `>` after it ends the scan with the stack as it is. -/
theorem parseFrom_unclosed {rest : List Char} (missing : findChar '>' rest = none) (frames : Frames) :
    parseFrom ('<' :: rest) frames = frames := by
  rw [parseFrom.eq_2]
  simp [missing]

/--
A pass at a character `c` breaks where the scan over the text still to read stops, or moves forward to where that
scan goes on, with the stack it goes on with.
-/
theorem htmlPass_step {html rest : List Char} {i : Nat} {c : Char} (at_i : html.drop i = c :: rest)
    (frames : Frames) :
    (htmlPass html (i, frames) = .stop (i, frames) ∧ parseFrom (c :: rest) frames = frames) ∨
      ∃ j frames', htmlPass html (i, frames) = .next (j, frames') ∧ i < j ∧
        parseFrom (html.drop j) frames' = parseFrom (c :: rest) frames := by
  obtain ⟨within, read⟩ := getD_of_drop_eq_cons at_i ' '
  have after := drop_succ_of_drop_eq_cons at_i
  by_cases tag : c = '<'
  · subst tag
    have search := findFrom_of_ne at_i (by decide : '<' ≠ '>')
    cases found : findChar '>' rest with
    | none =>
      -- No `>`: the loop breaks.
      refine .inl ⟨?_, parseFrom_unclosed found frames⟩
      simp only [htmlPass, read, search, found, Option.map_none', if_true]
    | some k =>
      -- A tag: handled, and the scan goes on after its `>`.
      refine .inr ⟨k + (i + 1) + 1, handleTag (stripList (rest.take k)) frames, ?_, by omega, ?_⟩
      · have content : slice html (i + 1) (k + (i + 1)) = rest.take k := by
          rw [slice, after, Nat.add_sub_cancel]
        simp only [htmlPass, read, search, found, Option.map_some', if_true, content]
      · rw [parseFrom_tag found, show k + (i + 1) + 1 = i + 1 + (k + 1) by omega, ← List.drop_drop, after]
  · -- Text: up to the next `<`, which lies beyond `i` since `html[i]` is not one.
    have text : (html.drop i).takeWhile (· ≠ '<') = c :: rest.takeWhile (· ≠ '<') := by
      rw [at_i, List.takeWhile_cons, if_pos (by simpa using tag)]
    refine .inr ⟨skipWhile (· ≠ '<') html i, handleText (c :: rest.takeWhile (· ≠ '<')) frames, ?_, ?_, ?_⟩
    · simp only [htmlPass, read, if_neg tag, findFrom_getD_length within.le, slice_skipWhile, text]
    · rw [skipWhile_eq, text, List.length_cons]
      omega
    · rw [drop_skipWhile, at_i, List.dropWhile_cons, if_pos (by simpa using tag), parseFrom_text tag]

/-- Every pass of `parse_html` that goes round again moves past the tag or the text it reads. -/
theorem htmlPass_advances {html : List Char} {i j : Nat} {frames frames' : Frames} (within : i < html.length)
    (went : htmlPass html (i, frames) = .next (j, frames')) : i < j := by
  rcases htmlPass_step (drop_eq_getD_cons within ' ') frames with ⟨broke, -⟩ | ⟨k, _, again, moved, -⟩
  · rw [broke] at went
    cases went
  · rw [again] at went
    cases went
    exact moved

/-- The loop of `parse_html` computes the tree of what the scan over the text still to read does to the stack. -/
def htmlComputes (html : List Char) :
    Computes (fun st => st.1 < html.length) (htmlPass html) (fun st => st.2.close)
      (fun st => (parseFrom (html.drop st.1) st.2).close) where
  measure st := html.length - st.1
  exits := fun ⟨i, frames⟩ failed => by
    have beyond : html.length ≤ i := by simpa using failed
    rw [List.drop_eq_nil_of_le beyond, parseFrom.eq_1]
  stops := fun ⟨i, frames⟩ _ passed went => by
    have at_i := drop_eq_getD_cons (show i < html.length by simpa using passed) ' '
    rcases htmlPass_step at_i frames with ⟨broke, ends⟩ | ⟨k, _, again, -, -⟩
    · rw [broke] at went
      cases went
      rw [at_i, ends]
    · rw [again] at went
      cases went
  nexts := fun ⟨i, frames⟩ _ passed went => by
    have within : i < html.length := by simpa using passed
    have at_i := drop_eq_getD_cons within ' '
    rcases htmlPass_step at_i frames with ⟨broke, -⟩ | ⟨k, _, again, moved, goesOn⟩
    · rw [broke] at went
      cases went
    · rw [again] at went
      cases went
      refine ⟨show html.length - k < html.length - i by omega, ?_⟩
      show (parseFrom (html.drop k) _).close = (parseFrom (html.drop i) frames).close
      rw [goesOn, ← at_i]

/-- The loop of `parse_html` ends within a pass per character, and returns the tree the model builds. -/
theorem parseHtmlLoop_eq (html : String) : parseHtmlLoop html = some (parseHtml html) :=
  (htmlComputes html.data).run (show html.data.length - 0 < html.data.length + 1 by omega)

/-! ## The three loops together -/

/--
On every page the loop of `parse_html` moves its index forward on each pass that goes round again, so it ends
within a pass per character, returning the tree of the model; and on every string the loops of `parse_attrs` and
`decode_entities` do the same, returning the model's attributes and text. No pass can raise: `int` and `chr` on a
numeric reference fail into `decodeReference`'s none, and the pass then keeps the reference as written.
-/
theorem parse_loops_advance_and_return (html : String) :
    ((∀ i frames j frames', i < html.data.length → htmlPass html.data (i, frames) = .next (j, frames') → i < j) ∧
      parseHtmlLoop html = some (parseHtml html)) ∧
    ∀ s : String,
      ((∀ i attrs j attrs', attrsPass s.data (i, attrs) = .next (j, attrs') → i < j) ∧
        parseAttrsLoop s = some (parseAttrs s)) ∧
      ((∀ i result j result', decodePass s.data (i, result) = .next (j, result') → i < j) ∧
        decodeEntitiesLoop s = some (decodeEntities s)) :=
  ⟨⟨fun _ _ _ _ within went => htmlPass_advances within went, parseHtmlLoop_eq html⟩, fun s =>
    ⟨⟨fun _ _ _ _ went => attrsPass_advances went, parseAttrsLoop_eq s⟩,
      ⟨fun _ _ _ _ went => decodePass_advances went, decodeEntitiesLoop_eq s⟩⟩⟩

end Kivi
