import Mathlib.Data.Nat.Digits
import Kivi.Python.Str

/-!
Splitting on blanks and joining with one blank undo each other on words; `int()` reads back what `str()` prints;
lower-casing twice is lower-casing once; a slice at a position inside a text cuts it there.
-/

namespace Kivi

/-- A word as `str.split()` returns it: nonempty and free of blanks. -/
def IsWord (w : List Char) : Prop :=
  w ≠ [] ∧ ∀ c ∈ w, isSpace c = false

/-- A run of non-blank characters is taken into the current word. -/
theorem splitWordsFrom_append_word {w : List Char} (solid : ∀ c ∈ w, isSpace c = false)
    (rest word : List Char) :
    splitWordsFrom (w ++ rest) word = splitWordsFrom rest (w.reverse ++ word) := by
  -- Each character of the run extends the reversed word by one.
  induction w generalizing word with
  | nil => rfl
  | cons c w ih =>
    simp only [List.mem_cons, forall_eq_or_imp] at solid
    simp [splitWordsFrom, solid.1, ih solid.2]

/-- A blank cuts the input into two halves that split independently. -/
theorem splitWordsFrom_append_space {c : Char} (blank : isSpace c = true)
    (before after word : List Char) :
    splitWordsFrom (before ++ c :: after) word = splitWordsFrom before word ++ splitWords after := by
  -- The blank flushes whatever word the first half left open.
  induction before generalizing word with
  | nil => simp [splitWordsFrom, blank, splitWords]
  | cons x before ih =>
    by_cases space : isSpace x
    · simp [splitWordsFrom, space, ih]
    · simp [splitWordsFrom, space, ih]

/-- Splitting with a blank in the middle is splitting each side. -/
theorem splitWords_append_space {c : Char} (blank : isSpace c = true) (before after : List Char) :
    splitWords (before ++ c :: after) = splitWords before ++ splitWords after :=
  splitWordsFrom_append_space blank before after []

/-- A word on its own splits to itself. -/
theorem splitWords_word {w : List Char} (word : IsWord w) : splitWords w = [w] := by
  -- The whole input extends the open word, which the end of input closes.
  have := splitWordsFrom_append_word word.2 [] []
  simp only [List.append_nil] at this
  simp [splitWords, this, splitWordsFrom, flushWord, word.1]

/-- The word a blank or the end of the input closes is a word. -/
theorem isWord_of_mem_flushWord {word w : List Char} (solid : ∀ c ∈ word, isSpace c = false)
    (member : w ∈ flushWord word) : IsWord w := by
  unfold flushWord at member
  split at member
  · cases member
  · obtain rfl := List.mem_singleton.mp member
    exact ⟨by simpa, by simpa using solid⟩

/-- Every piece `str.split()` returns is a word. -/
theorem isWord_of_mem_splitWordsFrom {cs word w : List Char}
    (solid : ∀ c ∈ word, isSpace c = false) (member : w ∈ splitWordsFrom cs word) : IsWord w := by
  -- The open word only ever receives non-blank characters.
  induction cs generalizing word with
  | nil => exact isWord_of_mem_flushWord solid member
  | cons c cs ih =>
    rw [splitWordsFrom] at member
    split at member
    · -- A blank closes the open word and starts an empty one.
      rcases List.mem_append.mp member with flushed | later
      · exact isWord_of_mem_flushWord solid flushed
      · exact ih (by simp) later
    · -- Any other character extends the open word.
      rename_i plain
      exact ih (List.forall_mem_cons.mpr ⟨by simpa using plain, solid⟩) member

/-- Every piece `str.split()` returns is a word. -/
theorem isWord_of_mem_splitWords {cs w : List Char} (member : w ∈ splitWords cs) : IsWord w :=
  isWord_of_mem_splitWordsFrom (by simp) member

/-- Joining words with one blank and splitting again gives the words back. -/
theorem splitWords_joinWith {c : Char} (blank : isSpace c = true) :
    ∀ {ws : List (List Char)}, (∀ w ∈ ws, IsWord w) → splitWords (joinWith [c] ws) = ws
  | [], _ => rfl
  | [w], words => by simpa [joinWith] using splitWords_word (words w (by simp))
  | w :: v :: ws, words => by
    -- The first word is cut off by the blank after it, and the rest is the same claim.
    have first : IsWord w := words w (by simp)
    have rest := @splitWords_joinWith c blank (v :: ws) (fun x mem => words x (by simp [mem]))
    simp only [joinWith, List.append_assoc, List.singleton_append] at rest ⊢
    rw [splitWords_append_space blank, splitWords_word first, rest]
    rfl

/-- A text of blanks only has no words. -/
theorem splitWords_of_blank {cs : List Char} (blank : ∀ c ∈ cs, isSpace c = true) : splitWords cs = [] := by
  -- Each blank flushes an empty word.
  induction cs with
  | nil => rfl
  | cons c cs ih =>
    simp only [List.mem_cons, forall_eq_or_imp] at blank
    simpa [splitWords, splitWordsFrom, blank.1, flushWord] using ih blank.2

/-- A text that `str.strip()` empties is blanks only. -/
theorem blank_of_stripList_eq_nil {cs : List Char} (empty : stripList cs = []) : ∀ c ∈ cs, isSpace c = true := by
  -- The text left after the leading blanks starts with no blank, so nothing is left.
  have rest : cs.dropWhile isSpace = [] := by
    cases left : cs.dropWhile isSpace with
    | nil => rfl
    | cons x xs =>
      have solid : isSpace x = false := by simpa [left] using List.head_dropWhile_not isSpace cs (by simp [left])
      simp only [stripList, left, List.reverse_cons, List.dropWhile_append, List.reverse_eq_nil_iff] at empty
      split at empty <;> simp [solid] at empty
  intro c member
  simpa using List.dropWhile_eq_nil_iff.mp rest c member

/-- A text with no word read, and no word pending, is blanks only. -/
theorem blank_of_splitWordsFrom_eq_nil : ∀ {cs word : List Char}, splitWordsFrom cs word = [] →
    word = [] ∧ ∀ c ∈ cs, isSpace c = true
  | [], word, nothing => by
    unfold splitWordsFrom flushWord at nothing
    split at nothing
    · exact ⟨‹_›, nofun⟩
    · cases nothing
  | c :: rest, word, nothing => by
    rw [splitWordsFrom] at nothing
    split at nothing
    · -- A blank: the pending word was empty, and so is what follows.
      rename_i blank
      obtain ⟨flushed, later⟩ := List.append_eq_nil.mp nothing
      have empty : word = [] := by
        unfold flushWord at flushed
        split at flushed
        · assumption
        · cases flushed
      exact ⟨empty, List.forall_mem_cons.mpr ⟨blank, (blank_of_splitWordsFrom_eq_nil later).2⟩⟩
    · exact absurd (blank_of_splitWordsFrom_eq_nil nothing).1 (List.cons_ne_nil _ _)

/-- Joining two nonempty lists of parts puts one separator between them. -/
theorem joinWith_append (sep : List Char) {a b : List (List Char)} (left : a ≠ []) (right : b ≠ []) :
    joinWith sep (a ++ b) = joinWith sep a ++ sep ++ joinWith sep b := by
  induction a with
  | nil => exact absurd rfl left
  | cons x xs ih =>
    cases xs with
    | nil =>
      obtain ⟨y, ys, rfl⟩ := List.exists_cons_of_ne_nil right
      rfl
    | cons x' xs' =>
      -- The first part, a separator, and the join of the rest.
      show x ++ sep ++ joinWith sep (x' :: xs' ++ b) = x ++ sep ++ joinWith sep (x' :: xs') ++ sep ++ joinWith sep b
      rw [ih (List.cons_ne_nil _ _)]
      simp only [List.append_assoc]

/-! ## Words of strings -/

/-- A text of no words is blanks only. -/
theorem blank_of_pySplit_eq_nil {s : String} (nothing : pySplit s = []) : ∀ c ∈ s.data, isSpace c = true :=
  (blank_of_splitWordsFrom_eq_nil (List.map_eq_nil_iff.mp nothing)).2

/-- The empty string has no words. -/
@[simp] theorem pySplit_empty : pySplit "" = [] :=
  rfl

/-- Every piece of `str.split()` on a string is a word. -/
theorem isWord_of_mem_pySplit {s w : String} (member : w ∈ pySplit s) : IsWord w.data := by
  obtain ⟨cs, split, rfl⟩ := List.mem_map.mp member
  exact isWord_of_mem_splitWords split

/-- A word splits to itself. -/
theorem pySplit_word {w : String} (word : IsWord w.data) : pySplit w = [w] := by
  simp [pySplit, splitWords_word word]

/-- Joining words with one blank and splitting again gives the words back. -/
theorem pySplit_pyJoin {ws : List String} (words : ∀ w ∈ ws, IsWord w.data) : pySplit (pyJoin " " ws) = ws := by
  have split : splitWords (joinWith [' '] (ws.map String.data)) = ws.map String.data :=
    splitWords_joinWith (by decide) (by simpa using words)
  simp only [pySplit, pyJoin, split, List.map_map]
  exact List.map_id'' (fun _ => rfl) ws

/-- Splitting, joining with one blank and splitting again changes nothing. -/
theorem pySplit_pyJoin_pySplit (s : String) : pySplit (pyJoin " " (pySplit s)) = pySplit s :=
  pySplit_pyJoin fun _ member => isWord_of_mem_pySplit member

/-- A blank between two texts cuts their words apart. -/
theorem pySplit_append_blank (a b : String) : pySplit (a ++ " " ++ b) = pySplit a ++ pySplit b := by
  have split := splitWords_append_space (c := ' ') (by decide) a.data b.data
  simp only [pySplit, String.append_assoc, String.data_append]
  simp [split]

/-! ## Searching for a character -/

/-- A search over two halves finds the first half's occurrence, else one in the second half. -/
theorem findChar_append (c : Char) (xs ys : List Char) :
    findChar c (xs ++ ys) = (findChar c xs).or ((findChar c ys).map (· + xs.length)) := by
  -- This is the library's law for `findIdx?` on an append.
  simp [findChar]

/-- The search fails exactly when the character is absent. -/
@[simp] theorem findChar_eq_none {c : Char} {xs : List Char} : findChar c xs = none ↔ c ∉ xs := by
  simp only [findChar, List.findIdx?_eq_none_iff, decide_eq_false_iff_not]
  exact ⟨fun none member => none c member rfl, fun absent x member same => absent (same ▸ member)⟩

/-- A position the search returns lies inside the list. -/
theorem findChar_lt {c : Char} {xs : List Char} {k : Nat} (found : findChar c xs = some k) :
    k < xs.length :=
  (List.findIdx?_eq_some_iff_findIdx_eq.mp found).1

/-- When the first half holds the character, the second half is never searched. -/
theorem findChar_append_of_some {c : Char} {xs : List Char} {k : Nat} (found : findChar c xs = some k)
    (ys : List Char) : findChar c (xs ++ ys) = some k := by
  simp [findChar_append, found]

/-- When the first half lacks the character, positions in the second half are shifted by its length. -/
theorem findChar_append_of_not_mem {c : Char} {xs : List Char} (absent : c ∉ xs) (ys : List Char) :
    findChar c (xs ++ ys) = (findChar c ys).map (· + xs.length) := by
  simp [findChar_append, findChar_eq_none.mpr absent]

/-- The first occurrence, after a run that lacks the character, is right after that run. -/
theorem findChar_append_cons {c : Char} {xs : List Char} (absent : c ∉ xs) (ys : List Char) :
    findChar c (xs ++ c :: ys) = some xs.length := by
  rw [findChar_append_of_not_mem absent]
  simp [findChar]

/-- Where the search stops the character stands, and it is absent before. -/
theorem findChar_eq_some {c : Char} {xs : List Char} {k : Nat} (found : findChar c xs = some k) :
    c ∉ xs.take k ∧ xs.drop k = c :: xs.drop (k + 1) := by
  obtain ⟨within, here, before⟩ := List.findIdx?_eq_some_iff_getElem.mp found
  refine ⟨fun member => ?_, ?_⟩
  · obtain ⟨j, bound, same⟩ := List.mem_take_iff_getElem.mp member
    exact before j (by omega) (by simp [same])
  · rw [List.drop_eq_getElem_cons within, of_decide_eq_true here]

/-! ## Printing and reading back a number -/

/-- A decimal digit `str()` prints is read back by `int()`, and is no blank, sign or `_`. -/
theorem digitChar_read (d : Nat) (small : d < 10) :
    digitIn 10 (Nat.digitChar d) = some d ∧ isSpace (Nat.digitChar d) = false ∧ Nat.digitChar d ≠ '-' ∧
      Nat.digitChar d ≠ '+' ∧ Nat.digitChar d ≠ '_' ∧ Nat.digitChar d ≠ '/' := by
  have table : ∀ d : Fin 10, digitIn 10 (Nat.digitChar d) = some d ∧ isSpace (Nat.digitChar d) = false ∧
      Nat.digitChar d ≠ '-' ∧ Nat.digitChar d ≠ '+' ∧ Nat.digitChar d ≠ '_' ∧ Nat.digitChar d ≠ '/' := by decide
  exact table ⟨d, small⟩

/-- A digit is read on its own, as the next place of the value. -/
theorem readDigitsFrom_digitChar (acc : Nat) {d : Nat} (small : d < 10) (rest : List Char) :
    readDigitsFrom 10 acc (Nat.digitChar d :: rest) = readDigitsFrom 10 (acc * 10 + d) rest := by
  obtain ⟨read, -, -, -, plain, -⟩ := digitChar_read d small
  rw [readDigitsFrom.eq_3 _ _ _ _ fun _ _ underscore _ => plain underscore, read]
  rfl

/-- The digits `str()` prints ahead of others are read on top of a value as that value shifted past them, plus the number. -/
theorem toDigitsCore_read : ∀ (fuel n : Nat) (ds : List Char), n < fuel →
    ∃ k, ∀ acc, readDigitsFrom 10 acc (Nat.toDigitsCore 10 fuel n ds) = readDigitsFrom 10 (acc * 10 ^ k + n) ds
  | 0, _, _, small => absurd small (Nat.not_lt_zero _)
  | fuel + 1, n, ds, small => by
    rw [Nat.toDigitsCore]
    split
    · -- The last digit left to print is the leading one.
      refine ⟨1, fun acc => ?_⟩
      rw [readDigitsFrom_digitChar acc (Nat.mod_lt n (by decide))]
      congr 1
      omega
    · -- The lower digit is printed, then the higher ones ahead of it.
      obtain ⟨k, read⟩ := toDigitsCore_read fuel (n / 10) _ (by omega)
      refine ⟨k + 1, fun acc => ?_⟩
      rw [read, readDigitsFrom_digitChar _ (Nat.mod_lt n (by decide)), pow_succ, Nat.add_mul, Nat.mul_assoc,
        Nat.add_assoc]
      congr 2
      omega

/-- Printing more digits ahead of a digit keeps a digit in front. -/
theorem toDigitsCore_head : ∀ (fuel n : Nat) {ds : List Char}, (∃ d < 10, ∃ rest, ds = Nat.digitChar d :: rest) →
    ∃ d < 10, ∃ rest, Nat.toDigitsCore 10 fuel n ds = Nat.digitChar d :: rest
  | 0, _, _, lead => lead
  | fuel + 1, n, _, _ => by
    rw [Nat.toDigitsCore]
    split
    · exact ⟨_, Nat.mod_lt n (by decide), _, rfl⟩
    · exact toDigitsCore_head fuel (n / 10) ⟨_, Nat.mod_lt n (by decide), _, rfl⟩

/-- `str()` of a number begins with a digit. -/
theorem toDigits_head (m : Nat) : ∃ d < 10, ∃ rest, Nat.toDigits 10 m = Nat.digitChar d :: rest := by
  rw [Nat.toDigits, Nat.toDigitsCore]
  split
  · exact ⟨_, Nat.mod_lt m (by decide), _, rfl⟩
  · exact toDigitsCore_head m (m / 10) ⟨_, Nat.mod_lt m (by decide), _, rfl⟩

/-- `str()` prints nothing but digits ahead of what was printed. -/
theorem mem_toDigitsCore : ∀ (fuel n : Nat) {ds : List Char} {c : Char}, c ∈ Nat.toDigitsCore 10 fuel n ds →
    c ∈ ds ∨ ∃ d < 10, c = Nat.digitChar d
  | 0, _, _, _, member => .inl member
  | fuel + 1, n, ds, c, member => by
    rw [Nat.toDigitsCore] at member
    have printed : c ∈ Nat.digitChar (n % 10) :: ds → c ∈ ds ∨ ∃ d < 10, c = Nat.digitChar d := fun held =>
      (List.mem_cons.mp held).elim (fun same => .inr ⟨_, Nat.mod_lt n (by decide), same⟩) .inl
    split at member
    · exact printed member
    · exact (mem_toDigitsCore fuel (n / 10) member).elim printed .inr

/-- A run with no blank is what `str.strip()` leaves of it. -/
theorem stripList_of_solid {cs : List Char} (solid : ∀ c ∈ cs, isSpace c = false) : stripList cs = cs := by
  have kept : ∀ xs : List Char, (∀ c ∈ xs, isSpace c = false) → xs.dropWhile isSpace = xs
    | [], _ => rfl
    | x :: _, held => List.dropWhile_cons_of_neg (by simp [held x (List.mem_cons_self _ _)])
  rw [stripList, kept cs solid, kept _ (fun c member => solid c (List.mem_reverse.mp member)), List.reverse_reverse]

/-- In base 10 there is no `0x` prefix to skip. -/
theorem unsignedIn_ten (cs : List Char) : unsignedIn 10 cs = readDigits 10 cs := by
  unfold unsignedIn
  split
  · exact if_neg fun hex => absurd hex.1 (by decide)
  · rfl

/-- `int()` reads back the digits `str()` prints of a natural number. -/
theorem readDigits_toDigits (m : Nat) : readDigits 10 (Nat.toDigits 10 m) = some m := by
  obtain ⟨d, small, rest, lead⟩ := toDigits_head m
  obtain ⟨k, read⟩ := toDigitsCore_read (m + 1) m [] (Nat.lt_succ_self m)
  have whole := read 0
  rw [← Nat.toDigits, lead, readDigitsFrom_digitChar 0 small] at whole
  rw [lead, readDigits, (digitChar_read d small).1]
  simpa [readDigitsFrom] using whole

/-- `int(str(n))` is `n` for every integer: the digits, behind a minus sign for a negative one. -/
theorem pyInt_toString (n : Int) : pyInt (toString n) 10 = some n := by
  have solid : ∀ m, ∀ c ∈ Nat.toDigits 10 m, isSpace c = false := fun m c member =>
    (mem_toDigitsCore _ _ member).elim nofun fun ⟨d, small, same⟩ => same ▸ (digitChar_read d small).2.1
  cases n with
  | ofNat m =>
    obtain ⟨d, small, rest, lead⟩ := toDigits_head m
    obtain ⟨-, -, minus, plus, -, -⟩ := digitChar_read d small
    show pyInt ⟨Nat.toDigits 10 m⟩ 10 = some m
    rw [pyInt, stripList_of_solid (solid m)]
    split
    · rename_i signed; exact absurd (List.cons.inj (lead.symm.trans signed)).1 minus
    · rename_i signed; exact absurd (List.cons.inj (lead.symm.trans signed)).1 plus
    · rw [unsignedIn_ten, readDigits_toDigits]
      rfl
  | negSucc m =>
    show pyInt ⟨'-' :: Nat.toDigits 10 (m + 1)⟩ 10 = some (Int.negSucc m)
    rw [pyInt, stripList_of_solid (List.forall_mem_cons.mpr ⟨by decide, solid (m + 1)⟩)]
    show (unsignedIn 10 (Nat.toDigits 10 (m + 1))).map (fun n => -(n : Int)) = some (Int.negSucc m)
    rw [unsignedIn_ten, readDigits_toDigits]
    rfl

/-- `str()` of an integer prints a minus sign and digits only. -/
theorem mem_toString {n : Int} {c : Char} (member : c ∈ (toString n).data) :
    c = '-' ∨ ∃ d < 10, c = Nat.digitChar d := by
  cases n with
  | ofNat m => exact (mem_toDigitsCore _ _ member).elim nofun .inr
  | negSucc m =>
    rcases List.mem_cons.mp member with rfl | digit
    · exact .inl rfl
    · exact (mem_toDigitsCore _ _ digit).elim nofun .inr

/-! ## Floor division -/

/-- A floor division by a non-zero divisor does not raise. -/
theorem pyFloorDiv_of_ne_zero (a : Int) {b : Int} (nonzero : b ≠ 0) : pyFloorDiv a b = .ok (a.fdiv b) :=
  if_neg nonzero

/-! ## Lower-casing -/

/-- Lower-casing a character twice is lower-casing it once. -/
theorem toLower_toLower (c : Char) : c.toLower.toLower = c.toLower := by
  by_cases upper : c.toNat ≥ 65 ∧ c.toNat ≤ 90
  · -- An upper-case letter becomes a lower-case one, which stays.
    have table : ∀ i : Fin 26, (Char.ofNat (65 + i + 32)).toLower = Char.ofNat (65 + i + 32) := by decide
    have lowered : c.toLower = Char.ofNat (c.toNat + 32) := if_pos upper
    have kept := table ⟨c.toNat - 65, by omega⟩
    rw [show 65 + (c.toNat - 65) = c.toNat by omega] at kept
    rw [lowered, kept]
  · have kept : c.toLower = c := if_neg upper
    rw [kept, kept]

/-- `s.lower().lower()` is `s.lower()`. -/
@[simp] theorem pyLower_pyLower (s : String) : pyLower (pyLower s) = pyLower s := by
  simp only [pyLower, List.map_map]
  congr 1
  exact List.map_congr_left fun c _ => toLower_toLower c

/-- A text lower-cased is empty exactly when it was. -/
theorem pyLower_eq_empty {cs : List Char} : pyLower ⟨cs⟩ = "" ↔ cs = [] := by
  rw [pyLower]
  exact ⟨fun same => List.map_eq_nil_iff.mp (congrArg String.data same), fun empty => by rw [empty]; rfl⟩

/-! ## Slices -/

/-- A slice bound inside a sequence stands where it says. -/
theorem sliceBound_of_le {len : Nat} {k : Int} (nonneg : 0 ≤ k) (within : k ≤ len) : sliceBound len k = k.toNat := by
  rw [sliceBound, if_neg (not_lt.mpr nonneg)]
  omega

/-- `s[:k]` at a position inside `s` is its first `k` characters. -/
theorem sliceTo_of_le {cs : List Char} {k : Int} (nonneg : 0 ≤ k) (within : k ≤ cs.length) :
    sliceTo cs k = cs.take k.toNat := by
  rw [sliceTo, sliceBound_of_le nonneg within]

/-- `s[k:]` at a position inside `s` is what follows its first `k` characters. -/
theorem sliceFrom_of_le {cs : List Char} {k : Int} (nonneg : 0 ≤ k) (within : k ≤ cs.length) :
    sliceFrom cs k = cs.drop k.toNat := by
  rw [sliceFrom, sliceBound_of_le nonneg within]

end Kivi
