import Kivi.Python.StrLaws

/-! Python's `while` loop with `break`, and the index scans, searches and slices that loops over a string use. -/

namespace Kivi

/-- What one pass of a `while` body ends with: a fresh test of the loop condition, or `break`. -/
inductive Pass (σ : Type) where
  /-- The body ran to its end, or to `continue`. -/
  | next (s : σ)
  /-- The body left the loop with `break`. -/
  | stop (s : σ)

/-- `while cond(s): body(s)`, allowed `fuel` passes: none when they run out before the loop ends. -/
def whileLoop {σ : Type} (cond : σ → Bool) (body : σ → Pass σ) : Nat → σ → Option σ
  | 0, _ => none
  | fuel + 1, s =>
    if cond s then
      match body s with
      | .next s' => whileLoop cond body fuel s'
      | .stop s' => some s'
    else some s

/--
What makes a `while` loop compute `result`, read off its last state by `out`: a measure that every pass that
goes round again lowers, and `result` kept by such a pass and reached by the loop's two ways out.
-/
structure Computes {σ α : Type} (cond : σ → Bool) (body : σ → Pass σ) (out : σ → α) (result : σ → α) where
  /-- What is left to do: it bounds the passes still to come. -/
  measure : σ → Nat
  /-- A failed test leaves the loop with its answer. -/
  exits : ∀ s, cond s = false → out s = result s
  /-- A `break` leaves the loop with its answer. -/
  stops : ∀ s s', cond s = true → body s = .stop s' → out s' = result s
  /-- A pass that goes round again leaves less to do and the same answer. -/
  nexts : ∀ s s', cond s = true → body s = .next s' → measure s' < measure s ∧ result s' = result s

/-- A loop that computes `result` ends within `measure s + 1` passes, in a state `out` reads `result s` from. -/
theorem Computes.run {σ α : Type} {cond : σ → Bool} {body : σ → Pass σ} {out result : σ → α}
    (spec : Computes cond body out result) : ∀ {fuel : Nat} {s : σ}, spec.measure s < fuel →
      (whileLoop cond body fuel s).map out = some (result s)
  | 0, _, short => absurd short (Nat.not_lt_zero _)
  | fuel + 1, s, enough => by
    rw [whileLoop]
    cases passed : cond s
    · rw [if_neg Bool.false_ne_true, Option.map_some', spec.exits s passed]
    · rw [if_pos rfl]
      cases went : body s with
      | next s' =>
        obtain ⟨lower, same⟩ := spec.nexts s s' passed went
        rw [← same]
        exact spec.run (by omega)
      | stop s' => exact congrArg some (spec.stops s s' passed went)

/-! ## Loops over a string -/

/-- `s.find(c, i)` for one character: the first position at or after `i` holding it, none for Python's `-1`. -/
def findFrom (c : Char) (cs : List Char) (i : Nat) : Option Nat :=
  (findChar c (cs.drop i)).map (· + i)

/-- `s[a:b]` for bounds that are not negative. -/
def slice (cs : List Char) (a b : Nat) : List Char :=
  (cs.drop a).take (b - a)

/--
`while i < len(s) and p(s[i]): i += 1`, allowed a pass per character; `s[i]` is read only below `len(s)`, so the
default of `getD` is never used.
-/
def skipWhile (p : Char → Bool) (cs : List Char) (i : Nat) : Nat :=
  (whileLoop (fun j => j < cs.length && p (cs.getD j ' ')) (fun j => .next (j + 1)) (cs.length + 1) i).getD i

/-- Below the end, what is left of a string starts with the character at the index. -/
theorem drop_eq_getD_cons {cs : List Char} {i : Nat} (within : i < cs.length) (d : Char) :
    cs.drop i = cs.getD i d :: cs.drop (i + 1) := by
  rw [List.drop_eq_getElem_cons within, List.getD_eq_getElem?_getD, List.getElem?_eq_getElem within,
    Option.getD_some]

/-- Where what is left of a string starts with a character, the index is inside it and holds that character. -/
theorem getD_of_drop_eq_cons {cs rest : List Char} {i : Nat} {c : Char} (at_i : cs.drop i = c :: rest) (d : Char) :
    i < cs.length ∧ cs.getD i d = c := by
  have within : i < cs.length := by
    rcases Nat.lt_or_ge i cs.length with within | beyond
    · exact within
    · rw [List.drop_eq_nil_of_le beyond] at at_i
      cases at_i
  exact ⟨within, (List.cons.inj ((drop_eq_getD_cons within d).symm.trans at_i)).1⟩

/-- One index further, what is left loses its first character. -/
theorem drop_succ_of_drop_eq_cons {cs rest : List Char} {i : Nat} {c : Char} (at_i : cs.drop i = c :: rest) :
    cs.drop (i + 1) = rest := by
  rw [← List.tail_drop, at_i, List.tail_cons]

/-- The scan's loop ends within a pass per character, at the first character that fails the test or at the end. -/
theorem skipWhile_loop (p : Char → Bool) (cs : List Char) (i : Nat) :
    whileLoop (fun j => j < cs.length && p (cs.getD j ' ')) (fun j => .next (j + 1)) (cs.length + 1) i =
      some (i + ((cs.drop i).takeWhile p).length) := by
  -- Each pass steps over one character of the run; the run is what `takeWhile` takes.
  let spec : Computes (fun j => j < cs.length && p (cs.getD j ' ')) (fun j => .next (j + 1)) id
      (fun j => j + ((cs.drop j).takeWhile p).length) :=
    { measure := fun j => cs.length - j
      exits := fun j failed => by
        rcases Nat.lt_or_ge j cs.length with within | beyond
        · have rejected : p (cs.getD j ' ') = false := by simpa [within] using failed
          rw [drop_eq_getD_cons within ' ', List.takeWhile_cons, rejected]
          rfl
        · simp [List.drop_eq_nil_of_le beyond]
      stops := fun _ _ _ went => by cases went
      nexts := fun j _ passed went => by
        cases went
        obtain ⟨within, accepted⟩ : j < cs.length ∧ p (cs.getD j ' ') = true := by simpa using passed
        refine ⟨show cs.length - (j + 1) < cs.length - j by omega, ?_⟩
        simp only [drop_eq_getD_cons within ' ', List.takeWhile_cons, accepted, if_true, List.length_cons]
        omega }
  simpa only [Option.map_id, id_eq] using spec.run (show cs.length - i < cs.length + 1 by omega)

/-- The scan skips the longest run of characters that pass the test. -/
theorem skipWhile_eq (p : Char → Bool) (cs : List Char) (i : Nat) :
    skipWhile p cs i = i + ((cs.drop i).takeWhile p).length := by
  rw [skipWhile, skipWhile_loop, Option.getD_some]

/-- What is left after the scan is what `dropWhile` leaves. -/
theorem drop_skipWhile (p : Char → Bool) (cs : List Char) (i : Nat) :
    cs.drop (skipWhile p cs i) = (cs.drop i).dropWhile p := by
  have split := List.takeWhile_append_dropWhile p (cs.drop i)
  calc cs.drop (skipWhile p cs i)
      = ((cs.drop i).takeWhile p ++ (cs.drop i).dropWhile p).drop ((cs.drop i).takeWhile p).length := by
        rw [split, skipWhile_eq, List.drop_drop]
    _ = (cs.drop i).dropWhile p := List.drop_left _ _

/-- The slice the scan passes over is what `takeWhile` takes. -/
theorem slice_skipWhile (p : Char → Bool) (cs : List Char) (i : Nat) :
    slice cs i (skipWhile p cs i) = (cs.drop i).takeWhile p := by
  have split := List.takeWhile_append_dropWhile p (cs.drop i)
  calc slice cs i (skipWhile p cs i)
      = ((cs.drop i).takeWhile p ++ (cs.drop i).dropWhile p).take ((cs.drop i).takeWhile p).length := by
        rw [split, slice, skipWhile_eq, Nat.add_sub_cancel_left]
    _ = (cs.drop i).takeWhile p := List.take_left _ _

/-- A search for one character, read as `len(s)` when it fails, ends where a scan over other characters ends. -/
theorem findChar_getD_length (c : Char) : ∀ cs : List Char,
    (findChar c cs).getD cs.length = (cs.takeWhile (· ≠ c)).length
  | [] => rfl
  | x :: xs => by
    by_cases here : x = c
    · simp [findChar, List.findIdx?_cons, here]
    · have later := findChar_getD_length c xs
      simp only [findChar] at later ⊢
      rw [List.findIdx?_cons, if_neg (by simpa using here), List.findIdx?_succ, List.takeWhile_cons,
        if_pos (by simpa using here), List.length_cons, List.length_cons, ← later]
      cases xs.findIdx? (· = c) <;> rfl

/-- `s.find(c, i)`, read as `len(s)` when it fails, is where a scan over other characters from `i` stops. -/
theorem findFrom_getD_length {c : Char} {cs : List Char} {i : Nat} (within : i ≤ cs.length) :
    (findFrom c cs i).getD cs.length = skipWhile (· ≠ c) cs i := by
  have rest := findChar_getD_length c (cs.drop i)
  rw [List.length_drop] at rest
  rw [skipWhile_eq, findFrom, ← rest]
  cases findChar c (cs.drop i) <;> simp only [Option.map_some', Option.map_none', Option.getD_some,
    Option.getD_none] <;> omega

/-- A search from `i` finds nothing before `i`. -/
theorem le_of_findFrom {c : Char} {cs : List Char} {i k : Nat} (found : findFrom c cs i = some k) : i ≤ k := by
  obtain ⟨k', -, rfl⟩ := Option.map_eq_some'.mp found
  exact Nat.le_add_left _ _

/-- A search from a character other than the one sought starts at the next position. -/
theorem findFrom_of_ne {c x : Char} {cs rest : List Char} {i : Nat} (at_i : cs.drop i = x :: rest) (other : x ≠ c) :
    findFrom c cs i = (findChar c rest).map (· + (i + 1)) := by
  unfold findFrom findChar
  rw [at_i, List.findIdx?_cons, if_neg (by simpa using other), List.findIdx?_succ, Option.map_map]
  congr 1
  funext k
  show k + 1 + i = k + (i + 1)
  omega

end Kivi
