import Kivi.Html.Entities
import Kivi.Python.StrLaws

/-!
When a recognised reference decodes the same inside a longer text as on its own, and that decoding never lengthens
a text.
-/

namespace Kivi

/-- A character other than `&` is copied. -/
theorem decodeFrom_cons {c : Char} (plain : c ≠ '&') (rest : List Char) :
    decodeFrom (c :: rest) = c :: decodeFrom rest :=
  decodeFrom.eq_3 c rest plain

/-- A text without ampersands decodes to itself. -/
theorem decodeFrom_of_not_mem {cs : List Char} (absent : '&' ∉ cs) : decodeFrom cs = cs := by
  -- Every character takes the copying branch.
  induction cs with
  | nil => exact decodeFrom.eq_1
  | cons c rest ih =>
    simp only [List.mem_cons, not_or] at absent
    rw [decodeFrom_cons (Ne.symm absent.1), ih absent.2]

/-- A reference `&body;` followed by any text is decoded, then the text after its `;` is scanned. -/
theorem decodeFrom_reference {body : List Char} (noSemi : ';' ∉ body) (short : body.length + 1 < 12)
    (t : List Char) :
    decodeFrom ('&' :: (body ++ ';' :: t)) =
      (decodeReference body).getD ('&' :: (body ++ [';'])) ++ decodeFrom t := by
  -- The `;` that ends the body is the first one, and lies within the eleven-character window.
  rw [decodeFrom.eq_2, findChar_append_cons noSemi]
  simp [short, List.take_append_eq_append_take, List.drop_append_eq_append_drop,
    List.take_of_length_le, List.drop_of_length_le]

/-- The `;` of a reference is found right after its body. -/
theorem findChar_reference {body : List Char} (noSemi : ';' ∉ body) (t : List Char) :
    findChar ';' ('&' :: (body ++ ';' :: t)) = some (body.length + 1) := by
  rw [← List.cons_append, findChar_append_cons (by simp [noSemi])]
  rfl

/-- A reference that decodes on its own has a body short enough to be read at all. -/
theorem reference_short {body : List Char} (noAmp : '&' ∉ body) (noSemi : ';' ∉ body)
    (decodes : decodeFrom ('&' :: (body ++ [';'])) ≠ '&' :: (body ++ [';'])) : body.length + 1 < 12 := by
  -- Past the window the ampersand is copied, and so is the rest, which holds no ampersand.
  by_contra long
  apply decodes
  rw [decodeFrom.eq_2, findChar_append_cons noSemi]
  simp only [long, if_false]
  rw [decodeFrom_of_not_mem (by simp [noAmp])]

/--
The scan of `s` ends exactly where the reference starts, provided no ampersand of `s` that has no
`;` after it in `s` is close enough to the reference's `;` for the two to be read as one reference.
-/
theorem decodeFrom_append_reference {body : List Char} (noSemi : ';' ∉ body)
    (t : List Char) :
    ∀ s : List Char, (∀ pre post, s = pre ++ '&' :: post → ';' ∉ post → 10 ≤ post.length + body.length) →
      decodeFrom (s ++ '&' :: (body ++ ';' :: t)) =
        decodeFrom s ++ decodeFrom ('&' :: (body ++ ';' :: t)) := by
  intro s
  induction s using decodeFrom.induct with
  | case1 => intro; rw [List.nil_append, decodeFrom.eq_1, List.nil_append]
  | case2 rest k found short ih =>
    -- The reference inside `s` is the same reference in the longer text.
    intro far
    have inside := findChar_lt found
    rw [List.cons_append, decodeFrom.eq_2, decodeFrom.eq_2, findChar_append_of_some found, found]
    simp only [short, if_true, List.take_append_of_le_length (by omega : k ≤ rest.length),
      List.take_append_of_le_length (by omega : k + 1 ≤ rest.length),
      List.drop_append_of_le_length (by omega : k + 1 ≤ rest.length), List.append_assoc]
    rw [ih fun pre post split => far ('&' :: (rest.take (k + 1) ++ pre)) post (by
      rw [List.cons_append, List.append_assoc, ← split, List.take_append_drop])]
  | case3 rest k found long ih =>
    -- A body too long for the window leaves the ampersand as it is, in both texts.
    intro far
    rw [List.cons_append, decodeFrom.eq_2, decodeFrom.eq_2, findChar_append_of_some found, found]
    simp only [long, if_false, List.cons_append]
    rw [ih fun pre post split => far ('&' :: pre) post (by rw [split]; rfl)]
  | case4 rest absent ih =>
    -- The next `;` is the reference's own, which `far` puts outside the window.
    intro far
    have noSemiRest : ';' ∉ rest := findChar_eq_none.mp absent
    have distance := far [] rest rfl noSemiRest
    rw [List.cons_append, decodeFrom.eq_2, decodeFrom.eq_2, absent,
      findChar_append_of_not_mem noSemiRest, findChar_reference noSemi]
    simp only [Option.map_some']
    rw [if_neg (by omega), ih fun pre post split => far ('&' :: pre) post (by rw [split]; rfl)]
    rfl
  | case5 c rest plain ih =>
    intro far
    rw [List.cons_append, decodeFrom_cons plain, decodeFrom_cons plain,
      ih fun pre post split => far (c :: pre) post (by rw [split]; rfl)]
    rfl

/--
A reference `&body;` that decodes on its own decodes the same between any `s` and `t`, unless an
ampersand of `s` with no `;` after it lies fewer than `10 - len(body)` characters before the end
of `s`: the scan then reads that ampersand and the reference together as one unrecognised
reference, which passes through literally.
-/
theorem decodeEntities_reference_in_context (s t body : String) (noAmp : '&' ∉ body.data)
    (noSemi : ';' ∉ body.data) (decodes : decodeEntities ("&" ++ body ++ ";") ≠ "&" ++ body ++ ";")
    (far : ∀ pre post, s.data = pre ++ '&' :: post → ';' ∉ post → 10 ≤ post.length + body.length) :
    decodeEntities (s ++ ("&" ++ body ++ ";") ++ t) =
      decodeEntities s ++ decodeEntities ("&" ++ body ++ ";") ++ decodeEntities t := by
  -- On characters: the prefix ends at a boundary of the scan, and so does the reference.
  have decodesData : decodeFrom ('&' :: (body.data ++ [';'])) ≠ '&' :: (body.data ++ [';']) :=
    fun same => decodes (String.ext (by simpa [decodeEntities] using same))
  have short := reference_short noAmp noSemi decodesData
  apply String.ext
  have whole := decodeFrom_append_reference noSemi t.data s.data far
  simp only [decodeEntities, String.data_append] at whole ⊢
  simp only [List.singleton_append, List.cons_append, List.append_assoc, List.nil_append] at whole ⊢
  rw [whole, decodeFrom_reference noSemi short, decodeFrom_reference noSemi short, decodeFrom.eq_1,
    List.append_nil]

unseal decodeFrom in
/-- `&amp;` between `x` and `y`, where `x` holds no ampersand at all. -/
theorem decodeEntities_reference_in_context_amp :
    ('&' ∉ "amp".data ∧ ';' ∉ "amp".data ∧ decodeEntities ("&" ++ "amp" ++ ";") ≠ "&" ++ "amp" ++ ";" ∧
      ∀ pre post, "x".data = pre ++ '&' :: post → ';' ∉ post → 10 ≤ post.length + "amp".length) ∧
    decodeEntities ("x" ++ ("&" ++ "amp" ++ ";") ++ "y") =
      decodeEntities "x" ++ decodeEntities ("&" ++ "amp" ++ ";") ++ decodeEntities "y" :=
  have far : ∀ pre post, "x".data = pre ++ '&' :: post → ';' ∉ post → 10 ≤ post.length + "amp".length :=
    fun pre post split => absurd (split ▸ (by simp : '&' ∈ pre ++ '&' :: post)) (by decide)
  ⟨⟨by decide, by decide, by decide, far⟩,
    decodeEntities_reference_in_context "x" "y" "amp" (by decide) (by decide) (by decide) far⟩

unseal decodeFrom in
/-- The stray `&` of `AT&T` finds the `;` of `&amp;` within reach and keeps both literally. -/
theorem decodeEntities_stray_ampersand_keeps_reference :
    decodeEntities "&amp;" ≠ "&amp;" ∧
      decodeEntities ("AT&T " ++ "&amp;" ++ " co") ≠
        decodeEntities "AT&T " ++ decodeEntities "&amp;" ++ decodeEntities " co" := by
  decide

/-! ## Decoding never lengthens a text -/

/-- No named reference is replaced by more characters than `&name;` has. -/
theorem htmlEntities_short : ∀ entry ∈ htmlEntities, entry.2.length ≤ entry.1.length + 2 := by
  decide

/-- What a reference `&body;` decodes to is no longer than the reference. -/
theorem decodeReference_length {body out : List Char} (decoded : decodeReference body = some out) :
    out.length ≤ body.length + 2 := by
  unfold decodeReference at decoded
  split at decoded
  · obtain ⟨c, -, rfl⟩ := Option.map_eq_some'.mp decoded
    simp
  split at decoded
  · obtain ⟨c, -, rfl⟩ := Option.map_eq_some'.mp decoded
    simp
  · -- A named reference is looked up in the table.
    obtain ⟨replacement, found, rfl⟩ := Option.map_eq_some'.mp decoded
    obtain ⟨before, after, table, -⟩ := List.lookup_eq_some_iff.mp found
    exact htmlEntities_short _ (table ▸ List.mem_append_right _ (List.mem_cons_self _ _))

/-- The loop of `decode_entities` writes at most as many characters as it reads. -/
theorem decodeFrom_length_le (cs : List Char) : (decodeFrom cs).length ≤ cs.length := by
  induction cs using decodeFrom.induct with
  | case1 => exact le_of_eq (congrArg List.length decodeFrom.eq_1)
  | case2 rest k found short ih =>
    -- A reference `&body;` of `k + 2` characters is replaced by at most as many.
    have inside := findChar_lt found
    have replaced : ((decodeReference (rest.take k)).getD ('&' :: rest.take (k + 1))).length ≤ k + 2 := by
      cases decoded : decodeReference (rest.take k) with
      | none => simp
      | some out => simpa [List.length_take, Nat.min_eq_left inside.le] using decodeReference_length decoded
    rw [decodeFrom.eq_2, found]
    simp only [short, if_true, List.length_append, List.length_cons]
    simp only [List.length_drop] at ih
    omega
  | case3 rest k found long ih =>
    rw [decodeFrom.eq_2, found]
    simp only [long, if_false, List.length_cons]
    omega
  | case4 rest absent ih =>
    rw [decodeFrom.eq_2, absent, List.length_cons, List.length_cons]
    omega
  | case5 c rest plain ih =>
    rw [decodeFrom_cons plain, List.length_cons, List.length_cons]
    omega

/-- `decode_entities` never makes a text longer: every reference it decodes is replaced by fewer characters. -/
theorem decodeEntities_length_le (text : String) : (decodeEntities text).length ≤ text.length :=
  decodeFrom_length_le text.data

end Kivi
