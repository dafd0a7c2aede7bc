import Kivi.Net.Fetch

/-!
The only exception a fetch or a URL can raise is the `ValueError` of an `int()` on a port or a status, and what
`parse_http_response` answers: the status, and a redirect's location or the body after the first blank line.
-/

namespace Kivi

/-- `parse_url` raises only on a port `int()` rejects. -/
theorem parseUrl_error {url : String} {e : PyError} (failed : parseUrl url = .error e) : e = .valueError := by
  unfold parseUrl at failed
  split at failed
  · cases failed
  · -- Past the scheme and the authority, only the port is read by `int()`.
    dsimp only at failed
    split at failed
    · cases failed
    · split at failed
      · cases failed
      · cases failed
        rfl

/-- `resolve_url` raises only when it parses the base URL. -/
theorem resolveUrl_error {base rel : String} {e : PyError} (failed : resolveUrl base rel = .error e) :
    e = .valueError := by
  unfold resolveUrl at failed
  split at failed
  · cases failed
  · cases parsed : parseUrl base with
    | error _ =>
      rw [parsed] at failed
      cases failed
      exact parseUrl_error parsed
    | ok target =>
      rw [parsed] at failed
      dsimp only [bind, Except.bind] at failed
      split at failed <;> cases failed

/-- `parse_http_response` raises only on a status token `int()` rejects. -/
theorem parseHttpResponse_error {data : List UInt8} {e : PyError} (failed : parseHttpResponse data = .error e) :
    e = .valueError := by
  unfold parseHttpResponse at failed
  split at failed
  · cases failed
  · -- The status is read by `int()`; every other branch returns.
    dsimp only at failed
    split at failed
    · split at failed
      · dsimp only [Except.bind] at failed
        split at failed <;> (try split at failed) <;> cases failed
      · cases failed
        rfl
    · dsimp only [Except.bind] at failed
      split at failed <;> (try split at failed) <;> cases failed

/-- `fetch_url` raises only where it parses the URL or the response. -/
theorem fetchUrl_error {net : Net} {url : String} {e : PyError} (failed : fetchUrl net url = .error e) :
    e = .valueError := by
  unfold fetchUrl at failed
  split at failed
  · cases failed
  · cases parsed : parseUrl url with
    | error _ =>
      rw [parsed] at failed
      cases failed
      exact parseUrl_error parsed
    | ok target =>
      rw [parsed] at failed
      dsimp only [bind, Except.bind] at failed
      split at failed
      · cases failed
      · -- The DNS answer, then the connection of the scheme, then the response.
        split at failed
        · cases failed
        · split at failed <;> split at failed
          · cases failed
          · exact parseHttpResponse_error failed
          · cases failed
          · exact parseHttpResponse_error failed

/-- A pattern that starts inside a text followed by anything starts inside the text, once the text is long enough. -/
theorem isPrefixOf_of_append {pat xs : List UInt8} (long : pat.length ≤ xs.length) (ys : List UInt8)
    (found : pat.isPrefixOf (xs ++ ys) = true) : pat.isPrefixOf xs = true :=
  List.isPrefixOf_iff_prefix.mpr (List.prefix_of_prefix_length_le (List.isPrefixOf_iff_prefix.mp found)
    (List.prefix_append xs ys) long)

/--
`data.find(b'\r\n\r\n')` finds the blank line that follows `head` when none starts earlier, not even one that
would run into it.
-/
theorem findSeq_headerEnd (rest : List UInt8) :
    ∀ head : List UInt8, findSeq [13, 10, 13, 10] (head ++ [13, 10, 13]) = none →
      findSeq [13, 10, 13, 10] (head ++ [13, 10, 13, 10] ++ rest) = some head.length
  | [], _ => by simp [findSeq]
  | h :: hs, missing => by
    -- Neither the first byte nor any later one starts the blank line before `head` ends.
    rw [List.cons_append, findSeq] at missing
    split at missing
    · cases missing
    · rename_i early
      have long : [13, 10, 13, 10].length ≤ (h :: (hs ++ [(13 : UInt8), 10, 13])).length := by simp
      have regrouped : h :: (hs ++ [13, 10, 13]) ++ 10 :: rest = h :: (hs ++ [13, 10, 13, 10] ++ rest) := by simp
      have skip : ¬[13, 10, 13, 10].isPrefixOf (h :: (hs ++ [13, 10, 13, 10] ++ rest)) = true := fun found =>
        early (isPrefixOf_of_append long (10 :: rest) (regrouped ▸ found))
      rw [List.cons_append, List.cons_append, findSeq, if_neg skip,
        findSeq_headerEnd rest hs (Option.map_eq_none'.mp missing)]
      rfl

/--
When the header block ends at the first blank line and the status line's second token is the number `N`, the
status is `N`. A redirect with a header line that starts with `location:` answers that line's trimmed value;
every other response answers the body, one character per byte, and so does a redirect with no such line.
-/
theorem parseHttpResponse_answers (head body : List UInt8)
    (first : findSeq [13, 10, 13, 10] (head ++ [13, 10, 13]) = none) {N : Int} (numbered : ∃ word token words,
      ((splitOnPair '\r' '\n' (latin1 head).data).headD []).splitOn ' ' = word :: token :: words ∧
        pyInt ⟨token⟩ 10 = some N) :
    (∀ before location after, (splitOnPair '\r' '\n' (latin1 head).data).drop 1 = before ++ location :: after →
        (∀ line ∈ before, startsWith (pyLower ⟨line⟩) "location:" = false) →
        startsWith (pyLower ⟨location⟩) "location:" = true → N ∈ redirectStatuses →
        parseHttpResponse (head ++ [13, 10, 13, 10] ++ body) = .ok (N, pyStrip ⟨location.drop 9⟩)) ∧
      ((N ∉ redirectStatuses ∨
          ∀ line ∈ (splitOnPair '\r' '\n' (latin1 head).data).drop 1, startsWith (pyLower ⟨line⟩) "location:" = false) →
        parseHttpResponse (head ++ [13, 10, 13, 10] ++ body) = .ok (N, latin1 body)) := by
  obtain ⟨word, token, words, parts, read⟩ := numbered
  have taken : (head ++ [13, 10, 13, 10] ++ body).take head.length = head := by simp
  have dropped : (head ++ [13, 10, 13, 10] ++ body).drop (head.length + 4) = body := by simp
  -- The status is read from the second token; what follows depends on it and on the header lines.
  simp only [parseHttpResponse, findSeq_headerEnd body head first, taken, dropped, parts, List.length_cons,
    List.getElem_cons_succ, List.getElem_cons_zero, read]
  simp only [dif_pos (by omega : 2 ≤ words.length + 1 + 1), Except.bind]
  refine ⟨fun before location after lines skipped matched redirect => ?_, fun plain => ?_⟩
  · -- The search stops at the first matching line.
    have found : ((splitOnPair '\r' '\n' (latin1 head).data).drop 1).find?
        (fun line => startsWith (pyLower ⟨line⟩) "location:") = some location := by
      rw [lines, List.find?_append, List.find?_eq_none.mpr (fun line member => by simp [skipped line member])]
      simp [matched]
    rw [if_pos redirect, found]
  · -- Either no redirect, or no line to follow.
    rcases plain with other | none
    · rw [if_neg other]
    · rw [List.find?_eq_none.mpr (fun line member => by simp [none line member])]
      split <;> rfl

/-- The bytes of a `301` header block that names where the page moved. -/
def movedHead : List UInt8 :=
  "HTTP/1.0 301 Moved\r\nLocation: /x".toList.map (·.toNat.toUInt8)

/-- The moved response, with the two-byte body `hi`. -/
theorem parseHttpResponse_answers_moved :
    findSeq [13, 10, 13, 10] (movedHead ++ [13, 10, 13]) = none ∧
      (∃ word token words,
        ((splitOnPair '\r' '\n' (latin1 movedHead).data).headD []).splitOn ' ' = word :: token :: words ∧
          pyInt ⟨token⟩ 10 = some 301) ∧
      (∀ before location after, (splitOnPair '\r' '\n' (latin1 movedHead).data).drop 1 = before ++ location :: after →
        (∀ line ∈ before, startsWith (pyLower ⟨line⟩) "location:" = false) →
        startsWith (pyLower ⟨location⟩) "location:" = true → (301 : Int) ∈ redirectStatuses →
        parseHttpResponse (movedHead ++ [13, 10, 13, 10] ++ [104, 105]) = .ok (301, pyStrip ⟨location.drop 9⟩)) ∧
      (((301 : Int) ∉ redirectStatuses ∨
          ∀ line ∈ (splitOnPair '\r' '\n' (latin1 movedHead).data).drop 1,
            startsWith (pyLower ⟨line⟩) "location:" = false) →
        parseHttpResponse (movedHead ++ [13, 10, 13, 10] ++ [104, 105]) = .ok (301, latin1 [104, 105])) :=
  have numbered : ∃ word token words,
      ((splitOnPair '\r' '\n' (latin1 movedHead).data).headD []).splitOn ' ' = word :: token :: words ∧
        pyInt ⟨token⟩ 10 = some 301 :=
    ⟨"HTTP/1.0".toList, "301".toList, ["Moved".toList], by decide, by decide⟩
  ⟨by decide, numbered, parseHttpResponse_answers movedHead [104, 105] (by decide) numbered⟩

/-- A `302` without a `Location` line answers its body, which `navigate` then follows as a URL. -/
theorem parseHttpResponse_redirect_without_location :
    parseHttpResponse ("HTTP/1.0 302 Found\r\n\r\n<html>".toList.map (·.toNat.toUInt8)) = .ok (302, "<html>") := by
  decide

end Kivi
