import Kivi.Browser.Invariants
import Kivi.Net.FetchLaws

/-!
What `navigate` lets escape and what it fetches: the `ValueError` of `int()` on an unparsed port or status token is
never caught, and the fetches are one per hop of the redirect chain, with no cap but the stack.
-/

namespace Kivi

namespace Browser

/-- The URLs `navigate` hands to `fetch_url`, in order: one per hop of the redirect chain, while the stack allows. -/
def hops (fetch : String → Except PyError (Int × String)) : Nat → String → String → List String
  | 0, _, _ => []
  | depth + 1, base, target =>
    match resolveUrl base target with
    | .error _ => []
    | .ok url =>
      url :: match fetch url with
        | .ok (status, body) => if status ∈ redirectStatuses then hops fetch depth url body else []
        | .error _ => []

/-- Each stack frame fetches at most once, so the stack depth is the only bound on the fetches. -/
theorem hops_length_le (fetch : String → Except PyError (Int × String)) :
    ∀ (depth : Nat) (base target : String), (hops fetch depth base target).length ≤ depth
  | 0, _, _ => le_rfl
  | depth + 1, base, target => by
    rw [hops]
    split
    · exact Nat.zero_le _
    · rw [List.length_cons, Nat.add_le_add_iff_right]
      split
      · split
        · exact hops_length_le fetch depth _ _
        · exact Nat.zero_le _
      · exact Nat.zero_le _

/-- `navigate` reads `fetch` only at the URLs of `hops`: two platforms that answer those alike give the same result. -/
theorem navigate_congr {font : Font} {fetch fetch' : String → Except PyError (Int × String)} :
    ∀ {depth : Nat} {s : Browser} {target : String} {fromBack fromForward : Bool},
      (∀ u ∈ hops fetch depth s.url target, fetch' u = fetch u) →
      navigate font fetch' depth s target fromBack fromForward = navigate font fetch depth s target fromBack fromForward
  | 0, _, _, _, _, _ => rfl
  | depth + 1, s, target, fromBack, fromForward, agree => by
    rw [navigate, navigate]
    rw [hops] at agree
    cases resolved : resolveUrl s.url target with
    | error _ => rfl
    | ok url =>
      rw [resolved] at agree
      dsimp only at agree
      simp only [bind, Except.bind, agree url (List.mem_cons_self _ _)]
      cases fetched : fetch url with
      | error _ => rfl
      | ok response =>
        obtain ⟨status, body⟩ := response
        rw [fetched] at agree
        dsimp only at agree ⊢
        split
        · -- A redirect: the next hop's fetches are among this chain's.
          next redirect =>
          rw [if_pos redirect] at agree
          exact navigate_congr fun u fetchedLater => agree u (List.mem_cons_of_mem _ fetchedLater)
        · rfl

/-- A redirect answered to the resolved URL makes `navigate` call itself on the location, one frame down. -/
theorem navigate_redirect {font : Font} {fetch : String → Except PyError (Int × String)} {depth : Nat} {s : Browser}
    {target url body : String} {status : Int} {fromBack fromForward : Bool} (resolved : resolveUrl s.url target = .ok url)
    (fetched : fetch url = .ok (status, body)) (redirect : status ∈ redirectStatuses) :
    navigate font fetch (depth + 1) s target fromBack fromForward =
      navigate font fetch depth (s.enter url fromBack fromForward) body false false := by
  rw [navigate, resolved]
  simp only [bind, Except.bind, fetched, if_pos redirect]

/-- A server that answers every request with a `302` back to `http://a.com/`. -/
def Net.redirectLoop : Net where
  dnsResolve _ := 1
  tlsConnect _ _ _ := 3
  tcpConnect _ _ := 3
  recv _ _ := ["HTTP/1.0 302 Found\r\nLocation: http://a.com/\r\n\r\n".toList.map (·.toNat.toUInt8)]
  openFile _ := none
  fileSize _ := 0
  readFile _ _ := none

/-- The loop's server redirects `http://a.com/` to itself. -/
theorem fetchUrl_redirectLoop : fetchUrl Net.redirectLoop "http://a.com/" = .ok (302, "http://a.com/") := by
  decide

/-- Following the loop exhausts any stack, from any state. -/
theorem navigate_redirectLoop (font : Font) : ∀ (depth : Nat) (s : Browser) (fromBack fromForward : Bool),
    navigate font (fetchUrl Net.redirectLoop) depth s "http://a.com/" fromBack fromForward = .error .recursionError
  | 0, _, _, _ => rfl
  | depth + 1, s, fromBack, fromForward => by
    rw [navigate_redirect (resolveUrl_of_absolute (by decide) _) fetchUrl_redirectLoop (by decide)]
    exact navigate_redirectLoop font depth _ false false

/-- The loop's chain fetches `http://a.com/` once in every stack frame. -/
theorem hops_redirectLoop : ∀ (depth : Nat) (base : String),
    hops (fetchUrl Net.redirectLoop) depth base "http://a.com/" = List.replicate depth "http://a.com/"
  | 0, _ => rfl
  | depth + 1, base => by
    rw [hops, resolveUrl_of_absolute (by decide)]
    dsimp only
    rw [fetchUrl_redirectLoop]
    dsimp only
    rw [if_pos (by decide), hops_redirectLoop depth]
    rfl

/--
`navigate` has no hop cap: on a server that redirects `http://a.com/` to itself, from any state and at every stack
depth, it fetches `http://a.com/` once per stack frame and never returns a page, ending in `RecursionError`.
-/
theorem navigate_redirect_loop_uncapped (font : Font) (depth : Nat) (s : Browser) (fromBack fromForward : Bool) :
    hops (fetchUrl Net.redirectLoop) depth s.url "http://a.com/" = List.replicate depth "http://a.com/" ∧
      navigate font (fetchUrl Net.redirectLoop) depth s "http://a.com/" fromBack fromForward =
        .error .recursionError :=
  ⟨hops_redirectLoop depth s.url, navigate_redirectLoop font depth s fromBack fromForward⟩

/--
One call of `navigate` fetches the URLs of its redirect chain and no others, one in each stack frame, so at most as
many as the stack allows, and then returns a page or raises: two platforms that answer those URLs alike give the
same result.
-/
theorem navigate_fetches_within_stack (font : Font) (fetch : String → Except PyError (Int × String)) (depth : Nat)
    (s : Browser) (target : String) (fromBack fromForward : Bool) :
    (hops fetch depth s.url target).length ≤ depth ∧
      ∀ fetch' : String → Except PyError (Int × String), (∀ u ∈ hops fetch depth s.url target, fetch' u = fetch u) →
        navigate font fetch' depth s target fromBack fromForward = navigate font fetch depth s target fromBack fromForward :=
  ⟨hops_length_le fetch depth s.url target, fun _ agree => navigate_congr agree⟩

/-- With a stack of three frames, the loop's server answers all three fetches. -/
theorem navigate_fetches_within_stack_loop :
    (hops (fetchUrl Net.redirectLoop) 3 (Browser.new false).url "http://a.com/").length ≤ 3 ∧
      ∀ fetch' : String → Except PyError (Int × String),
        (∀ u ∈ hops (fetchUrl Net.redirectLoop) 3 (Browser.new false).url "http://a.com/",
          fetch' u = fetchUrl Net.redirectLoop u) →
        navigate Font.fixed fetch' 3 (Browser.new false) "http://a.com/" false false =
          navigate Font.fixed (fetchUrl Net.redirectLoop) 3 (Browser.new false) "http://a.com/" false false :=
  navigate_fetches_within_stack Font.fixed (fetchUrl Net.redirectLoop) 3 (Browser.new false) "http://a.com/" false false

/--
With a stack of twelve frames the loop's server is asked for `http://a.com/` twelve times, more than the eleven
fetches of a first request and ten redirects, and `navigate` still returns no page.
-/
theorem navigate_redirect_loop_twelve :
    hops (fetchUrl Net.redirectLoop) 12 (Browser.new false).url "http://a.com/" = List.replicate 12 "http://a.com/" ∧
      navigate Font.fixed (fetchUrl Net.redirectLoop) 12 (Browser.new false) "http://a.com/" false false =
        .error .recursionError :=
  navigate_redirect_loop_uncapped Font.fixed 12 (Browser.new false) false false

/-- A server whose status line has no number: `HTTP/1.0 OK`. -/
def Net.badStatus : Net where
  dnsResolve _ := 1
  tlsConnect _ _ _ := 3
  tcpConnect _ _ := 3
  recv _ _ := ["HTTP/1.0 OK\r\n\r\n".toList.map (·.toNat.toUInt8)]
  openFile _ := none
  fileSize _ := 0
  readFile _ _ := none

/--
`navigate` catches nothing. Every exception `resolve_url` and `fetch_url` raise is the `ValueError` of `int()`, and it
escapes `navigate` from every state, with any stack left for the call: on every platform for a port that is not a
number, on a server whose status token is not a number, and on every platform for a relative link followed from an
`about:` page, whose URL `parse_url` reads as the host `about` with the port `home`.
-/
theorem navigate_raises_valueError (font : Font) (depth : Nat) (s : Browser) (fromBack fromForward : Bool) :
    (∀ (base rel : String) (e : PyError), resolveUrl base rel = .error e → e = .valueError) ∧
      (∀ (net : Net) (url : String) (e : PyError), fetchUrl net url = .error e → e = .valueError) ∧
      (∀ net : Net, navigate font (fetchUrl net) (depth + 1) s "http://a.com:/" fromBack fromForward =
        .error .valueError) ∧
      navigate font (fetchUrl Net.badStatus) (depth + 1) s "http://a.com/" fromBack fromForward = .error .valueError ∧
      ∀ net : Net, navigate font (fetchUrl net) (depth + 1) { s with url := "about:home" } "b.html" fromBack fromForward =
        .error .valueError := by
  refine ⟨fun _ _ _ => resolveUrl_error, fun _ _ _ => fetchUrl_error, fun net => ?_, ?_, fun net => ?_⟩
  · -- The port is read before anything is fetched.
    rw [navigate, resolveUrl_of_absolute (by decide)]
    rfl
  · have answered : fetchUrl Net.badStatus "http://a.com/" = .error .valueError := by decide
    rw [navigate, resolveUrl_of_absolute (by decide)]
    simp only [bind, Except.bind, answered]
  · -- The base is parsed before the reference is joined to it.
    have joined : resolveUrl "about:home" "b.html" = .error .valueError := by decide
    rw [navigate]
    simp only [bind, Except.bind, joined]

end Browser

end Kivi
