import Kivi.Net.Fetch
import Kivi.Python.Loop

/-!
The receive loop of `fetch_url` as the code runs it, over any schedule of polls: the calls it makes on the
platform, and the bytes it hands to `parse_http_response`.
-/

namespace Kivi

/-- A call `fetch_url` makes on the platform once its socket is connected. -/
inductive NetCall where
  /-- `send_fn(sock, request)`. -/
  | send
  /-- `recv_fn(sock, 4096)`. -/
  | recv
  /-- `vibe.sleep_ms(ms)`. -/
  | sleepMs (ms : Nat)
  /-- `vibe.sched_yield()`. -/
  | schedYield
  /-- `close_fn(sock)`. -/
  | close
  deriving DecidableEq

/-- The receive loop's variables: the polls made so far, the bytes received, the idle polls counted, the calls made. -/
structure ReadState where
  polled : Nat
  response : List UInt8
  timeout : Nat
  calls : List NetCall

/--
One pass of the receive loop, `recv` giving what each poll returns by its number, an empty chunk standing for
`None` or `b''`. An empty poll breaks once data has come, and is otherwise counted and slept on; data is appended
and resets the count. A pass that goes round again ends with `sched_yield()`.
-/
def readPass (recv : Nat → List UInt8) (st : ReadState) : Pass ReadState :=
  let chunk := recv st.polled
  let st := { st with polled := st.polled + 1, calls := st.calls ++ [.recv] }
  if chunk = [] then
    if st.response ≠ [] then .stop st
    else .next { st with timeout := st.timeout + 1, calls := st.calls ++ [.sleepMs 50, .schedYield] }
  else .next { st with response := st.response ++ chunk, timeout := 0, calls := st.calls ++ [.schedYield] }

/--
The receive loop of `fetch_url` after `send_fn`, allowed `fuel` passes, then `close_fn`: the bytes given to
`parse_http_response`, and the calls made on the platform in order.
-/
def readSession (recv : Nat → List UInt8) (fuel : Nat) : Option (List UInt8 × List NetCall) :=
  (whileLoop (fun st => st.timeout < 100) (readPass recv) fuel ⟨0, [], 0, [.send]⟩).map
    fun st => (st.response, st.calls ++ [.close])

/-- A pass either breaks on an empty poll after data, counts an empty poll before data, or appends data. -/
theorem readPass_cases (recv : Nat → List UInt8) (st : ReadState) :
    (recv st.polled = [] ∧ st.response ≠ [] ∧
        readPass recv st = .stop { st with polled := st.polled + 1, calls := st.calls ++ [.recv] }) ∨
      (recv st.polled = [] ∧ st.response = [] ∧
        readPass recv st = .next { st with
          polled := st.polled + 1
          timeout := st.timeout + 1
          calls := st.calls ++ [.recv] ++ [.sleepMs 50, .schedYield] }) ∨
      (recv st.polled ≠ [] ∧
        readPass recv st = .next { st with
          polled := st.polled + 1
          response := st.response ++ recv st.polled
          timeout := 0
          calls := st.calls ++ [.recv] ++ [.schedYield] }) := by
  by_cases idle : recv st.polled = []
  · by_cases empty : st.response = []
    · exact .inr (.inl ⟨idle, empty, by simp only [readPass, idle, empty, ne_eq, not_true_eq_false, if_true,
        if_false]⟩)
    · exact .inl ⟨idle, empty, by simp only [readPass, idle, empty, ne_eq, not_false_eq_true, if_true]⟩
  · exact .inr (.inr ⟨idle, by simp only [readPass, idle, if_false]⟩)

/-! ## What the loop hands on -/

/-- The polls numbered from `p` up to `n`, the last that may bring data. -/
def pollsFrom (recv : Nat → List UInt8) (n p : Nat) : List (List UInt8) :=
  (List.range' p (n - p)).map recv

/-- Before the last poll that may bring data, the polls still to come start with the next one. -/
theorem pollsFrom_of_lt {recv : Nat → List UInt8} {n p : Nat} (before : p < n) :
    pollsFrom recv n p = recv p :: pollsFrom recv n (p + 1) := by
  rw [pollsFrom, pollsFrom, show n - p = n - (p + 1) + 1 by omega, List.range'_succ, List.map_cons]

/-- From the last poll that may bring data on, no polls are left to read. -/
theorem pollsFrom_of_le {recv : Nat → List UInt8} {n p : Nat} (after : n ≤ p) : pollsFrom recv n p = [] := by
  rw [pollsFrom, Nat.sub_eq_zero_of_le after]
  rfl

/-- Past the polls, the model's loop returns what it has. -/
theorem readLoop_nil (response : List UInt8) (timeout : Nat) : readLoop [] response timeout = response := by
  rw [readLoop.eq_1, ite_self]

/-- With 100 idle polls counted, the model's loop returns what it has. -/
theorem readLoop_timeout {timeout : Nat} (out : 100 ≤ timeout) (polls : List (List UInt8)) (response : List UInt8) :
    readLoop polls response timeout = response := by
  cases polls with
  | nil => exact readLoop_nil response timeout
  | cons chunk rest => rw [readLoop.eq_2, if_neg (by omega)]

/-- An empty poll after data ends the model's loop. -/
theorem readLoop_idle_after {timeout : Nat} (counting : timeout < 100) {response : List UInt8} (got : response ≠ [])
    (rest : List (List UInt8)) : readLoop ([] :: rest) response timeout = response := by
  rw [readLoop.eq_2, if_pos counting, if_pos rfl]
  exact if_pos got

/-- An empty poll before data is counted by the model's loop. -/
theorem readLoop_idle_before {timeout : Nat} (counting : timeout < 100) (rest : List (List UInt8)) :
    readLoop ([] :: rest) [] timeout = readLoop rest [] (timeout + 1) := by
  rw [readLoop.eq_2, if_pos counting, if_pos rfl]
  rfl

/-- Data is appended by the model's loop, and the idle count starts again. -/
theorem readLoop_data {timeout : Nat} (counting : timeout < 100) {chunk : List UInt8} (data : chunk ≠ [])
    (rest : List (List UInt8)) (response : List UInt8) :
    readLoop (chunk :: rest) response timeout = readLoop rest (response ++ chunk) 0 := by
  rw [readLoop.eq_2, if_pos counting]
  exact if_neg data

section Quiet

variable (recv : Nat → List UInt8) (n : Nat) (quiet : ∀ m, n ≤ m → recv m = [])

include quiet

/--
The receive loop computes, from any of its states, what the model's loop returns on the polls still to come,
and it never closes the socket itself. A pass that goes round again either takes one of the polls that can bring
data, or counts one more of at most 100 idle polls.
-/
def readComputes :
    Computes (fun st => st.timeout < 100) (readPass recv) (fun st => (st.response, st.calls.count .close))
      (fun st => (readLoop (pollsFrom recv n st.polled) st.response st.timeout, st.calls.count .close)) where
  measure st := 101 * (n - st.polled) + (100 - st.timeout)
  exits := fun st failed => by
    rw [readLoop_timeout (by simpa using failed)]
  stops := fun st _ passed went => by
    have counting : st.timeout < 100 := by simpa using passed
    rcases readPass_cases recv st with ⟨idle, got, broke⟩ | ⟨-, -, again⟩ | ⟨-, again⟩
    · rw [broke] at went
      cases went
      have ends : readLoop (pollsFrom recv n st.polled) st.response st.timeout = st.response := by
        rcases Nat.lt_or_ge st.polled n with before | after
        · rw [pollsFrom_of_lt before, idle, readLoop_idle_after counting got]
        · rw [pollsFrom_of_le after, readLoop_nil]
      simp [ends, List.count_append]
    all_goals rw [again] at went; cases went
  nexts := fun st _ passed went => by
    have counting : st.timeout < 100 := by simpa using passed
    rcases readPass_cases recv st with ⟨-, -, broke⟩ | ⟨idle, empty, again⟩ | ⟨data, again⟩
    · rw [broke] at went
      cases went
    · -- An idle poll before data: one more counted.
      rw [again] at went
      cases went
      refine ⟨show 101 * (n - (st.polled + 1)) + (100 - (st.timeout + 1)) <
        101 * (n - st.polled) + (100 - st.timeout) by omega, ?_⟩
      have counted : readLoop (pollsFrom recv n (st.polled + 1)) [] (st.timeout + 1) =
          readLoop (pollsFrom recv n st.polled) [] st.timeout := by
        rcases Nat.lt_or_ge st.polled n with before | after
        · rw [pollsFrom_of_lt before, idle, readLoop_idle_before counting]
        · rw [pollsFrom_of_le after, pollsFrom_of_le (by omega), readLoop_nil, readLoop_nil]
      simp [empty, counted, List.count_append]
    · -- Data: it comes before the quiet polls, and is appended.
      have before : st.polled < n := by
        by_contra after
        exact data (quiet _ (by omega))
      rw [again] at went
      cases went
      refine ⟨show 101 * (n - (st.polled + 1)) + (100 - 0) < 101 * (n - st.polled) + (100 - st.timeout) by omega, ?_⟩
      simp [pollsFrom_of_lt before, readLoop_data counting data, List.count_append]

/-- The loop ends within `101 * (n + 1)` passes; `close_fn` is then called once, and the bytes are the model's. -/
theorem readSession_ends :
    ∃ calls, readSession recv (101 * n + 101) = some (readLoop ((List.range n).map recv) [] 0, calls) ∧
      calls.count .close = 1 := by
  have ran := (readComputes recv n quiet).run
    (show (readComputes recv n quiet).measure ⟨0, [], 0, [.send]⟩ < 101 * n + 101 by
      show 101 * (n - 0) + (100 - 0) < 101 * n + 101
      omega)
  obtain ⟨st, loop, same⟩ := Option.map_eq_some'.mp ran
  obtain ⟨bytes, closed⟩ := Prod.mk.inj same
  refine ⟨st.calls ++ [.close], ?_, ?_⟩
  · rw [readSession, loop, Option.map_some', bytes, pollsFrom, List.range_eq_range']
    rfl
  · rw [List.count_append, closed]
    rfl

/--
What the code hands to `parse_http_response`: the chunks from the first poll with data, when it comes within the
first 100 polls, up to the first empty poll after it; nothing when the first 100 polls are empty.
-/
def Delivered (response : List UInt8) : Prop :=
  (∃ f e, f < 100 ∧ f < e ∧ (∀ m < f, recv m = []) ∧ (∀ m, f ≤ m → m < e → recv m ≠ []) ∧ recv e = [] ∧
      response = ((List.range' f (e - f)).map recv).flatten) ∨
    ((∀ m < 100, recv m = []) ∧ response = [])

omit quiet in
/-- One more poll with data at the front of a run extends it. -/
theorem flatten_range'_succ {p e : Nat} (later : p < e) :
    recv p ++ ((List.range' (p + 1) (e - (p + 1))).map recv).flatten = ((List.range' p (e - p)).map recv).flatten := by
  rw [show e - p = e - (p + 1) + 1 by omega, List.range'_succ, List.map_cons, List.flatten_cons]

/-- Once data has come, the model's loop appends every chunk up to the first empty poll. -/
theorem readLoop_burst : ∀ (p : Nat) (response : List UInt8), response ≠ [] →
    ∃ e, p ≤ e ∧ recv e = [] ∧ (∀ m, p ≤ m → m < e → recv m ≠ []) ∧
      readLoop (pollsFrom recv n p) response 0 = response ++ ((List.range' p (e - p)).map recv).flatten
  | p, response, got => by
    rcases Nat.lt_or_ge p n with before | after
    · rw [pollsFrom_of_lt before]
      by_cases idle : recv p = []
      · -- The first empty poll.
        refine ⟨p, le_rfl, idle, fun m lo hi => absurd hi (by omega), ?_⟩
        rw [idle, readLoop_idle_after (by decide) got, Nat.sub_self]
        simp
      · -- One more chunk, and the run goes on.
        obtain ⟨e, later, ends, run, appended⟩ := readLoop_burst (p + 1) (response ++ recv p) (by simp [got])
        refine ⟨e, by omega, ends, fun m lo hi => ?_, ?_⟩
        · rcases Nat.eq_or_lt_of_le lo with rfl | further
          · exact idle
          · exact run m further hi
        · have : p < e := by
            by_contra short
            exact idle (by rw [show p = e by omega]; exact ends)
          rw [readLoop_data (by decide) idle, appended, List.append_assoc, flatten_range'_succ recv this]
    · -- Past the last data: the next poll is empty.
      rw [pollsFrom_of_le after, readLoop_nil]
      exact ⟨p, le_rfl, quiet p after, fun m lo hi => absurd hi (by omega), by simp⟩
termination_by p => n - p

/-- Before data, the model's loop counts the idle polls so far, and hands on what `Delivered` says. -/
theorem readLoop_idle : ∀ p, p ≤ 100 → (∀ m < p, recv m = []) →
    Delivered recv (readLoop (pollsFrom recv n p) [] p)
  | p, bound, before => by
    by_cases timedOut : p = 100
    · -- A hundred idle polls.
      subst timedOut
      rw [readLoop_timeout le_rfl]
      exact .inr ⟨before, rfl⟩
    · rcases Nat.lt_or_ge p n with within | after
      · rw [pollsFrom_of_lt within]
        by_cases idle : recv p = []
        · rw [idle, readLoop_idle_before (by omega)]
          refine readLoop_idle (p + 1) (by omega) fun m lt => ?_
          rcases Nat.lt_or_ge m p with earlier | same
          · exact before m earlier
          · rw [show m = p by omega]
            exact idle
        · -- The first data: it is followed to the first empty poll.
          obtain ⟨e, later, ends, run, appended⟩ := readLoop_burst recv n quiet (p + 1) (recv p) idle
          have : p < e := by
            by_contra short
            exact idle (by rw [show p = e by omega]; exact ends)
          refine .inl ⟨p, e, by omega, this, before, fun m lo hi => ?_, ends, ?_⟩
          · rcases Nat.eq_or_lt_of_le lo with rfl | further
            · exact idle
            · exact run m further hi
          · rw [readLoop_data (by omega) idle, List.nil_append, appended, flatten_range'_succ recv this]
      · -- No data at all.
        rw [pollsFrom_of_le after, readLoop_nil]
        refine .inr ⟨fun m _ => ?_, rfl⟩
        rcases Nat.lt_or_ge m p with earlier | later
        · exact before m earlier
        · exact quiet m (by omega)
termination_by p => 100 - p

/--
When only the polls before the `n`-th can bring data, the receive loop of `fetch_url` ends within
`101 * (n + 1)` passes, calls `close_fn` exactly once, and hands `parse_http_response` the chunks from the first
poll with data up to the first empty poll after it, or nothing after 100 empty polls: what the model's loop returns.
-/
theorem read_loop_closes_once :
    ∃ response calls, readSession recv (101 * n + 101) = some (response, calls) ∧ calls.count .close = 1 ∧
      response = readLoop ((List.range n).map recv) [] 0 ∧ Delivered recv response := by
  obtain ⟨calls, session, once⟩ := readSession_ends recv n quiet
  refine ⟨_, calls, session, once, rfl, ?_⟩
  have delivered := readLoop_idle recv n quiet 0 (by omega) fun m early => absurd early (Nat.not_lt_zero m)
  rw [List.range_eq_range']
  exact delivered

end Quiet

/-- A server whose third poll brings one byte, and nothing after. -/
theorem read_loop_closes_once_third_poll :
    ∃ response calls, readSession (fun m => if m = 2 then [72] else []) (101 * 3 + 101) = some (response, calls) ∧
      calls.count .close = 1 ∧ response = readLoop ((List.range 3).map fun m => if m = 2 then [72] else []) [] 0 ∧
      Delivered (fun m => if m = 2 then [72] else []) response :=
  read_loop_closes_once _ 3 fun m late => if_neg (by omega)

end Kivi
