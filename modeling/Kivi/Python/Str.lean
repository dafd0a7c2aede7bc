import Mathlib.Data.List.Chain
import Mathlib.Data.List.Forall2
import Mathlib.Data.List.Perm.Subperm
import Mathlib.Data.List.Infix
import Mathlib.Tactic.Tauto
import Mathlib.Tactic.SplitIfs
import Mathlib.Tactic.Use
import Mathlib.Tactic.Ring

/-!
The part of Python's `str` and `int` the browser's code relies on, over lists of characters.

`browser.py` does not name the Python it runs on. The model follows one whose `str` holds Unicode scalar values,
whose `str.lower` maps ASCII letters only, and whose `int` reads ASCII digits of any number. CPython differs in each:
a `str` can hold a lone surrogate, `str.lower` maps every cased letter, and `int` reads every Unicode decimal digit
but refuses a decimal literal of more than 4300 digits. On ASCII text of fewer than 4300 digits the two agree.
-/

namespace Kivi

/--
Python's `str.isspace` on one character, the test `str.split()` and `str.strip()` use.

These are the characters of bidirectional class WS, B or S, or of category Zs.
-/
def isSpace (c : Char) : Bool :=
  c = ' ' || ('\t' ≤ c && c ≤ '\r') || ('\x1c' ≤ c && c ≤ '\x1f') || c = '\x85' ||
    c = '\xa0' || c = '\u1680' || ('\u2000' ≤ c && c ≤ '\u200a') || c = '\u2028' ||
    c = '\u2029' || c = '\u202f' || c = '\u205f' || c = '\u3000'

/-- The word being read is closed, if there is one. -/
def flushWord (word : List Char) : List (List Char) :=
  if word = [] then [] else [word.reverse]

/-- Reading words with the current word held reversed. -/
def splitWordsFrom : List Char → List Char → List (List Char)
  -- A blank closes the current word, any other character extends it.
  | [], word => flushWord word
  | c :: rest, word =>
    if isSpace c then flushWord word ++ splitWordsFrom rest [] else splitWordsFrom rest (c :: word)

/-- `str.split()` with no separator: the maximal runs of non-blank characters, in order. -/
def splitWords (cs : List Char) : List (List Char) :=
  splitWordsFrom cs []

/-- `sep.join(parts)`: the parts with one separator between each two. -/
def joinWith (sep : List Char) : List (List Char) → List Char
  | [] => []
  | [part] => part
  | part :: rest => part ++ sep ++ joinWith sep rest

/-- `str.strip()`: blanks removed from both ends. -/
def stripList (cs : List Char) : List Char :=
  ((cs.dropWhile isSpace).reverse.dropWhile isSpace).reverse

/-- `str.split()` on a string. -/
def pySplit (s : String) : List String :=
  (splitWords s.data).map String.mk

/-- `sep.join(words)` on strings. -/
def pyJoin (sep : String) (words : List String) : String :=
  ⟨joinWith sep.data (words.map String.data)⟩

/-- `str.strip()` on a string. -/
def pyStrip (s : String) : String :=
  ⟨stripList s.data⟩

/-- `str.lower()` on ASCII letters only; CPython also maps other cased letters, the Kelvin sign to `k` among them. -/
def pyLower (s : String) : String :=
  ⟨s.data.map Char.toLower⟩

/-- `s.startswith(pre)`. -/
def startsWith (s pre : String) : Bool :=
  pre.data.isPrefixOf s.data

/-- `s.endswith(suf)`. -/
def endsWith (s suf : String) : Bool :=
  suf.data.reverse.isPrefixOf s.data.reverse

/-- `s.find(c)` for one character: the first position holding it, where Python answers `-1` by none. -/
def findChar (c : Char) (cs : List Char) : Option Nat :=
  cs.findIdx? (· = c)

/-- Where a Python slice bound `k` falls in a sequence of length `len`, negative bounds counting from the end. -/
def sliceBound (len : Nat) (k : Int) : Nat :=
  if k < 0 then (len + k).toNat else min k.toNat len

/-- `s[:k]` with Python's treatment of negative and oversized bounds. -/
def sliceTo (cs : List Char) (k : Int) : List Char :=
  cs.take (sliceBound cs.length k)

/-- `s[k:]` with Python's treatment of negative and oversized bounds. -/
def sliceFrom (cs : List Char) (k : Int) : List Char :=
  cs.drop (sliceBound cs.length k)

/-- The value of one digit in the given base, for ASCII digits and letters. -/
def digitIn (base : Nat) (c : Char) : Option Nat :=
  let value :=
    if '0' ≤ c ∧ c ≤ '9' then some (c.toNat - '0'.toNat)
    else if 'a' ≤ c ∧ c ≤ 'z' then some (c.toNat - 'a'.toNat + 10)
    else if 'A' ≤ c ∧ c ≤ 'Z' then some (c.toNat - 'A'.toNat + 10)
    else none
  value.filter (· < base)

/-- The rest of a run of digits, where one `_` may stand between two digits. -/
def readDigitsFrom (base acc : Nat) : List Char → Option Nat
  | [] => some acc
  | '_' :: c :: rest => (digitIn base c).bind fun d => readDigitsFrom base (acc * base + d) rest
  | c :: rest => (digitIn base c).bind fun d => readDigitsFrom base (acc * base + d) rest

/-- A nonempty run of digits, read as a number. -/
def readDigits (base : Nat) : List Char → Option Nat
  | [] => none
  | c :: rest => (digitIn base c).bind fun d => readDigitsFrom base d rest

/-- The digits after a sign, behind the `0x` prefix `int(s, 16)` also accepts. -/
def unsignedIn (base : Nat) : List Char → Option Nat
  | '0' :: x :: rest =>
    if base = 16 ∧ (x = 'x' ∨ x = 'X') then
      match rest with
      | '_' :: digits => readDigits base digits
      | digits => readDigits base digits
    else readDigits base ('0' :: x :: rest)
  | cs => readDigits base cs

/--
`int(s, base)` for base 10 and 16, where Python's `ValueError` is none.

Surrounding blanks and a sign are allowed. The digits are ASCII and of any number; CPython also reads other Unicode
decimal digits, and refuses a decimal literal of more than 4300 digits.
-/
def pyInt (s : String) (base : Nat) : Option Int :=
  match stripList s.data with
  | '-' :: rest => (unsignedIn base rest).map fun n => -(n : Int)
  | '+' :: rest => (unsignedIn base rest).map fun n => (n : Int)
  | cs => (unsignedIn base cs).map fun n => (n : Int)

/--
`chr(n)`, where Python's `ValueError` is none. A `Char` is a Unicode scalar value, so a surrogate code point is refused
as well, where CPython returns a string holding the lone surrogate.
-/
def pyChr (n : Int) : Option Char :=
  if 0 ≤ n ∧ (n.toNat < 0xd800 ∨ (0xdfff < n.toNat ∧ n.toNat < 0x110000)) then
    some (Char.ofNat n.toNat)
  else none

/-- The exceptions the modelled code can raise and nothing in it catches. -/
inductive PyError where
  /-- `int()` of a literal that is not a number. -/
  | valueError
  /-- `//` by zero. -/
  | zeroDivisionError
  /-- The interpreter's stack exhausted by nested calls. -/
  | recursionError
  deriving DecidableEq, Repr

/-- Outcomes of fallible code compare as values, so that a run can be checked by evaluation. -/
instance decEqExcept {ε α : Type} [DecidableEq ε] [DecidableEq α] : DecidableEq (Except ε α)
  | .error a, .error b => decidable_of_iff (a = b) ⟨congrArg _, Except.error.inj⟩
  | .ok a, .ok b => decidable_of_iff (a = b) ⟨congrArg _, Except.ok.inj⟩
  | .error _, .ok _ => isFalse nofun
  | .ok _, .error _ => isFalse nofun

/-- Python's `a // b`: floor division, raising on a zero divisor. -/
def pyFloorDiv (a b : Int) : Except PyError Int :=
  if b = 0 then .error .zeroDivisionError else .ok (a.fdiv b)

end Kivi
