import Mathlib.Data.Nat.Notation
import Mathlib.Data.List.Basic

/-!
# Order ids as customers write them

The tools read an order id with `re.fullmatch(r"ORD-(\d+)", order_id.strip().upper())` and take
`int` of the digits. Both `\d` and `int` know the decimal digits of every script. The only letters
whose upper case is one of `ORD` are those and their small forms, and `upper` changes no digit, so
that nothing else about `upper` matters here.
-/

namespace Agentops

/-- The white space that `str.strip` removes. -/
def isSpace (c : Char) : Bool :=
  let n := c.toNat
  (9 ≤ n ∧ n ≤ 13) ∨ (28 ≤ n ∧ n ≤ 32) ∨ n = 133 ∨ n = 160 ∨ n = 5760 ∨ (8192 ≤ n ∧ n ≤ 8202) ∨
    n = 8232 ∨ n = 8233 ∨ n = 8239 ∨ n = 8287 ∨ n = 12288

/-- `str.strip()`. -/
def strip (text : List Char) : List Char :=
  ((text.dropWhile isSpace).reverse.dropWhile isSpace).reverse

/-- `str.strip()` on a text. -/
def stripText (text : String) : String := String.ofList (strip text.toList)

/-- The decimal zeros of Unicode; the nine characters after each are its digits one to nine. -/
def decimalZeros : List ℕ :=
  [0x30, 0x660, 0x6f0, 0x7c0, 0x966, 0x9e6, 0xa66, 0xae6, 0xb66, 0xbe6, 0xc66, 0xce6, 0xd66, 0xde6,
    0xe50, 0xed0, 0xf20, 0x1040, 0x1090, 0x17e0, 0x1810, 0x1946, 0x19d0, 0x1a80, 0x1a90, 0x1b50,
    0x1bb0, 0x1c40, 0x1c50, 0xa620, 0xa8d0, 0xa900, 0xa9d0, 0xa9f0, 0xaa50, 0xabf0, 0xff10, 0x104a0,
    0x10d30, 0x11066, 0x110f0, 0x11136, 0x111d0, 0x112f0, 0x11450, 0x114d0, 0x11650, 0x116c0, 0x11730,
    0x118e0, 0x11950, 0x11c50, 0x11d50, 0x11da0, 0x11f50, 0x16a60, 0x16ac0, 0x16b50, 0x1d7ce, 0x1d7d8,
    0x1d7e2, 0x1d7ec, 0x1d7f6, 0x1e140, 0x1e2f0, 0x1e4f0, 0x1e950, 0x1fbf0]

/-- The value of a decimal digit. -/
def decimalDigit? (c : Char) : Option ℕ :=
  (decimalZeros.find? fun z => z ≤ c.toNat ∧ c.toNat < z + 10).map fun z => c.toNat - z

/-- The number that digits write, most significant first. -/
def numberOfDigits (digits : List ℕ) : ℕ := digits.foldl (fun n d => 10 * n + d) 0

/-- CPython's limit on the digits that `int` converts. -/
def maxStrDigits : ℕ := 4300

/-- What the tools make of an order id. `tooLong` is the `ValueError` of `int`. -/
inductive OrderId
  | invalid
  | tooLong
  | number (n : ℕ)
  deriving DecidableEq, Repr

def parseOrderId (orderId : String) : OrderId :=
  match strip orderId.toList with
  | o :: r :: d :: '-' :: rest =>
    if (o = 'O' ∨ o = 'o') ∧ (r = 'R' ∨ r = 'r') ∧ (d = 'D' ∨ d = 'd') then
      match rest.mapM decimalDigit? with
      | none | some [] => .invalid
      | some digits => if maxStrDigits < digits.length then .tooLong else .number (numberOfDigits digits)
    else .invalid
  | _ => .invalid

example : parseOrderId " ord-005\n" = .number 5 ∧ parseOrderId "ORD-٤٢" = .number 42 ∧
    parseOrderId "ORD-" = .invalid ∧ parseOrderId "5" = .invalid := by decide +kernel

end Agentops
