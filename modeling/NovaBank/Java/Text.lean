import Mathlib.Data.List.Basic

/-!
# Strings

The operations of `java.lang.String` that the program decides by. `split` is `String.split` with a
pattern that is a plain text: the pieces between the occurrences of the separator, found from left
to right, without the empty pieces at the end; a text without the separator is one piece, also when
it is empty. `equalsIgnoreCase` compares character by character after case folding; the folding of
a single character is Unicode's, and is a parameter. `hashCode` is the polynomial over the UTF-16
code units.
-/

namespace NovaBank.Java

/-- The pieces of a text between separators. `cur` is the current piece, reversed, and `skip` counts
the characters of a separator that is being passed. -/
def pieces (sep : List Char) : (cur : List Char) → (skip : ℕ) → List Char → List (List Char)
  | cur, _, [] => [cur.reverse]
  -- Inside a separator, whose characters belong to no piece.
  | cur, skip + 1, _ :: cs => pieces sep cur skip cs
  | cur, 0, c :: cs =>
    if sep.isPrefixOf (c :: cs) then cur.reverse :: pieces sep [] (sep.length - 1) cs
    else pieces sep (c :: cur) 0 cs

/-- `s.split(sep)` for a separator without special characters. -/
def split (sep s : String) : List String :=
  let ps := pieces sep.toList [] 0 s.toList
  -- Without a separator the text stays whole, and else the empty pieces at the end are dropped.
  let kept := if ps.length = 1 then ps else (ps.reverse.dropWhile List.isEmpty).reverse
  kept.map String.ofList

/-- `a.equalsIgnoreCase(b)` for a folding of single characters. -/
def equalsIgnoreCase (fold : Char → Char) (a b : String) : Bool :=
  a.toList.map fold == b.toList.map fold

/-- The comparison without case does not depend on the order. -/
theorem equalsIgnoreCase_comm (fold : Char → Char) (a b : String) :
    equalsIgnoreCase fold a b = equalsIgnoreCase fold b a := BEq.comm

/-- The UTF-16 code units of a character. -/
def codeUnits (c : Char) : List ℕ :=
  if c.toNat < 0x10000 then [c.toNat]
  else [0xD800 + (c.toNat - 0x10000) / 0x400, 0xDC00 + (c.toNat - 0x10000) % 0x400]

/-- `s.hashCode()`. -/
def hashCode (s : String) : Int32 :=
  (s.toList.flatMap codeUnits).foldl (fun h u => 31 * h + Int32.ofNat u) 0

example : split " " "BID 100 0" = ["BID", "100", "0"] := by decide
example : split " " " a  b  " = ["", "a", "", "b"] := by decide
example : split "@/&@" "ROLE_USER@/&@" = ["ROLE_USER"] := by decide
example : (split " " "", split " " " ") = ([""], []) := by decide
example : hashCode "amount" = -1413853096 := by decide

end NovaBank.Java
