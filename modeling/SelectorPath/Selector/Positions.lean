/-
Positions among siblings, in the notation `An+B`.

* `Positions`: which positions are meant.
* `Positions.ofText?`: reading the notation. White space is ignored everywhere
  and letters count without regard to case. Numbers are signed and have 64
  bits; a larger one is no number.
* `Positions.condition`: the condition on the position of a node.
-/
import SelectorPath.Text.Space
import SelectorPath.XPath.Condition

namespace SelectorPath

/-- A set of positions, counted from one on. -/
inductive Positions where
  /-- `odd`. -/
  | odd
  /-- `even`. -/
  | even
  /-- One position. -/
  | exactly (i : Int)
  /-- `An+B`: the positions `step * n + offset` for `n` from zero on. -/
  | every (step offset : Int)
  deriving DecidableEq

namespace Positions

/-- The number that a row of decimal digits stands for. -/
def decimal (digits : List Char) : Nat :=
  digits.foldl (fun n d => 10 * n + (d.toNat - '0'.toNat)) 0

/-- The number fits into 64 bits with a sign. -/
def isWord (i : Int) : Bool := -9223372036854775808 ≤ i && i ≤ 9223372036854775807

/-- The sign in front of a number, and the digits after it. -/
def splitSign : List Char → Int × List Char
  | '+' :: digits => (1, digits)
  | '-' :: digits => (-1, digits)
  | digits => (1, digits)

/-- The number that a row of digits stands for, with or without a sign. -/
def integer? (text : List Char) : Option Int :=
  let (sign, digits) := splitSign text
  let value := sign * (decimal digits : Int)
  if !digits.isEmpty && digits.all Char.isDigit && isWord value then some value else none

/-- The number before `n`; a sign stands for one, and so does nothing. -/
def step? (text : List Char) : Option Int :=
  if text = [] ∨ text = ['+'] then some 1
  else if text = ['-'] then some (-1)
  else integer? text

/-- The number after `n`, which has a sign; nothing stands for zero. -/
def offset? : List Char → Option Int
  | [] => some 0
  | c :: rest => if c = '+' ∨ c = '-' then integer? (c :: rest) else none

/-- The text without white space and in small letters. -/
def normalized (text : List Char) : List Char :=
  (text.filter fun c => !Text.isSpace c).map Char.toLower

/-- The positions that a normalized text stands for. -/
def ofNormalized? (text : List Char) : Option Positions :=
  if text = ['o', 'd', 'd'] then some .odd
  else if text = ['e', 'v', 'e', 'n'] then some .even
  else
    match text.dropWhile (· != 'n') with
    | [] => (integer? text).map .exactly
    | _ :: rest => do
      let step ← step? (text.takeWhile (· != 'n'))
      let offset ← offset? rest
      return .every step offset

/-- The positions that a text stands for. -/
def ofText? (text : String) : Option Positions := ofNormalized? (normalized text.toList)

open XPath

/-- The position less a number, with the sign of the number folded in. -/
def shifted (offset : Int) : Number :=
  if offset < 0 then .sum .position (.integer (-offset))
  else .difference .position (.integer offset)

/-- The shifted position is a multiple of `step`. -/
def multiple (step : Nat) (offset : Int) : Condition :=
  .compare .equal (.remainder (shifted offset) (.integer step)) (.integer 0)

/-- The condition that the position of a node is among the positions. -/
def condition : Positions → Condition
  | .odd =>
    .conjunction (.compare .equal (.remainder .position (.integer 2)) (.integer 1))
      (.compare .atLeast .position (.integer 1))
  | .even =>
    .conjunction (.compare .equal (.remainder .position (.integer 2)) (.integer 0))
      (.compare .atLeast .position (.integer 0))
  | .exactly i => .compare .equal .position (.integer i)
  | .every step offset =>
    if step = 0 then .compare .equal .position (.integer offset)
    else
      .conjunction (multiple step.natAbs offset)
        (.compare (if 0 < step then .atLeast else .atMost) .position (.integer offset))

end Positions

end SelectorPath
