import Clearance.Text.Integer
import Clearance.Text.Lowercase

/-! Reading floating-point numbers. -/
namespace Clearance.Decimal

/-- The float nearest to `digits * 10 ^ exponent`. Far from the range of floats the exponent says
enough. -/
def toFloat (negative : Bool) (digits : Nat) (exponent : Int) : Float :=
  let size := (Nat.toDigits 10 digits).length + exponent
  let x : Float :=
    if digits = 0 ∨ size < -400 then 0
    else if 400 < size then 1 / 0
    else Float.ofScientific digits (exponent < 0) exponent.natAbs
  if negative then -x else x

def exponent? : List Char → Option Int
  | [] => some 0
  | c :: cs => if c = 'e' || c = 'E' then Text.integer? cs else none

/-- Digits, a point among them or none, and an exponent or none; there is a digit somewhere. -/
def positional? (negative : Bool) (cs : List Char) : Option Float := do
  let whole := cs.takeWhile Char.isDigit
  let cs := cs.dropWhile Char.isDigit
  let (fraction, cs) := match cs with
    | '.' :: cs => (cs.takeWhile Char.isDigit, cs.dropWhile Char.isDigit)
    | cs => ([], cs)
  if whole.isEmpty && fraction.isEmpty then none else
  let e ← exponent? cs
  return toFloat negative (Nat.ofDigitChars 10 (whole ++ fraction) 0) (e - (fraction.length : Int))

/-- A number without its sign; the names of the special ones go in any case. -/
def unsigned? (negative : Bool) (cs : List Char) : Option Float :=
  let lower := Text.lowerAscii (String.ofList cs)
  if lower = "inf" ∨ lower = "infinity" then some (if negative then -(1 / 0) else 1 / 0)
  else if lower = "nan" then some (0 / 0)
  else positional? negative cs

def read? (s : String) : Option Float :=
  match s.toList with
  | '-' :: cs => unsigned? true cs
  | '+' :: cs => unsigned? false cs
  | cs => unsigned? false cs

end Clearance.Decimal
