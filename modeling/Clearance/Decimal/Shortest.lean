import Clearance.Decimal.Binary

/-! The shortest decimal that reads back as a given floating-point number. -/
namespace Clearance.Decimal

structure Expansion where
  digits : Nat
  exponent : Int
  deriving DecidableEq

/-- The numbers that round to `m * 2 ^ e`, in quarters of `2 ^ e`, and whether the ends belong to
them. Below the least mantissa of full width the numbers stand twice as close. -/
def roundingInterval (m : Nat) (e : Int) : Nat × Nat × Bool :=
  let below := if m = 0x10000000000000 ∧ e ≠ -1074 then 1 else 2
  (4 * m - below, 4 * m + 2, m % 2 = 0)

def readsBack (m : Nat) (e : Int) (d : Expansion) : Bool :=
  let (low, high, closed) := roundingInterval m e
  let unit := Ratio.scaled 1 (e - 2)
  let v := Ratio.timesTen ⟨d.digits, 1⟩ d.exponent
  let a := low * unit.num * v.den
  let b := high * unit.num * v.den
  let x := v.num * unit.den
  if closed then a ≤ x && x ≤ b else a < x && x < b

/-- The exponent of the leading digit, searched for from `k` downwards. -/
def leadingExponent (r : Ratio) : Nat → Int → Int
  | 0, k => k
  | fuel + 1, k => if 1 ≤ (r.timesTen (-k)).floor then k else leadingExponent r fuel (k - 1)

/-- The neighbours of the number on the grid of `10 ^ e`, the nearer first. -/
def neighbours (r : Ratio) (e : Int) (tie : Tie) : List Expansion :=
  let s := r.timesTen (-e)
  let near := s.round tie
  let far := if near = s.floor then near + 1 else near - 1
  [⟨near, e⟩, ⟨far, e⟩]

/-- The first decimal, on grids ever finer, that reads back. -/
def searchGrids (m : Nat) (e : Int) (tie : Tie) (r : Ratio) : Nat → Int → Expansion
  | 0, k => ⟨(r.timesTen (-k)).round tie, k⟩
  | fuel + 1, k =>
    match (neighbours r k tie).find? (readsBack m e) with
    | some d => d
    | none => searchGrids m e tie r fuel (k - 1)

def Expansion.trim : Nat → Expansion → Expansion
  | 0, d => d
  | fuel + 1, d =>
    if d.digits ≠ 0 ∧ d.digits % 10 = 0 then trim fuel ⟨d.digits / 10, d.exponent + 1⟩ else d

/-- The decimal with the fewest digits that reads back as `m * 2 ^ e`, and of those the nearest. -/
def shortest (m : Nat) (e : Int) (tie : Tie) : Expansion :=
  if m = 0 then ⟨0, 0⟩
  else
    let r := Ratio.scaled m e
    (searchGrids m e tie r 17 (leadingExponent r 640 310)).trim 20

/-- What a decimal is written with: no exponent, no point unless digits follow it. -/
def Expansion.write (d : Expansion) : List Char :=
  let ds := Nat.toDigits 10 d.digits
  if 0 ≤ d.exponent then
    if d.digits = 0 then ds else ds ++ List.replicate d.exponent.toNat '0'
  else
    let places := (-d.exponent).toNat
    let ds := List.replicate (places + 1 - ds.length) '0' ++ ds
    ds.take (ds.length - places) ++ '.' :: ds.drop (ds.length - places)

def notFinite (negative : Bool) : List Char := if negative then ['-', 'i', 'n', 'f'] else ['i', 'n', 'f']

def signed (negative : Bool) (cs : List Char) : List Char := if negative then '-' :: cs else cs

/-- The shortest text that reads back as the number. -/
def natural (x : Float) : String :=
  match Binary.ofFloat x with
  | .nan => "NaN"
  | .infinite negative => String.ofList (notFinite negative)
  | .finite negative m e => String.ofList (signed negative (shortest m e .up).write)

/-- The text of the number with so many digits after the point; a tie goes to the even digit. -/
def fixed (places : Nat) (x : Float) : String :=
  match Binary.ofFloat x with
  | .nan => "NaN"
  | .infinite negative => String.ofList (notFinite negative)
  | .finite negative m e =>
    let n := ((Ratio.scaled m e).timesTen places).round .toEven
    String.ofList (signed negative (Expansion.write ⟨n, -(places : Int)⟩))

end Clearance.Decimal
