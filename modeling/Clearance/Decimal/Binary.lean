/-! Floating-point numbers as exact quantities. -/
namespace Clearance.Decimal

/-- A number by its kind; a finite one is `mantissa * 2 ^ exponent`. -/
inductive Binary where
  | nan
  | infinite (negative : Bool)
  | finite (negative : Bool) (mantissa : Nat) (exponent : Int)
  deriving DecidableEq

def Binary.ofBits (bits : UInt64) : Binary :=
  let negative := bits >>> 63 = 1
  let e := (bits >>> 52 &&& 0x7FF).toNat
  let f := (bits &&& 0xFFFFFFFFFFFFF).toNat
  if e = 0x7FF then if f = 0 then .infinite negative else .nan
  else if e = 0 then .finite negative f (-1074)
  else .finite negative (0x10000000000000 + f) (e - 1075)

def Binary.ofFloat (x : Float) : Binary := .ofBits x.toBits

/-- A quantity `num / den`, where `den` is not zero. -/
structure Ratio where
  num : Nat
  den : Nat

/-- The quantity `m * 2 ^ e`. -/
def Ratio.scaled (m : Nat) (e : Int) : Ratio :=
  if 0 ≤ e then ⟨m <<< e.toNat, 1⟩ else ⟨m, 1 <<< (-e).toNat⟩

def Ratio.timesTen (r : Ratio) (e : Int) : Ratio :=
  if 0 ≤ e then ⟨r.num * Nat.pow 10 e.toNat, r.den⟩ else ⟨r.num, r.den * Nat.pow 10 (-e).toNat⟩

def Ratio.floor (r : Ratio) : Nat := r.num / r.den

/-- Where a quantity stands that lies halfway between two whole numbers. -/
inductive Tie where
  | toEven
  | up
  deriving DecidableEq

def Ratio.round (r : Ratio) (tie : Tie) : Nat :=
  let q := r.num / r.den
  match compare (2 * (r.num % r.den)) r.den with
  | .lt => q
  | .gt => q + 1
  | .eq => match tie with
    | .up => q + 1
    | .toEven => if q % 2 = 0 then q else q + 1

end Clearance.Decimal
