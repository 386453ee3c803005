/-! JSON documents. A string keeps whether it stands for text at all, and a number how it was
written, because whether that matters depends on where they occur. -/
namespace Clearance.Json

/-- A string between its quotes. -/
structure Literal where
  /-- The text it stands for, unless it holds a lone surrogate or a byte that is not UTF-8. -/
  text : Option String
  /-- No escape occurs in it. -/
  plain : Bool
  deriving DecidableEq

/-- The value is `mantissa * 10 ^ exponent`, below zero if `negative`. -/
structure Number where
  negative : Bool
  mantissa : Nat
  exponent : Int
  /-- Written without a fraction and without an exponent. -/
  integral : Bool
  deriving DecidableEq

inductive Value where
  | null
  | bool (b : Bool)
  | number (n : Number)
  | string (s : Literal)
  | array (items : List Value)
  | object (members : List (Literal × Value))

/-- The characters that are never written as themselves in a string. -/
def needsEscape (c : Char) : Bool := c = '\x22' || c = '\\' || c < ' '

/-- The literal that writes this text with as few escapes as there can be. -/
def Literal.ofString (s : String) : Literal := ⟨some s, !s.toList.any needsEscape⟩

def Number.ofInt (n : Int) : Number := ⟨n < 0, n.natAbs, 0, true⟩

/-- The integer that is written here; zero has no sign. -/
def Number.int? (n : Number) : Option Int :=
  if n.integral then
    if n.negative then if n.mantissa = 0 then none else some (-(n.mantissa : Int))
    else some n.mantissa
  else none

theorem Number.int?_ofInt (n : Int) : (Number.ofInt n).int? = some n := by
  by_cases h : n < 0
  · have h0 : n.natAbs ≠ 0 := by omega
    simp only [ofInt, int?, h, decide_true, if_true, if_neg h0, Option.some.injEq]
    omega
  · simp only [ofInt, int?, h, decide_false, if_true, Bool.false_eq_true, if_false,
      Option.some.injEq]
    omega

namespace Value

def str (s : String) : Value := .string (.ofString s)

def int (n : Int) : Value := .number (.ofInt n)

def nat (n : Nat) : Value := .int n

def obj (members : List (String × Value)) : Value :=
  .object (members.map fun m => (.ofString m.1, m.2))

def ofOption {α : Type} (f : α → Value) : Option α → Value
  | none => .null
  | some a => f a

def text? : Value → Option String
  | .string s => s.text
  | _ => none

def bool? : Value → Option Bool
  | .bool b => some b
  | _ => none

def int? : Value → Option Int
  | .number n => n.int?
  | _ => none

def natural64? (v : Value) : Option Nat := do
  let n ← v.int?
  if 0 ≤ n ∧ n < UInt64.size then some n.toNat else none

def items? : Value → Option (List Value)
  | .array items => some items
  | _ => none

/-- The member with this name; of several the last. -/
def member? (name : String) : Value → Option Value
  | .object members => (members.reverse.find? fun m => m.1.text = some name).map (·.2)
  | _ => none

/-- What is written for the named fields of a record, in their order: members of an object, each at
most once, with others beside them; or the items of an array, of which the last may be left out. -/
def fields? (names : List String) : Value → Option (List (Option Value))
  | .array items =>
    if items.length ≤ names.length then some (names.zipIdx.map fun n => items[n.2]?) else none
  | .object members =>
    if members.all fun m => m.1.text.isSome then
      names.mapM fun name =>
        match members.filter fun m => m.1.text = some name with
        | [] => some none
        | [m] => some (some m.2)
        | _ => none
    else none
  | _ => none

end Value

end Clearance.Json
