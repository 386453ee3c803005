import Clearance.Decimal.Reading
import Clearance.Text.Integer

/-! The values that a document holds. -/
namespace Clearance.Yaml

inductive Scalar where
  | null
  | bool (b : Bool)
  | integer (n : Int)
  /-- A number with a fraction or an exponent, or with more digits than an integer may have. -/
  | real (written : String)
  | text (s : String)
  deriving DecidableEq

inductive Value where
  /-- What a scalar of another kind than its tag says stands for, and a name within its own value. -/
  | undefined
  | scalar (s : Scalar)
  | list (items : List Value)
  | mapping (entries : List (Scalar × Value))

/-- Digits of this base behind at most one sign. -/
def signedRadix? (base : Nat) : List Char → Option Int
  | '-' :: cs => (Text.radix? base cs).map fun n => -(n : Int)
  | '+' :: cs => (Text.radix? base cs).map fun n => (n : Int)
  | cs => (Text.radix? base cs).map fun n => (n : Int)

/-- An integer, in base sixteen or eight where the text opens so. A plus may stand before the sign
of a decimal one. -/
def integer? (cs : List Char) : Option Int :=
  let based := match cs with
    | '0' :: 'x' :: cs => signedRadix? 16 cs
    | '0' :: 'o' :: cs => signedRadix? 8 cs
    | '+' :: cs => Text.integer? cs
    | _ => none
  (based >>= Text.integer64?) <|> (Text.integer? cs >>= Text.integer64?)

def notFinite : List String :=
  [".inf", ".Inf", ".INF"].flatMap (fun s => [s, "+" ++ s, "-" ++ s]) ++ [".nan", ".NAN"]

def isReal (s : String) : Bool := s ∈ notFinite || (Decimal.read? s).isSome

def Scalar.ofPlain (s : String) : Scalar :=
  if s ∈ ["", "~", "null"] then .null
  else if s ∈ ["true", "True", "TRUE"] then .bool true
  else if s ∈ ["false", "False", "FALSE"] then .bool false
  else match integer? s.toList with
    | some n => .integer n
    | none => if isReal s then .real s else .text s

def Value.ofKind (kind s : String) : Value :=
  match kind with
  | "bool" => if s = "true" then .scalar (.bool true)
    else if s = "false" then .scalar (.bool false) else .undefined
  | "int" => match Text.integer? s.toList >>= Text.integer64? with
    | some n => .scalar (.integer n)
    | none => .undefined
  | "float" => if isReal s then .scalar (.real s) else .undefined
  | "null" => if s = "~" ∨ s = "null" then .scalar .null else .undefined
  | _ => .scalar (.text s)

def dropKey (key : Scalar) (es : List (Scalar × Value)) : List (Scalar × Value) :=
  es.filter (·.1 ≠ key)

/-- The entries of a mapping whose keys and values stand in one row; of several with one key the last
counts. A key that is undefined is left out, so that what follows it is taken for a key; a key at the
end is left out, too. -/
def entries? (before : List (Scalar × Value)) : List Value → Option (List (Scalar × Value))
  | [] => some before
  | .undefined :: vs => entries? before vs
  | [_] => some before
  | .scalar k :: v :: vs => entries? (dropKey k before ++ [(k, v)]) vs
  | _ :: _ :: _ => none

def Value.ofRow? (vs : List Value) : Option Value := (entries? [] vs).map .mapping

end Clearance.Yaml
