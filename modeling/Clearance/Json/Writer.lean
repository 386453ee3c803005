import Clearance.Json.Basic
import Clearance.Text.Integer

/-! Writing a JSON document without any blanks. -/
namespace Clearance.Json

def hexChar (n : Nat) : Char := Nat.digitChar (n % 16)

/-- Five control characters have a letter of their own, the others their code in lower case. -/
def escapeChar (c : Char) : List Char :=
  if c = '\x22' || c = '\\' then ['\\', c]
  else if c = '\x08' then ['\\', 'b']
  else if c = '\x0c' then ['\\', 'f']
  else if c = '\n' then ['\\', 'n']
  else if c = '\r' then ['\\', 'r']
  else if c = '\t' then ['\\', 't']
  else if c < ' ' then ['\\', 'u', '0', '0', hexChar (c.toNat / 16), hexChar c.toNat]
  else [c]

def writeString (s : String) : List Char :=
  '\x22' :: (s.toList.flatMap escapeChar ++ ['\x22'])

/-- What stands for no text is written as the empty string. -/
def Literal.write (s : Literal) : List Char := writeString (s.text.getD "")

def Number.write (n : Number) : List Char :=
  (if n.negative then ['-'] else []) ++ Nat.toDigits 10 n.mantissa ++
    (if n.integral then [] else 'e' :: Text.writeInteger n.exponent)

mutual

def Value.write : Value → List Char
  | .null => ['n', 'u', 'l', 'l']
  | .bool true => ['t', 'r', 'u', 'e']
  | .bool false => ['f', 'a', 'l', 's', 'e']
  | .number n => n.write
  | .string s => s.write
  | .array items => '[' :: writeItems items
  | .object members => '\x7b' :: writeMembers members

def writeItems : List Value → List Char
  | [] => [']']
  | [v] => v.write ++ [']']
  | v :: vs => v.write ++ ',' :: writeItems vs

def writeMembers : List (Literal × Value) → List Char
  | [] => ['\x7d']
  | [(k, v)] => k.write ++ ':' :: (v.write ++ ['\x7d'])
  | (k, v) :: ms => k.write ++ ':' :: (v.write ++ ',' :: writeMembers ms)

end

def Value.render (v : Value) : String := String.ofList v.write

end Clearance.Json
