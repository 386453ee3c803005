import Clearance.Json.Basic
import Clearance.Text.Integer
import Clearance.Text.Utf8

/-! Reading a JSON document from bytes. -/
namespace Clearance.Json

open Clearance.Text (Piece pieces)

/-- One element of a string: a character as itself, a code unit behind an escape, or a byte that is
not UTF-8. -/
inductive Atom where
  | char (c : Char)
  | unit (u : Nat)
  | stray
  deriving DecidableEq

def skipBlank : List Piece → List Piece
  | .char c :: rest =>
    if c = ' ' || c = '\n' || c = '\t' || c = '\r' then skipBlank rest else .char c :: rest
  | rest => rest

def hexUnit? (a b c d : Char) : Option Nat := Text.radix? 16 [a, b, c, d]

def shortEscape? : Char → Option Nat
  | '\x22' => some 0x22
  | '\\' => some 0x5C
  | '/' => some 0x2F
  | 'b' => some 0x8
  | 'f' => some 0xC
  | 'n' => some 0xA
  | 'r' => some 0xD
  | 't' => some 0x9
  | _ => none

/-- The elements up to the closing quote, and what follows it. -/
def readAtoms : List Piece → Option (List Atom × List Piece)
  | [] => none
  | .char '\\' :: .char 'u' :: .char a :: .char b :: .char c :: .char d :: rest => do
    let u ← hexUnit? a b c d
    let (atoms, rest) ← readAtoms rest
    return (.unit u :: atoms, rest)
  | .char '\\' :: .char e :: rest => do
    let u ← shortEscape? e
    let (atoms, rest) ← readAtoms rest
    return (.unit u :: atoms, rest)
  | .char c :: rest =>
    if c = '\x22' then some ([], rest)
    else if c = '\\' || c < ' ' then none
    else do
      let (atoms, rest) ← readAtoms rest
      return (.char c :: atoms, rest)
  | .stray _ :: rest => do
    let (atoms, rest) ← readAtoms rest
    return (.stray :: atoms, rest)

def isHighSurrogate (u : Nat) : Bool := 0xD800 ≤ u && u ≤ 0xDBFF

def isLowSurrogate (u : Nat) : Bool := 0xDC00 ≤ u && u ≤ 0xDFFF

/-- The characters that the elements stand for; a high surrogate needs a low one right after it. -/
def joinAtoms : List Atom → Option (List Char)
  | [] => some []
  | .char c :: rest => (joinAtoms rest).map (c :: ·)
  | .stray :: _ => none
  | .unit u :: .unit v :: rest =>
    if isHighSurrogate u && isLowSurrogate v then
      (joinAtoms rest).map (Char.ofNat (0x10000 + (u - 0xD800) * 0x400 + (v - 0xDC00)) :: ·)
    else if isHighSurrogate u || isLowSurrogate u then none
    else (joinAtoms (.unit v :: rest)).map (Char.ofNat u :: ·)
  | .unit u :: rest =>
    if isHighSurrogate u || isLowSurrogate u then none
    else (joinAtoms rest).map (Char.ofNat u :: ·)

def Atom.isPlain : Atom → Bool
  | .unit _ => false
  | _ => true

def Literal.ofAtoms (atoms : List Atom) : Literal :=
  ⟨(joinAtoms atoms).map String.ofList, atoms.all Atom.isPlain⟩

def readLiteral (ps : List Piece) : Option (Literal × List Piece) := do
  let (atoms, rest) ← readAtoms ps
  return (.ofAtoms atoms, rest)

def readDigits : List Piece → List Char × List Piece
  | .char c :: rest =>
    if c.isDigit then
      let (ds, rest) := readDigits rest
      (c :: ds, rest)
    else ([], .char c :: rest)
  | rest => ([], rest)

def readFraction : List Piece → Option (List Char × List Piece)
  | .char '.' :: rest =>
    match readDigits rest with
    | ([], _) => none
    | r => some r
  | rest => some ([], rest)

def readExponent : List Piece → Option (Option Int × List Piece)
  | .char c :: rest =>
    if c = 'e' || c = 'E' then
      let (negative, rest) := match rest with
        | .char '-' :: rest => (true, rest)
        | .char '+' :: rest => (false, rest)
        | rest => (false, rest)
      match readDigits rest with
      | ([], _) => none
      | (ds, rest) =>
        let n : Int := Nat.ofDigitChars 10 ds 0
        some (some (if negative then -n else n), rest)
    else some (none, .char c :: rest)
  | rest => some (none, rest)

/-- A leading zero is a whole part of its own. -/
def readWhole : List Piece → Option (List Char × List Piece)
  | .char '0' :: rest => some (['0'], rest)
  | ps =>
    match readDigits ps with
    | ([], _) => none
    | r => some r

def readNumber (ps : List Piece) : Option (Number × List Piece) := do
  let (negative, ps) := match ps with
    | .char '-' :: rest => (true, rest)
    | ps => (false, ps)
  let (whole, ps) ← readWhole ps
  let (fraction, ps) ← readFraction ps
  let (exponent, ps) ← readExponent ps
  return (⟨negative, Nat.ofDigitChars 10 (whole ++ fraction) 0,
    exponent.getD 0 - (fraction.length : Int), fraction.isEmpty && exponent.isNone⟩, ps)

def readWord (ps : List Piece) : List Char → Option (List Piece)
  | [] => some ps
  | w :: ws =>
    match ps with
    | .char c :: rest => if c = w then readWord rest ws else none
    | _ => none

mutual

def readValue : Nat → List Piece → Option (Value × List Piece)
  | 0, _ => none
  | fuel + 1, ps =>
    match skipBlank ps with
    | .char '\x22' :: rest => do
      let (s, rest) ← readLiteral rest
      return (.string s, rest)
    | .char '[' :: rest =>
      match skipBlank rest with
      | .char ']' :: rest => some (.array [], rest)
      | rest => do
        let (items, rest) ← readItems fuel rest
        return (.array items, rest)
    | .char '\x7b' :: rest =>
      match skipBlank rest with
      | .char '\x7d' :: rest => some (.object [], rest)
      | rest => do
        let (members, rest) ← readMembers fuel rest
        return (.object members, rest)
    | .char 'n' :: rest => (readWord rest ['u', 'l', 'l']).map (.null, ·)
    | .char 't' :: rest => (readWord rest ['r', 'u', 'e']).map (.bool true, ·)
    | .char 'f' :: rest => (readWord rest ['a', 'l', 's', 'e']).map (.bool false, ·)
    | rest => do
      let (n, rest) ← readNumber rest
      return (.number n, rest)

def readItems : Nat → List Piece → Option (List Value × List Piece)
  | 0, _ => none
  | fuel + 1, ps => do
    let (v, rest) ← readValue fuel ps
    match skipBlank rest with
    | .char ']' :: rest => return ([v], rest)
    | .char ',' :: rest =>
      let (vs, rest) ← readItems fuel rest
      return (v :: vs, rest)
    | _ => none

def readMembers : Nat → List Piece → Option (List (Literal × Value) × List Piece)
  | 0, _ => none
  | fuel + 1, ps =>
    match skipBlank ps with
    | .char '\x22' :: rest => do
      let (key, rest) ← readLiteral rest
      match skipBlank rest with
      | .char ':' :: rest =>
        let (v, rest) ← readValue fuel rest
        match skipBlank rest with
        | .char '\x7d' :: rest => return ([(key, v)], rest)
        | .char ',' :: rest =>
          let (ms, rest) ← readMembers fuel rest
          return ((key, v) :: ms, rest)
        | _ => none
      | _ => none
    | _ => none

end

/-- One document with nothing but blanks around it. Every piece is entered at most twice, once for
the value that starts there and once for the list that holds it. -/
def readPieces (ps : List Piece) : Option Value := do
  let (v, rest) ← readValue (2 * ps.length + 2) ps
  if (skipBlank rest).isEmpty then some v else none

def read? (b : ByteArray) : Option Value := readPieces (pieces b)

end Clearance.Json
