import Clearance.Yaml.Letter

/-! Places in a text, and the moves from one to a later one. -/
namespace Clearance.Yaml

/-- A place in a text whose lines end with line feeds. -/
structure Place where
  rest : List Char
  /-- The number of characters before it. -/
  index : Nat
  line : Nat
  column : Nat
  /-- Nothing but blanks stands before it on its line. -/
  fresh : Bool

/-- Every line ends with a line feed. -/
def joinBreaks : List Char → List Char
  | '\r' :: '\n' :: cs => '\n' :: joinBreaks cs
  | '\r' :: cs => '\n' :: joinBreaks cs
  | c :: cs => c :: joinBreaks cs
  | [] => []

namespace Place

/-- The start of a text; a null character ends it. -/
def ofText (text : String) : Place :=
  ⟨(joinBreaks text.toList).takeWhile (· ≠ '\x00'), 0, 0, 0, true⟩

def skip (p : Place) (n : Nat) : Place :=
  { p with rest := p.rest.drop n, index := p.index + n, column := p.column + n }

/-- Past so many characters that are not blank. -/
def pass (p : Place) (n : Nat) : Place := { p.skip n with fresh := p.fresh && n = 0 }

def passTo (p : Place) (rest : List Char) : Place := p.pass (p.rest.length - rest.length)

def nextLine (p : Place) : Place := ⟨p.rest.drop 1, p.index + 1, p.line + 1, 0, true⟩

def startsWith (p : Place) (c : Char) : Bool := p.rest.head? = some c

def atBreak (p : Place) : Bool := p.startsWith '\n'

def endsLine (p : Place) : Bool := p.rest.head?.all (· = '\n')

def skipWhile (p : Place) (isBlank : Char → Bool) : Place := p.skip (p.rest.takeWhile isBlank).length

def passComment (p : Place) : Place := p.pass (p.rest.takeWhile (· ≠ '\n')).length

/-- Past blanks and the comment that may follow them, and the blanks. A comment without a blank
before it is none. -/
def endLine? (isBlank : Char → Bool) (p : Place) : Option (List Char × Place) :=
  let blanks := p.rest.takeWhile isBlank
  let p := p.skip blanks.length
  if p.startsWith '#' then if blanks.isEmpty then none else some (blanks, p.passComment)
  else some (blanks, p)

/-- Three times this character at the start of a line, and then the end of a word. -/
def marks (c : Char) (p : Place) : Bool :=
  p.column = 0 && p.rest.take 3 = List.replicate 3 c && endsWord (p.rest.drop 3)

def marksDocument (p : Place) : Bool := p.marks '-' || p.marks '.'

/-- The lines without a word from here on, where `margin?` says what may stand before a word; their
number and the place after them. -/
def emptyLines? (margin? : Place → Option Place) (p : Place) (n : Nat) : Option (Nat × Place) := do
  let q ← margin? p
  if q.atBreak then
    if _ : q.nextLine.rest.length < p.rest.length then emptyLines? margin? q.nextLine (n + 1)
    else none
  else some (n, q)
termination_by p.rest.length

end Place

/-- What `n` line breaks between two words stand for: one is a space, and each further one is kept. -/
def fold (n : Nat) : List Char := if n = 1 then [' '] else List.replicate (n - 1) '\n'

end Clearance.Yaml
