import Clearance.Yaml.Property

/-! The tokens of a text. Those that open and close blocks come from the indentation of lines. -/
namespace Clearance.Yaml

inductive Token where
  | directive (d : Directive)
  | documentStart
  | documentEnd
  | listStart
  | mappingStart
  | blockEnd
  | openBracket
  | closeBracket
  | openBrace
  | closeBrace
  | dash
  | comma
  | key
  | value
  | alias (name : String)
  | anchor (name : String)
  | tag (t : Tag)
  | scalar (plain : Bool) (text : String)

structure Indent where
  /-- The column of the level around it. -/
  outer : Int
  /-- A block ends with it; otherwise it only keeps a value right of what holds it. -/
  block : Bool

/-- A token that turns out to begin a key if a colon follows it. -/
structure KeyCandidate where
  /-- Nothing but a key may stand there. -/
  required : Bool
  /-- The number of tokens before it. -/
  token : Nat
  line : Nat
  index : Nat
  column : Nat

/-- The tokens before a place, and what of them matters for the tokens after it. -/
structure Layout where
  place : Place
  /-- The last first. -/
  tokens : List Token := []
  /-- The last token is an anchor or a tag at the start of a line. -/
  loose : Bool := false
  indent : Int := -1
  indents : List Indent := []
  candidate : Option KeyCandidate := none
  /-- The candidates outside of each bracket that is open. -/
  outer : List (Option KeyCandidate) := []
  keyAllowed : Bool := true
  /-- The index at which a colon needs no gap after it. -/
  adjacent : Option Nat := none
  /-- A mapping has been opened in brackets: by a brace, or by a question mark. -/
  opened : Bool := false
  /-- An entry without braces is open in brackets. -/
  single : Bool := false

namespace Layout

def flow (s : Layout) : Bool := !s.outer.isEmpty

def push (s : Layout) (t : Token) : Layout := { s with tokens := t :: s.tokens, loose := false }

/-- Puts a token before the one that begins a key. -/
def insert (s : Layout) (k : KeyCandidate) (t : Token) : Layout :=
  { s with tokens := s.tokens.insertIdx (s.tokens.length - k.token) t }

def pass (s : Layout) (n : Nat) : Layout := { s with place := s.place.pass n }

def endLine? (s : Layout) (isBlank : Char → Bool) : Option (List Char × Layout) :=
  (s.place.endLine? isBlank).map fun r => (r.1, { s with place := r.2 })

/-- Leaves the levels of indentation beyond a column. -/
def leave (column : Int) : List Indent → Int → List Token → List Indent × Int × List Token
  | [], indent, tokens => ([], indent, tokens)
  | d :: ds, indent, tokens =>
    if column < indent then leave column ds d.outer (if d.block then .blockEnd :: tokens else tokens)
    else (d :: ds, indent, tokens)

/-- Closes the blocks beyond a column; in brackets indentation says nothing. -/
def closeTo (s : Layout) (column : Int) : Layout :=
  if s.flow then s
  else
    let (indents, indent, tokens) := leave column s.indents s.indent s.tokens
    { s with indents, indent, tokens, loose := s.loose && tokens.length = s.tokens.length }

def leaveValues : List Indent → Int → List Indent × Int
  | [], indent => ([], indent)
  | d :: ds, indent => if d.block then (d :: ds, indent) else leaveValues ds d.outer

def toBlock (s : Layout) : Layout :=
  let (indents, indent) := leaveValues s.indents s.indent
  { s with indents, indent }

def enterValue (s : Layout) : Layout :=
  if !s.flow && s.indents.head?.any (·.block) then
    { s with indents := ⟨s.indent, false⟩ :: s.indents, indent := s.indent + 1 }
  else s

def leaveValue (s : Layout) (column : Nat) : Layout :=
  match s.indents with
  | d :: ds =>
    if s.indent ≤ column && !d.block then { s with indents := ds, indent := d.outer } else s
  | [] => s

/-- Opens a block in a column, unless one is open there, before the key that it begins with or at the
end. -/
def openBlock (s : Layout) (column : Nat) (k : Option KeyCandidate) (t : Token) : Layout :=
  if s.flow then s
  else
    let s := s.leaveValue column
    if s.indent < column then
      let s := { s with indents := ⟨s.indent, true⟩ :: s.indents, indent := column }
      match k with
      | some k => s.insert k t
      | none => s.push t
    else s

def markKey (s : Layout) : Layout :=
  if s.keyAllowed then
    { s with candidate := some {
      required := !s.flow && s.indent = s.place.column && s.indents.head?.any (·.block)
      token := s.tokens.length, line := s.place.line, index := s.place.index
      column := s.place.column } }
  else s

def dropKey? (s : Layout) : Option Layout :=
  if s.candidate.any (·.required) then none else some { s with candidate := none }

/-- Outside of brackets a key ends on its line, and after 1024 characters at the latest. -/
def dropStaleKey? (s : Layout) : Option Layout :=
  if !s.flow && s.candidate.any fun k =>
      k.line < s.place.line || k.index + 1024 < s.place.index
  then s.dropKey?
  else some s

def endSingle (s : Layout) : Layout :=
  if s.single then { s.push .closeBrace with single := false, opened := false } else s

end Layout

end Clearance.Yaml
