import Clearance.Text.Integer
import Clearance.Yaml.Quoted

/-! Anchors and tags, which stand before a value, and directives, which stand before a document. -/
namespace Clearance.Yaml

def anchorName? (p : Place) : Option (String × Place) :=
  let name := (p.rest.drop 1).takeWhile isNameChar
  if name.isEmpty then none else some (String.ofList name, p.pass (name.length + 1))

def uriByte? : List Char → Option (Nat × List Char)
  | '%' :: a :: b :: cs => (Text.radix? 16 [a, b]).map (·, cs)
  | _ => none

def byteCount? (lead : Nat) : Option Nat :=
  if lead < 0x80 then some 1
  else if lead / 0x20 = 6 then some 2
  else if lead / 0x10 = 14 then some 3
  else if lead / 0x8 = 30 then some 4
  else none

/-- The number whose digits to the base 256 are the bytes read so far and so many more. -/
def uriBytes? : Nat → Nat → List Char → Option (Nat × List Char)
  | 0, code, cs => some (code, cs)
  | n + 1, code, cs => do
    let (b, cs) ← uriByte? cs
    if b / 0x40 = 2 then uriBytes? n (code * 256 + b) cs else none

/-- The character of an escape. It is named by its bytes taken as one number. -/
def uriEscape? (cs : List Char) : Option (Char × List Char) := do
  let (lead, cs) ← uriByte? cs
  let n ← byteCount? lead
  let (code, cs) ← uriBytes? (n - 1) lead cs
  return (← codePoint? code, cs)

def uriText? (isChar : Char → Bool) : List Char → Option (List Char × List Char)
  | [] => some ([], [])
  | c :: cs =>
    if c = '%' then
      match uriEscape? (c :: cs) with
      | some (d, rest) =>
        if _ : rest.length ≤ cs.length then
          (uriText? isChar rest).map fun r => (d :: r.1, r.2)
        else none
      | none => none
    else if isChar c then (uriText? isChar cs).map fun r => (c :: r.1, r.2)
    else some ([], c :: cs)
termination_by cs => cs.length
decreasing_by all_goals simp only [List.length_cons]; omega

/-- The handle of a tag: an exclamation mark, and a word that another one closes. -/
def tagHandle? : List Char → Option (List Char × List Char)
  | '!' :: cs =>
    let word := cs.takeWhile isWordChar
    match cs.dropWhile isWordChar with
    | '!' :: rest => some ('!' :: word ++ ['!'], rest)
    | rest => some ('!' :: word, rest)
  | _ => none

/-- A tag as it is written: a handle that stands for a beginning, and the rest. -/
structure Tag where
  handle : String
  suffix : String
  deriving DecidableEq

/-- A handle that is closed stands for the beginning that a directive gives it. -/
def isClosedHandle (handle : List Char) : Bool :=
  2 ≤ handle.length && handle.head? = some '!' && handle.getLast? = some '!'

/-- A tag in angles is complete. -/
def wholeTag? (cs : List Char) : Option (Tag × List Char) := do
  match ← uriText? isUriChar cs with
  | (suffix, '>' :: rest) => return (⟨"", String.ofList suffix⟩, rest)
  | _ => none

def shortTag? (cs : List Char) : Option (Tag × List Char) := do
  let (handle, cs) ← tagHandle? cs
  let (suffix, cs) ← uriText? isTagChar cs
  if isClosedHandle handle then
    if suffix.isEmpty then none else return (⟨String.ofList handle, String.ofList suffix⟩, cs)
  else
    let suffix := handle.drop 1 ++ suffix
    return (if suffix.isEmpty then ⟨"", "!"⟩ else ⟨"!", String.ofList suffix⟩, cs)

def tag? (flow : Bool) (p : Place) : Option (Tag × Place) := do
  let (tag, rest) ← if p.rest[1]? = some '<' then wholeTag? (p.rest.drop 2) else shortTag? p.rest
  if endsWord rest || (flow && startsFlowMark rest) then return (tag, p.passTo rest) else none

inductive Directive where
  | version
  /-- What the handle of a tag stands for. -/
  | tag (handle start : String)
  | other

/-- One to nine digits, and what follows them. -/
def versionNumber? (cs : List Char) : Option (List Char) :=
  let n := (cs.takeWhile Char.isDigit).length
  if n = 0 || 9 < n then none else some (cs.drop n)

def version? (cs : List Char) : Option (Directive × List Char) := do
  match ← versionNumber? (cs.dropWhile isSpace) with
  | '.' :: cs => return (.version, ← versionNumber? cs)
  | _ => none

/-- The beginning that a handle stands for: an exclamation mark or the first character of a tag, and
more of a tag. -/
def tagStart? : List Char → Option (List Char × List Char)
  | '!' :: cs => (uriText? isUriChar cs).map fun r => ('!' :: r.1, r.2)
  | c :: cs => if isTagChar c then uriText? isUriChar (c :: cs) else none
  | [] => none

def tagDirective? (cs : List Char) : Option (Directive × List Char) := do
  let (handle, cs) ← tagHandle? (cs.dropWhile isSpace)
  if handle = ['!'] || isClosedHandle handle then
    let (start, cs) ← tagStart? (cs.dropWhile isSpace)
    if endsWord cs then return (.tag (String.ofList handle) (String.ofList start), cs) else none
  else none

def directive? (p : Place) : Option (Directive × Place) := do
  let cs := p.rest.drop 1
  let name := cs.takeWhile isWordChar
  let rest := cs.dropWhile isWordChar
  if name.isEmpty || !endsWord rest then none else
  let (d, rest) ←
    if name = "YAML".toList then version? rest
    else if name = "TAG".toList then tagDirective? rest
    else some (.other, rest.dropWhile (· ≠ '\n'))
  let (_, q) ← (p.passTo rest).endLine? isSpace
  if q.atBreak then return (d, q.nextLine) else if q.endsLine then return (d, q) else none

end Clearance.Yaml
