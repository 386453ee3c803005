import Clearance.Yaml.Basic
import Clearance.Yaml.Token.Lexer

/-! From the tokens of a text to the value of its one document. -/
namespace Clearance.Yaml

/-- The tokens that are left, and the names that were given before them. -/
structure Source where
  tokens : List Token
  /-- How many names were given. -/
  named : Nat := 0
  /-- The number of the last use of each name. -/
  names : List (String × Nat) := []
  /-- The values that are complete, by the numbers of their names. -/
  values : List (Nat × Value) := []
  /-- The handle that a directive explains, and what it stands for. -/
  handle : Option (String × String) := none

/-- Enough for the steps to any value: a token opens one collection at most, and is looked at by at
most four of the readers that call each other. -/
def Source.fuel (s : Source) : Nat := 4 * s.tokens.length + 4

abbrev Reading := StateT Source Option

namespace Reading

def peek : Reading (Option Token) := return (← get).tokens.head?

def drop : Reading Unit := modify fun s => { s with tokens := s.tokens.drop 1 }

def take (is : Token → Bool) : Reading Bool := do
  let found := (← peek).any is
  if found then drop
  return found

def expect (is : Token → Bool) : Reading Unit := do
  if ← take is then return else failure

def giveName (name : String) : Reading Nat := do
  let s ← get
  set { s with named := s.named + 1, names := (name, s.named) :: s.names }
  return s.named

def remember (v : Value) (n : Nat) : Reading Unit :=
  modify fun s => { s with values := (n, v) :: s.values }

/-- The value of a name; it is undefined within itself. -/
def valueOf (name : String) : Reading Value := do
  let s ← get
  match s.names.lookup name with
  | some n => return (s.values.lookup n).getD .undefined
  | none => failure

def coreTags : String := "tag:yaml.org,2002:"

/-- The beginning and the end of a tag. A closed handle needs a directive, unless it is `!!`. -/
def resolve (t : Tag) : Reading Tag := do
  match (← get).handle with
  | some (handle, start) => if handle = t.handle then return ⟨start, t.suffix⟩
  | none => pure ()
  if t.handle = "!!" then return ⟨coreTags, t.suffix⟩
  else if isClosedHandle t.handle.toList then failure
  else return t

/-- An anchor and a tag before a value, in any order. -/
def properties : Reading (Option Nat × Option Tag) := do
  match ← peek with
  | some (.anchor name) =>
    drop
    let n ← giveName name
    match ← peek with
    | some (.tag t) => drop; return (some n, some (← resolve t))
    | _ => return (some n, none)
  | some (.tag t) =>
    drop
    let t ← resolve t
    match ← peek with
    | some (.anchor name) => drop; return (some (← giveName name), some t)
    | _ => return (none, some t)
  | _ => return (none, none)

end Reading

/-- A scalar with its tag, if it has one. Quotes make a text of it. -/
def Value.ofScalar (plain : Bool) (tag : Option Tag) (text : String) : Value :=
  if !plain then .scalar (.text text)
  else match tag with
    | none => .scalar (.ofPlain text)
    | some t => if t.handle = Reading.coreTags then .ofKind t.suffix text else .scalar (.text text)

def Token.isDash : Token → Bool | .dash => true | _ => false
def Token.isComma : Token → Bool | .comma => true | _ => false
def Token.isKey : Token → Bool | .key => true | _ => false
def Token.isValue : Token → Bool | .value => true | _ => false
def Token.isBlockEnd : Token → Bool | .blockEnd => true | _ => false
def Token.isCloseBracket : Token → Bool | .closeBracket => true | _ => false
def Token.isCloseBrace : Token → Bool | .closeBrace => true | _ => false
def Token.isDocumentEnd : Token → Bool | .documentEnd => true | _ => false

def Token.endsEntry (t : Token) : Bool := t.isKey || t.isValue || t.isBlockEnd

def Token.endsItem (t : Token) : Bool := t.isDash || t.isBlockEnd

def Token.endsDocument : Token → Bool
  | .directive _ | .documentStart | .documentEnd => true
  | _ => false

namespace Reading

def null : Value := .scalar .null

/-- A value, or null where the next token says that there is none. -/
def orNull (ends : Token → Bool) (read : Reading Value) : Reading Value := do
  if (← peek).any ends then return null else read

mutual

/-- A value. Within brackets there are no blocks; under a key a list may stand in the key's column. -/
def node (block under : Bool) : Nat → Reading Value
  | 0 => failure
  | fuel + 1 => do
    match ← peek with
    | some (.alias name) => drop; valueOf name
    | _ =>
      let (anchor, tag) ← properties
      let v ← match ← peek with
        | some (.scalar plain text) => do drop; pure (Value.ofScalar plain tag text)
        | some .openBracket => do drop; Value.list <$> flowItems true fuel
        | some .openBrace => do drop; (Value.ofRow? (← flowRow true fuel) : Option Value)
        | some .listStart => if block then do drop; Value.list <$> items fuel else bare anchor tag
        | some .mappingStart =>
          if block then do drop; (Value.ofRow? (← row fuel) : Option Value) else bare anchor tag
        | some .dash => if under then Value.list <$> underItems fuel else bare anchor tag
        | _ => bare anchor tag
      anchor.forM (remember v)
      return v
where
  bare (anchor : Option Nat) (tag : Option Tag) : Reading Value :=
    if anchor.isSome || tag.isSome then return Value.ofScalar true tag "" else failure

def items : Nat → Reading (List Value)
  | 0 => failure
  | fuel + 1 => do
    if ← take Token.isBlockEnd then return [] else
    expect Token.isDash
    let v ← orNull Token.endsItem (node true false fuel)
    return v :: (← items fuel)

/-- The items of a list in the block of a mapping. -/
def underItems : Nat → Reading (List Value)
  | 0 => failure
  | fuel + 1 => do
    if ← take Token.isDash then
      let v ← orNull (fun t => t.isDash || t.endsEntry) (node true false fuel)
      return v :: (← underItems fuel)
    else return []

def row : Nat → Reading (List Value)
  | 0 => failure
  | fuel + 1 => do
    if ← take Token.isBlockEnd then return [] else
    let k ← if ← take Token.isKey then orNull Token.endsEntry (node true true fuel)
      else if (← peek).any Token.isValue then pure null else failure
    let v ← if ← take Token.isValue then orNull Token.endsEntry (node true true fuel) else pure null
    return k :: v :: (← row fuel)

/-- The items of a list in brackets. An entry of a mapping among them is a mapping of its own. -/
def flowItems (first : Bool) : Nat → Reading (List Value)
  | 0 => failure
  | fuel + 1 => do
    if ← take Token.isCloseBracket then return [] else
    if !first then expect Token.isComma
    if ← take Token.isCloseBracket then return [] else
    if ← take Token.isKey then
      let ends := fun t : Token => t.isValue || t.isComma || t.isCloseBracket
      let k ← if ← take ends then pure null else node false false fuel
      let v ← if ← take Token.isValue then
          orNull (fun t => t.isComma || t.isCloseBracket) (node false false fuel)
        else pure null
      let entry ← (Value.ofRow? [k, v] : Option Value)
      return entry :: (← flowItems false fuel)
    else
      let v ← node false false fuel
      return v :: (← flowItems false fuel)

def flowRow (first : Bool) : Nat → Reading (List Value)
  | 0 => failure
  | fuel + 1 => do
    if ← take Token.isCloseBrace then return [] else
    if !first then expect Token.isComma
    if ← take Token.isCloseBrace then return [] else
    let ends := fun t : Token => t.isComma || t.isCloseBrace
    let (k, single) ← if ← take Token.isKey then
        pure (← orNull (fun t => t.isValue || ends t) (node false false fuel), false)
      else if (← peek).any Token.isValue then pure (null, false)
      else pure (← node false false fuel, true)
    let v ← if single then pure null
      else if ← take Token.isValue then orNull ends (node false false fuel) else pure null
    return k :: v :: (← flowRow false fuel)

end

/-- Past the directives before a document. The last of them is the one that counts, and the version
is given once. -/
def directives? (versioned : Bool) (handle : Option (String × String)) :
    List Token → Option (Option (String × String) × List Token)
  | .directive .version :: ts => if versioned then none else directives? true none ts
  | .directive (.tag h start) :: ts => directives? versioned (some (h, start)) ts
  | .directive .other :: ts => directives? versioned none ts
  | ts => some (handle, ts)

def content (s : Source) : Option (Value × Source) :=
  if s.tokens.head?.all Token.endsDocument then some (null, s) else (node true false s.fuel).run s

end Reading

/-- The value of the only document; no document is an empty mapping. -/
def Value.ofTokens? (tokens : List Token) : Option Value := do
  let tokens := tokens.dropWhile Token.isDocumentEnd
  if tokens.isEmpty then return .mapping [] else
  let (v, s) ←
    if tokens.head?.any Token.endsDocument then do
      match ← Reading.directives? false none tokens with
      | (handle, .documentStart :: tokens) => Reading.content { tokens, handle }
      | _ => none
    else
      let s : Source := { tokens }
      (Reading.node true false s.fuel).run s
  if s.tokens.all Token.isDocumentEnd then some v else none

def Value.ofText? (text : String) : Option Value := Token.ofText? text >>= Value.ofTokens?

end Clearance.Yaml
