import Clearance.Yaml.BlockText
import Clearance.Yaml.Plain
import Clearance.Yaml.Token

/-! From a text to its tokens. -/
namespace Clearance.Yaml.Layout

/-- Past blanks, line breaks and comments. A tab does not indent a line within a block. -/
def skipGap? (s : Layout) : Option Layout := do
  let p := s.place
  match p.rest with
  | '\t' :: _ =>
    if !s.indents.isEmpty && p.fresh && p.column < s.indent then
      let (_, s) ← s.endLine? isSpace
      if !s.place.endsLine then none
      else if _ : s.place.rest.length < p.rest.length then s.skipGap? else none
    else
      let s := { s with place := p.skip 1 }
      if _ : s.place.rest.length < p.rest.length then s.skipGap? else none
  | ' ' :: _ =>
    let s := { s with place := p.skip 1 }
    if _ : s.place.rest.length < p.rest.length then s.skipGap? else none
  | '\n' :: _ =>
    let s := { s with place := p.nextLine, keyAllowed := s.keyAllowed || !s.flow }
    if _ : s.place.rest.length < p.rest.length then s.skipGap? else none
  | '#' :: _ =>
    let s := { s with place := p.passComment }
    if _ : s.place.rest.length < p.rest.length then s.skipGap? else none
  | _ => some s
termination_by s.place.rest.length

def skipKeyGap? (s : Layout) : Option Layout :=
  let p := s.place.skipWhile (· = ' ')
  let p := if p.startsWith '#' then p.passComment else p
  if p.startsWith '\t' then none
  else if p.atBreak then
    let t := { s with place := p.nextLine, keyAllowed := s.keyAllowed || !s.flow }
    if _ : t.place.rest.length < s.place.rest.length then t.skipKeyGap? else none
  else some { s with place := p }
termination_by s.place.rest.length

/-- A bracket or a brace that opens; there may be 255 of them, one in another. -/
def openFlow? (s : Layout) (t : Token) : Option Layout := do
  let s := s.markKey.enterValue
  if 255 ≤ s.outer.length then none else
  let brace := s.place.startsWith '\x7b'
  let s := { s with
    outer := s.candidate :: s.outer, candidate := none, keyAllowed := true
    opened := s.opened || brace }
  let (_, s) ← (s.pass 1).endLine? isSpace
  return s.push t

def closeFlow? (s : Layout) (t : Token) : Option Layout := do
  let s ← s.dropKey?
  let s := match s.outer with
    | k :: ks => { s with candidate := k, outer := ks }
    | [] => s
  let (_, s) ← ({ s with keyAllowed := false }.endSingle.pass 1).endLine? isSpace
  let s := if s.flow then { s with adjacent := some s.place.index } else s
  return s.push t

def comma? (s : Layout) : Option Layout := do
  let s ← s.dropKey?
  let (_, s) ← ({ s with keyAllowed := true }.endSingle.pass 1).endLine? isSpace
  return s.push .comma

def dash? (s : Layout) : Option Layout := do
  if s.flow || !s.keyAllowed || (s.loose && s.place.column = 0 && -1 < s.indent) then none else
  let s := (s.pass 1).openBlock s.place.column none .listStart
  let (blanks, s) ← s.endLine? isSpace
  if '\t' ∈ blanks && s.place.startsWith '-' && endsWord (s.place.rest.drop 1) then none else
  let (_, s) ← s.endLine? (· = ' ')
  let s := if s.place.atBreak || startsFlowMark s.place.rest then s.enterValue else s
  let s ← s.dropKey?
  return { s with keyAllowed := true }.push .dash

def questionMark? (s : Layout) : Option Layout := do
  if !s.flow && !s.keyAllowed then none else
  let s := if s.flow then { s with opened := true }
    else s.openBlock s.place.column none .mappingStart
  let s ← s.dropKey?
  let s := { s with keyAllowed := !s.flow }.pass 1
  if s.place.startsWith ' ' || s.place.atBreak then return (← s.skipKeyGap?).push .key else none

/-- A tab behind a colon does not part it from a word. -/
def passColon? (s : Layout) : Option Layout := do
  let s := s.pass 1
  if s.place.startsWith '\t' then
    let (blanks, s) ← s.endLine? isSpace
    if ' ' ∉ blanks && s.place.rest.head?.any fun c => c = '-' || c.isAlphanum then none else some s
  else some s

/-- A colon between a key and its value. In brackets it may open a mapping of one entry; its key then
stands on its line. -/
def colon? (s : Layout) : Option Layout := do
  let column := s.place.column
  let line := s.place.line
  let s ← { s with single := s.flow && !s.opened }.passColon?
  match s.candidate with
  | some k =>
    let s := s.insert k .key
    if s.single && k.line < line then none else
    let s := if s.single then s.insert k .openBrace else s
    let s := (s.openBlock k.column (some k) .mappingStart).enterValue
    return { s with candidate := none, keyAllowed := false }.push .value
  | none =>
    let s := if s.single then s.push .openBrace else s
    if !s.flow && !s.keyAllowed then none else
    let s := (s.openBlock column none .mappingStart).enterValue
    return { s with keyAllowed := !s.flow }.push .value

def name? (s : Layout) (isAlias : Bool) : Option Layout := do
  let loose := !isAlias && s.place.column = 0
  let s := s.markKey
  let (name, place) ← anchorName? s.place
  let s := { s with place, keyAllowed := false }.push (if isAlias then .alias name else .anchor name)
  return { s with loose }

def tagged? (s : Layout) : Option Layout := do
  let loose : Bool := s.place.column = 0
  let s := s.markKey
  let (t, place) ← tag? s.flow s.place
  return { { s with place, keyAllowed := false }.push (.tag t) with loose }

def blockScalar? (s : Layout) (folded : Bool) : Option Layout := do
  let s := s.markKey.toBlock
  let (text, place) ← blockText? folded s.indent s.place
  return { s with place, keyAllowed := true }.push (.scalar false (String.ofList text))

def quotedScalar? (s : Layout) (single : Bool) : Option Layout := do
  let s := s.markKey
  let (text, place) ← quoted? single s.flow s.indent s.place
  let s ← { s with place, keyAllowed := false }.skipGap?
  return { s with adjacent := some s.place.index }.push (.scalar false (String.ofList text))

/-- In brackets a scalar may not begin left of the block that holds them. -/
def plainScalar? (s : Layout) : Option Layout := do
  let s := s.markKey.toBlock
  if s.flow && s.place.column < s.indent + 1 then none else
  let (text, place) ← plain? s.flow (s.indent + 1) s.place
  return { s with place, keyAllowed := place.fresh }.push (.scalar true (String.ofList text))

def directiveLine? (s : Layout) : Option Layout := do
  let s ← (s.closeTo (-1)).dropKey?
  let (d, place) ← directive? s.place
  return { s with place, keyAllowed := false }.push (.directive d)

/-- Three dashes, or three points with nothing but a comment after them. -/
def documentMark? (s : Layout) (t : Token) : Option Layout := do
  let s ← (s.closeTo (-1)).dropKey?
  let s := ({ s with keyAllowed := false }.pass 3).push t
  match t with
  | .documentEnd =>
    let (_, s) ← s.endLine? isSpace
    if s.place.endsLine then some s else none
  | _ => some s

def next? (s : Layout) : Option Layout :=
  let p := s.place
  let second := p.rest.drop 1
  if p.column = 0 && p.startsWith '%' then s.directiveLine?
  else if p.marks '-' then s.documentMark? .documentStart
  else if p.marks '.' then s.documentMark? .documentEnd
  else if p.column < s.indent then none
  else match p.rest.head? with
    | some '[' => s.openFlow? .openBracket
    | some '\x7b' => s.openFlow? .openBrace
    | some ']' => s.closeFlow? .closeBracket
    | some '\x7d' => s.closeFlow? .closeBrace
    | some ',' => s.comma?
    | some '-' => if endsWord second then s.dash? else s.plainScalar?
    | some '?' => if endsWord second then s.questionMark? else s.plainScalar?
    | some ':' =>
      if endsWord second || (s.flow && (startsFlowMark second || s.adjacent = some p.index)) then
        s.colon?
      else s.plainScalar?
    | some '*' => s.name? true
    | some '&' => s.name? false
    | some '!' => s.tagged?
    | some '|' => if s.flow then s.plainScalar? else s.blockScalar? false
    | some '>' => if s.flow then s.plainScalar? else s.blockScalar? true
    | some '\x27' => s.quotedScalar? true
    | some '\x22' => s.quotedScalar? false
    | some '%' | some '@' | some '\x60' => none
    | _ => s.plainScalar?

/-- At the end of the text no key may be missing. -/
def finish? (s : Layout) : Option Layout :=
  if (s.candidate :: s.outer).any (·.any (·.required)) then none else (s.closeTo (-1)).dropKey?

/-- All tokens of the text. Each step passes a character at least. -/
def run? (s : Layout) : Option Layout := do
  let t ← s.skipGap?
  let t ← t.dropStaleKey?
  let t := t.closeTo t.place.column
  if t.place.rest.isEmpty then t.finish?
  else
    let u ← t.next?
    if _ : u.place.rest.length < s.place.rest.length then u.run? else none
termination_by s.place.rest.length

end Layout

def Token.ofText? (text : String) : Option (List Token) :=
  (Layout.run? { place := .ofText text }).map (·.tokens.reverse)

end Clearance.Yaml
