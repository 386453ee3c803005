import Clearance.Yaml.Place

/-! Scalars without quotes: words, and the gaps between them. -/
namespace Clearance.Yaml

/-- A scalar may go on with this character. A colon before a gap ends it, and in brackets the marks of
a collection do. -/
def staysPlain (flow : Bool) : List Char → Bool
  | [] => false
  | c :: cs =>
    !isGap c && !(flow && isFlowMark c) &&
      !(c = ':' && (endsWord cs || (flow && startsFlowMark cs)))

def plainWord (flow : Bool) : List Char → List Char
  | [] => []
  | c :: cs => if staysPlain flow (c :: cs) then c :: plainWord flow cs else []

/-- Up to the word of a line. A tab may indent a line only if the line is empty. -/
def plainMargin? (limit : Int) (p : Place) : Option Place :=
  let p := p.skipWhile (· = ' ')
  if p.startsWith '\t' && p.column < limit then do
    let (_, p) ← p.endLine? isSpace
    if p.endsLine then some p else none
  else some (p.skipWhile isSpace)

def plainGap? (limit : Int) (p : Place) : Option (List Char × Place) :=
  let q := p.skipWhile isSpace
  if q.atBreak then
    (Place.emptyLines? (plainMargin? limit) q.nextLine 1).map fun r => (fold r.1, r.2)
  else some (p.rest.takeWhile isSpace, q)

/-- The text of a scalar. Outside of brackets its lines have to be indented by `limit`. -/
def plain? (flow : Bool) (limit : Int) (p : Place) : Option (List Char × Place) :=
  if p.marksDocument || p.startsWith '#' then some ([], p)
  else if flow && p.startsWith '-' && startsFlowMark (p.rest.drop 1) then none
  else
    let word := plainWord flow p.rest
    let q := p.pass word.length
    if q.rest.head?.any isGap then do
      let (gap, r) ← plainGap? limit q
      if !flow && r.column < limit then some (word, r)
      else if _ : r.rest.length < p.rest.length then
        let (text, s) ← plain? flow limit r
        some (if text.isEmpty then word else word ++ gap ++ text, s)
      else none
    else some (word, q)
termination_by p.rest.length

end Clearance.Yaml
