import Clearance.Text.Integer
import Clearance.Yaml.Place

/-! Scalars in quotes. -/
namespace Clearance.Yaml

def shortEscape? : Char → Option Char
  | '0' => some '\x00'
  | 'a' => some '\x07'
  | 'b' => some '\x08'
  | 't' => some '\t'
  | '\t' => some '\t'
  | 'n' => some '\n'
  | 'v' => some '\x0b'
  | 'f' => some '\x0c'
  | 'r' => some '\r'
  | 'e' => some '\x1b'
  | ' ' => some ' '
  | '\x22' => some '\x22'
  | '/' => some '/'
  | '\\' => some '\\'
  | 'N' => some '\u0085'
  | '_' => some '\u00a0'
  | 'L' => some '\u2028'
  | 'P' => some '\u2029'
  | _ => none

def escapeWidth? : Char → Option Nat
  | 'x' => some 2
  | 'u' => some 4
  | 'U' => some 8
  | _ => none

def codePoint? (n : Nat) : Option Char :=
  if n.isValidChar then some (Char.ofNat n) else none

def readEscape (e : Char) (cs : List Char) : Option (Char × List Char) :=
  match escapeWidth? e with
  | some w =>
    if cs.length < w then none
    else do
      let c ← codePoint? (← Text.radix? 16 (cs.take w))
      return (c, cs.drop w)
  | none => (shortEscape? e).map (·, cs)

theorem length_of_readEscape {e c : Char} {cs rest : List Char}
    (h : readEscape e cs = some (c, rest)) : rest.length ≤ cs.length := by
  unfold readEscape at h
  split at h
  · split at h
    · cases h
    · simp only [Option.bind_eq_bind, Option.bind_eq_some_iff] at h
      obtain ⟨_, _, _, _, h⟩ := h
      cases h
      simp
  · obtain ⟨_, _, h⟩ := Option.map_eq_some_iff.1 h
    cases h
    exact Nat.le_refl _

/-- Up to a gap or the closing quote, where a quote is written twice, and what follows. -/
def singleRun : List Char → List Char × List Char
  | [] => ([], [])
  | '\x27' :: '\x27' :: cs => let (text, rest) := singleRun cs; ('\x27' :: text, rest)
  | c :: cs =>
    if isGap c || c = '\x27' then ([], c :: cs)
    else let (text, rest) := singleRun cs; (c :: text, rest)

def doubleRun : List Char → Option (List Char × List Char)
  | [] => some ([], [])
  | '\\' :: '\n' :: cs => some ([], '\\' :: '\n' :: cs)
  | '\\' :: e :: cs =>
    match h : readEscape e cs with
    | some (c, rest) =>
      have := length_of_readEscape h
      (doubleRun rest).map fun r => (c :: r.1, r.2)
    | none => none
  | c :: cs =>
    if isGap c || c = '\x22' then some ([], c :: cs)
    else (doubleRun cs).map fun r => (c :: r.1, r.2)
termination_by cs => cs.length
decreasing_by
  · simp only [List.length_cons]; omega
  · exact Nat.lt_succ_self _

/-- Up to the word of a line; a tab does not indent it. -/
def quotedMargin? (indent : Int) (p : Place) : Option Place :=
  let p := p.skipWhile (· = ' ')
  if p.startsWith '\t' && p.column < indent then none else some (p.skipWhile isSpace)

def quotedGap? (indent : Int) (p : Place) : Option (List Char × Place) :=
  let q := p.skipWhile isSpace
  if q.atBreak then
    (Place.emptyLines? (quotedMargin? indent) q.nextLine 1).map fun r => (fold r.1, r.2)
  else some (p.rest.takeWhile isSpace, q)

/-- What a backslash at the end of a line and the lines after it stand for: the break goes away, and
empty lines are kept. -/
def joinedGap? (indent : Int) (p : Place) : Option (List Char × Place) :=
  (Place.emptyLines? (quotedMargin? indent) p.nextLine 0).map fun r =>
    (List.replicate r.1 '\n', r.2)

/-- The text up to the closing quote; its lines have to be indented by `indent`. Right behind a line
that is joined the quote may stand anywhere. -/
def quotedText? (single : Bool) (indent : Int) (p : Place) : Option (List Char × Place) :=
  if p.marksDocument || p.rest.isEmpty || p.column < indent then none
  else do
    let (run, rest) ← if single then some (singleRun p.rest) else doubleRun p.rest
    let q := p.passTo rest
    if q.startsWith (if single then '\x27' else '\x22') then some (run, q)
    else if !single && q.startsWith '\\' && (q.pass 1).nextLine.startsWith '\x22' then
      some (run, (q.pass 1).nextLine)
    else
      let (gap, r) ← if !single && q.startsWith '\\' then joinedGap? indent (q.pass 1) else quotedGap? indent q
      if _ : r.rest.length < p.rest.length then
        let (text, s) ← quotedText? single indent r
        some (run ++ gap ++ text, s)
      else none
termination_by p.rest.length

/-- A scalar in quotes, with the blanks after it. What follows on the line has to be the colon of a
key, or in brackets a mark of the collection. -/
def quoted? (single flow : Bool) (indent : Int) (p : Place) : Option (List Char × Place) := do
  let (text, q) ← quotedText? single indent (p.pass 1)
  let (_, r) ← (q.pass 1).endLine? isSpace
  match r.rest with
  | ':' :: _ => if flow || p.line = r.line then some (text, r) else none
  | ',' :: _ | ']' :: _ | '\x7d' :: _ => if flow then some (text, r) else none
  | _ => if r.endsLine then some (text, r) else none

end Clearance.Yaml
