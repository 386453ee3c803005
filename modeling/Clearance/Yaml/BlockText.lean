import Clearance.Yaml.Place

/-! Scalars that are written as indented lines. -/
namespace Clearance.Yaml

/-- What becomes of the line breaks at the end. -/
inductive Chomping where
  | strip
  | clip
  | keep
  deriving DecidableEq

def Chomping.ofChar? : Char → Option Chomping
  | '-' => some .strip
  | '+' => some .keep
  | _ => none

structure BlockHeader where
  chomping : Chomping
  /-- By how much the lines are indented, if the header says it. -/
  step : Option Nat

def isStep (c : Char) : Bool := c.isDigit && c ≠ '0'

/-- The header behind the bar or the angle, and what follows it: a sign and a digit from one up, in
any order. -/
def blockHeader? : List Char → Option (BlockHeader × List Char)
  | [] => some (⟨.clip, none⟩, [])
  | c :: cs =>
    match Chomping.ofChar? c with
    | some chomping =>
      match cs with
      | d :: rest =>
        if isStep d then some (⟨chomping, some (d.toNat - '0'.toNat)⟩, rest)
        else if d = '0' then none
        else some (⟨chomping, none⟩, cs)
      | [] => some (⟨chomping, none⟩, [])
    | none =>
      if isStep c then
        let step := some (c.toNat - '0'.toNat)
        match cs with
        | s :: rest =>
          match Chomping.ofChar? s with
          | some chomping => some (⟨chomping, step⟩, rest)
          | none => some (⟨.clip, step⟩, cs)
        | [] => some (⟨.clip, step⟩, [])
      else if c = '0' then none
      else some (⟨.clip, none⟩, c :: cs)

/-- The empty lines before a text of unknown indentation: the widest of the indentations up to its
first line, the number of the lines, and the first line. -/
def widestMargin (p : Place) (widest breaks : Nat) : Nat × Nat × Place :=
  let q := p.skipWhile (· = ' ')
  let widest := max widest q.column
  if q.atBreak then
    if _ : q.nextLine.rest.length < p.rest.length then widestMargin q.nextLine widest (breaks + 1)
    else (widest, breaks, q)
  else (widest, breaks, q)
termination_by p.rest.length

def knownMargin (limit : Nat) (p : Place) (breaks : Nat) : Nat × Place :=
  let q := p.skip (min (p.rest.takeWhile (· = ' ')).length (limit - p.column))
  if q.atBreak then
    if _ : q.nextLine.rest.length < p.rest.length then knownMargin limit q.nextLine (breaks + 1)
    else (breaks, q)
  else (breaks, q)
termination_by p.rest.length

/-- What stands between two lines of a text: the end of the first, if there is one, and empty lines.
A folded text turns one break into a space unless a line begins with a blank. -/
structure Between where
  ended : Bool
  breaks : Nat
  /-- The line before begins with a blank. -/
  blank : Bool

def Between.text (b : Between) (folded blank : Bool) : List Char :=
  if folded && b.ended && !b.blank && !blank then fold (b.breaks + 1)
  else List.replicate (b.breaks + b.ended.toNat) '\n'

/-- The lines that are indented by `limit`, what stands behind the last of them, and where. -/
def blockLines (folded : Bool) (limit : Nat) (p : Place) (before : Between) :
    List Char × Between × Place :=
  if p.column ≠ limit || p.rest.isEmpty || p.marks '.' then ([], before, p)
  else
    let blank := p.rest.head?.any isSpace
    let line := p.rest.takeWhile (· ≠ '\n')
    let text := before.text folded blank ++ line
    let q := p.pass line.length
    if q.atBreak then
      let (breaks, r) := knownMargin limit q.nextLine 0
      if _ : r.rest.length < p.rest.length then
        let (more, last, s) := blockLines folded limit r ⟨true, breaks, blank⟩
        (text ++ more, last, s)
      else (text, ⟨true, breaks, blank⟩, r)
    else (text, ⟨false, 0, blank⟩, q)
termination_by p.rest.length

/-- A text of lines, from the character that opens it on. The lines are indented by more than
`indent`. -/
def blockText? (folded : Bool) (indent : Int) (p : Place) : Option (List Char × Place) := do
  let (header, rest) ← blockHeader? (p.rest.drop 1)
  let (_, q) ← (p.passTo rest).endLine? isSpace
  if !q.endsLine then none
  else
    let ended := q.atBreak
    let q := if ended then q.nextLine else q
    if q.startsWith '\t' then none
    else
      let (limit, breaks, q) := match header.step with
        | some step =>
          let limit := (max indent 0).toNat + step
          (limit, knownMargin limit q 0)
        | none =>
          let (widest, breaks, q) := widestMargin q 0 0
          (max widest (indent + 1).toNat, breaks, q)
      if q.rest.isEmpty then
        let text := match header.chomping with
          | .strip => []
          | .clip => List.replicate ended.toNat '\n'
          | .keep => List.replicate (if ended then max breaks 1 else 0) '\n'
        some (text, q)
      else if q.column < limit && indent < q.column then none
      else
        let (text, last, q) := blockLines folded limit q ⟨false, breaks, false⟩
        let ending := if header.chomping = .strip then []
          else List.replicate (last.ended.toNat +
            (q.rest.isEmpty && max limit 1 ≤ q.column).toNat) '\n'
        let kept := if header.chomping = .keep then List.replicate last.breaks '\n' else []
        some (text ++ ending ++ kept, q)

end Clearance.Yaml
