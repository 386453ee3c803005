/-! Small letters. -/
namespace Clearance.Text

/-- Capitals of ASCII become small letters, and so do the two other characters whose small form
holds an ASCII letter: the Kelvin sign and the dotted capital I. Every other character keeps its
place, which is enough to compare a text with ASCII words. -/
def lowerChar (c : Char) : List Char :=
  if c = '\u212A' then ['k']
  else if c = '\u0130' then ['i', '\u0307']
  else [c.toLower]

def lower (s : String) : String := String.ofList (s.toList.flatMap lowerChar)

def lowerAscii (s : String) : String := String.ofList (s.toList.map Char.toLower)

end Clearance.Text
