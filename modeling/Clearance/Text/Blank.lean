/-! The characters with the Unicode property White_Space. -/
namespace Clearance.Text

/-- The first and the last code point of each run, in ascending order. -/
def blankRuns : List (Nat × Nat) :=
  [(0x9, 0xD), (0x20, 0x20), (0x85, 0x85), (0xA0, 0xA0), (0x1680, 0x1680), (0x2000, 0x200A),
    (0x2028, 0x2029), (0x202F, 0x202F), (0x205F, 0x205F), (0x3000, 0x3000)]

def isBlank (c : Char) : Bool :=
  blankRuns.any fun r => r.1 ≤ c.toNat && c.toNat ≤ r.2

def allBlank (s : String) : Bool := s.toList.all isBlank

end Clearance.Text
