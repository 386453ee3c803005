import Clearance.Text.Printable

/-! Text between double quotes, with escapes for what would not show. -/
namespace Clearance.Text

/-- A character inside quotes; one that does not print is written as its code in hexadecimal. -/
def quoteChar (c : Char) : List Char :=
  if c = '\x00' then ['\\', '0']
  else if c = '\t' then ['\\', 't']
  else if c = '\n' then ['\\', 'n']
  else if c = '\r' then ['\\', 'r']
  else if c = '\x22' || c = '\\' then ['\\', c]
  else if isPrintable c then [c]
  else ['\\', 'u', '\x7b'] ++ Nat.toDigits 16 c.toNat ++ ['\x7d']

def quote (s : String) : String :=
  String.ofList ('\x22' :: (s.toList.flatMap quoteChar ++ ['\x22']))

end Clearance.Text
