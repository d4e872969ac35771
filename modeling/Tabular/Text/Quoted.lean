import Tabular.Text.Printable

namespace Tabular

/-- The lowercase hexadecimal digits of a character's number. -/
def hexDigits (c : Char) : List Char := Nat.toDigits 16 c.toNat

def inspectChar (c : Char) : List Char :=
  if c = '"' then ['\\', '"']
  else if c = '\\' then ['\\', '\\']
  else if c = '\n' then ['\\', 'n']
  else if c = '\r' then ['\\', 'r']
  else if c = '\t' then ['\\', 't']
  else if c = '\x00' then ['\\', '0']
  else if isPrintable c then [c]
  else ['\\', 'u', '\x7b'] ++ hexDigits c ++ ['\x7d']

def exchangeChar (c : Char) : List Char :=
  if c = '"' then ['\\', '"']
  else if c = '\\' then ['\\', '\\']
  else if c = '\n' then ['\\', 'n']
  else if c = '\r' then ['\\', 'r']
  else if c = '\t' then ['\\', 't']
  else if c = '\x08' then ['\\', 'b']
  else if c = '\x0c' then ['\\', 'f']
  else if c.toNat < 0x20 then
    ['\\', 'u'] ++ List.replicate (4 - (hexDigits c).length) '0' ++ hexDigits c
  else [c]

/-- A text in double quotes, each character written by `escape`. -/
def quotedWith (escape : Char → List Char) (s : String) : String :=
  String.ofList ('"' :: s.toList.flatMap escape ++ ['"'])

def inspectText (s : String) : String := quotedWith inspectChar s

def exchangeText (s : String) : String := quotedWith exchangeChar s

end Tabular
