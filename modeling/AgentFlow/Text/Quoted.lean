/-!
# Quoted text

A text between double quotes, as JSON writes it and Python reads it: quotes, backslashes and control
characters are escaped, everything else stands for itself.
-/

namespace AgentFlow.Text

/-- A hexadecimal digit in lower case. -/
def hexDigit (n : Nat) : Char :=
  if n < 10 then Char.ofNat (0x30 + n) else Char.ofNat (0x61 + n - 10)

/-- The characters that stand for `c` between double quotes. -/
def quotedChar (c : Char) : List Char :=
  if c == '"' then ['\\', '"']
  else if c == '\\' then ['\\', '\\']
  else if c == '\x08' then ['\\', 'b']
  else if c == '\x0c' then ['\\', 'f']
  else if c == '\n' then ['\\', 'n']
  else if c == '\r' then ['\\', 'r']
  else if c == '\t' then ['\\', 't']
  else if c.toNat < 0x20 then
    ['\\', 'u', '0', '0', hexDigit (c.toNat / 16), hexDigit (c.toNat % 16)]
  else [c]

/-- The characters that stand for a text between double quotes. -/
def quotedChars (cs : List Char) : List Char := cs.flatMap quotedChar

def quoted (s : String) : String := String.ofList ('"' :: quotedChars s.toList ++ ['"'])

end AgentFlow.Text
