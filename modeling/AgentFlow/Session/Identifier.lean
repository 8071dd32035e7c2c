import AgentFlow.Text.Quoted

/-!
# Identifiers of sessions

A session is named by sixteen random bytes.  Four bits of the seventh byte and two bits of the ninth
say that they are random; the text groups the digits by dashes.
-/

namespace AgentFlow.Session

def byteDigits (b : UInt8) : List Char :=
  [Text.hexDigit (b.toNat / 16), Text.hexDigit (b.toNat % 16)]

/-- The byte at a position with the bits that mark a random identifier. -/
def markedByte (position : Nat) (b : UInt8) : UInt8 :=
  if position = 6 then (b &&& 0x0f) ||| 0x40
  else if position = 8 then (b &&& 0x3f) ||| 0x80
  else b

def dashBefore (position : Nat) : Bool := [4, 6, 8, 10].contains position

def identifierFrom (position : Nat) : List UInt8 → List Char
  | [] => []
  | b :: rest =>
    (if dashBefore position then ['-'] else []) ++ byteDigits (markedByte position b) ++
      identifierFrom (position + 1) rest

def identifier (bytes : List UInt8) : String := String.ofList (identifierFrom 0 bytes)

end AgentFlow.Session
