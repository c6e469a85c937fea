/-!
Form encoding of texts.

Letters, digits and `*-._` stand for themselves, a space becomes a plus sign, and every other byte
of the text is written as a percent sign with two upper-case hexadecimal digits.
-/

namespace WatchDispatch.Text

/-- Whether a character stands for itself. -/
def isPlain (c : Char) : Bool := c.isAlphanum || c == '*' || c == '-' || c == '.' || c == '_'

def upperHex (n : Nat) : Char := if n < 10 then Char.ofNat (48 + n) else Char.ofNat (55 + n)

def percentByte (b : UInt8) : List Char := ['%', upperHex (b.toNat / 16), upperHex (b.toNat % 16)]

def formChar (c : Char) : List Char :=
  if isPlain c then [c]
  else if c = ' ' then ['+']
  else (String.utf8EncodeChar c).flatMap percentByte

def formEncode (s : String) : String := String.ofList (s.toList.flatMap formChar)

end WatchDispatch.Text
