import WatchDispatch.Json.Basic

/-!
Writing JSON texts.

`Json.print` writes a value without blanks. In strings the quote, the backslash and the control
characters are escaped, every other character stands for itself; members come in the order of their
keys.
-/

namespace WatchDispatch.Json

namespace Printer

def hexDigit (n : Nat) : Char := if n < 10 then Char.ofNat (48 + n) else Char.ofNat (87 + n)

def escape (c : Char) : List Char :=
  if c = '"' then ['\\', '"']
  else if c = '\\' then ['\\', '\\']
  else if c = '\x08' then ['\\', 'b']
  else if c = '\x0c' then ['\\', 'f']
  else if c = '\n' then ['\\', 'n']
  else if c = '\r' then ['\\', 'r']
  else if c = '\t' then ['\\', 't']
  else if c.toNat < 0x20 then
    ['\\', 'u', '0', '0', hexDigit (c.toNat / 16), hexDigit (c.toNat % 16)]
  else [c]

def string (s : String) : List Char := '"' :: (s.toList.flatMap escape ++ ['"'])

mutual

def value : Json → List Char
  | null => "null".toList
  | bool b => (if b then "true" else "false").toList
  | integer n => (toString n).toList
  | real x => x.print.toList
  | text s => string s
  | array xs => '[' :: (items xs ++ [']'])
  | object ms => '{' :: (members ms ++ ['}'])

def items : List Json → List Char
  | [] => []
  | [x] => value x
  | x :: y :: rest => value x ++ ',' :: items (y :: rest)

def members : List (String × Json) → List Char
  | [] => []
  | [(k, x)] => string k ++ ':' :: value x
  | (k, x) :: y :: rest => string k ++ ':' :: (value x ++ ',' :: members (y :: rest))

end

end Printer

/-- The text of a value, without blanks. -/
def print (v : Json) : String := String.ofList (Printer.value v)

end WatchDispatch.Json
