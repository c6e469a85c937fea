/-!
Addresses of requests.

An address starts with a slash. What follows a `#` is no part of it, and a `?` divides the path from
the query. The length counts in UTF-8, what is cut off included.
-/

namespace WatchDispatch.Cluster

inductive AddressError where
  | tooLong
  /-- It holds a character that may not stand where it stands. -/
  | invalidCharacter
deriving DecidableEq, Repr, Inhabited

def AddressError.message : AddressError → String
  | tooLong => "uri too long"
  | invalidCharacter => "invalid uri character"

namespace Address

/-- The greatest length of an address, in bytes. -/
def greatestLength : Nat := 65534

/-- Whether both parts of an address may hold a character: it is neither a control character of
ASCII but for the last one, nor a blank, nor an angle bracket. -/
def isCommon (c : Char) : Bool := 32 < c.toNat && c != '<' && c != '>'

def mayBeInPath (c : Char) : Bool := isCommon c && c != '\x60'

def mayBeInQuery (c : Char) : Bool := isCommon c && c != '"'

/-- The part of an address in front of its query. -/
def path (uri : String) : String := String.ofList (uri.toList.takeWhile (· != '?'))

def isValid (cs : List Char) : Bool :=
  (cs.takeWhile (· != '?')).all mayBeInPath && (cs.dropWhile (· != '?')).all mayBeInQuery

def ofText (s : String) : Except AddressError String :=
  if greatestLength < s.utf8ByteSize then .error .tooLong
  else
    let cs := s.toList.takeWhile (· != '#')
    if isValid cs then .ok (String.ofList cs) else .error .invalidCharacter

end Address

end WatchDispatch.Cluster
