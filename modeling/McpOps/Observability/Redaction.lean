import McpOps.Gateway.Models
import McpOps.Lib.Substitution

/-!
# Redaction in logs

`_sanitize_string` of the logger: three patterns, whose matches are rewritten one pattern after
another.

No pattern has to go back on what it has taken: the classes of neighbouring repetitions are
disjoint, or what follows is forced.  So each pattern is a function that takes a match from the
start of a text and gives what is left: `matchSecret` for a key with its value, `matchBearer` for a
bearer token and `matchUrl` for the credentials in a URL.  `lengthAt` asks for the word boundary
before a match, `redactAll` goes through the text as `re.sub` does, and `redactMatch` is what a
match becomes.

Which characters beyond ASCII belong to words is a parameter.
-/

namespace McpOps

open Substitution

namespace Redaction

/-! ## Characters -/

/-- The white space of `\s` and of `strip`. -/
def isSpace (c : Char) : Bool :=
  let n := c.toNat
  (9 ≤ n && n ≤ 13) || (28 ≤ n && n ≤ 32) || n = 133 || n = 160 || n = 5760 ||
    (8192 ≤ n && n ≤ 8202) || n = 8232 || n = 8233 || n = 8239 || n = 8287 || n = 12288

/-- The characters of `\w`. -/
def isWord (wordBeyondAscii : Char → Bool) (c : Char) : Bool :=
  if c.toNat < 128 then c.isAlphanum || c = '_' else wordBeyondAscii c

/-- `\b` between two characters, or at an end of the text. -/
def boundary (wordBeyondAscii : Char → Bool) (prev next : Option Char) : Bool :=
  prev.any (isWord wordBeyondAscii) != next.any (isWord wordBeyondAscii)

/-- The lower-case ASCII letter that a letter matches with `(?i)`: beside its upper case, the
long s, the Kelvin sign and the Turkish letters count for one. -/
def foldCase (c : Char) : Char :=
  if c.toNat = 304 ∨ c.toNat = 305 then 'i'
  else if c.toNat = 383 then 's'
  else if c.toNat = 8490 then 'k'
  else c.toLower

/-- `[^,\s]`. -/
def isValueChar (c : Char) : Bool := !isSpace c && c ≠ ','

/-! ## Patterns -/

/-- A piece of a key: a letter, or `[_-]?`. -/
inductive KeyPiece where
  | letter (c : Char)
  | dash
  deriving DecidableEq

def letters (text : String) : List KeyPiece := text.toList.map .letter

/-- The keys of the first pattern. -/
def secretKeys : List (List KeyPiece) :=
  [letters "password", letters "passwd", letters "pwd", letters "api" ++ .dash :: letters "key",
    letters "access" ++ .dash :: letters "token", letters "refresh" ++ .dash :: letters "token",
    letters "token", letters "jwt", letters "secret",
    letters "client" ++ .dash :: letters "secret", letters "authorization"]

/-- What is left of the text after the key. -/
def matchKey : List KeyPiece → List Char → Option (List Char)
  | [], text => some text
  | .letter p :: key, c :: text => if foldCase c = p then matchKey key text else none
  | .letter _ :: _, [] => none
  | .dash :: key, c :: text =>
      if c = '_' ∨ c = '-' then matchKey key text <|> matchKey key (c :: text)
      else matchKey key (c :: text)
  | .dash :: key, [] => matchKey key []

/-- `[class]+`: what is left after at least one character of the class. -/
def matchMany (member : Char → Bool) (text : List Char) : Option (List Char) :=
  if (text.head?).any member then some (text.dropWhile member) else none

/-- One character. -/
def matchChar (p : Char) : List Char → Option (List Char)
  | c :: text => if c = p then some text else none
  | [] => none

/-- `\s*[:=]\s*[^,\s]+`. -/
def matchAssignment (text : List Char) : Option (List Char) :=
  match text.dropWhile isSpace with
  | c :: rest =>
      if c = ':' ∨ c = '=' then matchMany isValueChar (rest.dropWhile isSpace) else none
  | [] => none

/-- The first pattern after its `\b`. -/
def matchSecret (text : List Char) : Option (List Char) :=
  secretKeys.findSome? fun key => (matchKey key text).bind matchAssignment

/-- `[a-z0-9._~+/=-]` with `(?i)`. -/
def isTokenChar (c : Char) : Bool :=
  (foldCase c).isLower || c.isDigit || c ∈ ['.', '_', '~', '+', '/', '=', '-']

/-- The second pattern after its `\b`: `bearer\s+[a-z0-9._~+/=-]+`. -/
def matchBearer (text : List Char) : Option (List Char) := do
  let rest ← matchKey (letters "bearer") text
  let rest ← matchMany isSpace rest
  matchMany isTokenChar rest

/-- The schemes of the third pattern. -/
def urlSchemes : List (List KeyPiece) := [letters "postgresql", letters "postgres", letters "redis"]

/-- `[^:\s/@]`. -/
def isUserChar (c : Char) : Bool := !isSpace c && c ≠ ':' && c ≠ '/' && c ≠ '@'

/-- `[^@\s]`. -/
def isPasswordChar (c : Char) : Bool := !isSpace c && c ≠ '@'

/-- `://[^:\s/@]+:[^@\s]+@`. -/
def matchCredentials (text : List Char) : Option (List Char) := do
  let rest ← matchChar ':' text
  let rest ← matchChar '/' rest
  let rest ← matchChar '/' rest
  let rest ← matchMany isUserChar rest
  let rest ← matchChar ':' rest
  let rest ← matchMany isPasswordChar rest
  matchChar '@' rest

/-- The third pattern after its `\b`. -/
def matchUrl (text : List Char) : Option (List Char) :=
  urlSchemes.findSome? fun scheme => (matchKey scheme text).bind matchCredentials

/-- The length of a match after `prev`, at a word boundary. -/
def lengthAt (wordBeyondAscii : Char → Bool) (pattern : List Char → Option (List Char))
    (prev : Option Char) (text : List Char) : Option ℕ :=
  if boundary wordBeyondAscii prev text.head? then
    (pattern text).map fun rest => text.length - rest.length
  else none

/-! ## Rewriting -/

/-- The separator of a scheme, `://`. -/
def schemeMark : List Char := "://".toList

/-- `text.split("://", maxsplit=1)[0]`. -/
def beforeMark : List Char → List Char
  | [] => []
  | c :: rest => if schemeMark.isPrefixOf (c :: rest) then [] else c :: beforeMark rest

/-- `text.strip()`. -/
def strip (text : List Char) : List Char :=
  ((text.dropWhile isSpace).reverse.dropWhile isSpace).reverse

/-- `_redact_match(match)`. -/
def redactMatch (text : List Char) : List Char :=
  if (text.map Char.toLower).take 6 = "bearer".toList then "Bearer <redacted>".toList
  else if schemeMark <:+: text ∧ '@' ∈ text then
    beforeMark text ++ "://<redacted>:<redacted>@".toList
  else
    let separator := if ':' ∈ text ∧ '=' ∉ text then ':' else '='
    strip (text.takeWhile (· ≠ separator)) ++ separator :: "<redacted>".toList

/-- `pattern.sub(_redact_match, text)`. -/
def redactAll (wordBeyondAscii : Char → Bool) (pattern : List Char → Option (List Char))
    (text : List Char) : List Char :=
  substitute (lengthAt wordBeyondAscii pattern) redactMatch 0 none text

/-- `_sanitize_string(value)`. -/
def sanitizeString (wordBeyondAscii : Char → Bool) (value : String) : String :=
  let text := redactAll wordBeyondAscii matchSecret value.toList
  let text := redactAll wordBeyondAscii matchBearer text
  String.ofList (redactAll wordBeyondAscii matchUrl text)

end Redaction

end McpOps
