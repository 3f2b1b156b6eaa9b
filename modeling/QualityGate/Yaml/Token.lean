import QualityGate.Yaml.Cursor
import QualityGate.Text.Utf8

/-! The words of a document, and how those that are no scalars are written. -/

namespace QualityGate.Yaml

inductive Token where
  | documentStart | documentEnd
  | versionDirective (major : Nat)
  | tagDirective (handle expansion : String)
  | otherDirective
  | blockSequence | blockMapping | blockEnd
  | sequenceOpen | sequenceClose
  | mappingOpen | mappingClose
  | item | separator | key | value
  | alias (name : String)
  | anchor (name : String)
  /-- Without a handle the tag is given in full. -/
  | tag (handle : Option String) (rest : String)
  | scalar (text : String) (plain : Bool)
  /-- A scalar in quotes with codes in it that are no characters. -/
  | illFormed (shown : String)
  deriving DecidableEq, Repr

open Lexing

def isUriChar (c : Char) : Bool := c.isAlphanum || "-;/?:@&=+$,_.!~*'()[]".toList.contains c

/-- Characters of a tag that are written as bytes. -/
def uriBytes : Nat → List UInt8 → Lexing (List UInt8)
  | 0, acc => return acc.reverse
  | fuel + 1, acc => do
    if (← mark (· == '%')) then uriBytes fuel (UInt8.ofNat (← hexNumber 2) :: acc)
    else return acc.reverse

def uriPieces : Nat → List Char → Lexing (List Char)
  | 0, acc => return acc
  | fuel + 1, acc => do
    let plain ← run isUriChar
    let bytes ← uriBytes (← bound) []
    match Text.Utf8.decode bytes with
    | .error _ => malformed
    | .ok decoded =>
      if plain.isEmpty && decoded.isEmpty then return acc
      else uriPieces fuel (acc ++ plain ++ decoded)

def uri : Lexing String := do
  let text ← uriPieces (← bound) []
  require !text.isEmpty
  return String.ofList text

/-- An exclamation mark, or a name between two of them. -/
def tagHandle : Lexing String := do
  require (← mark (· == '!'))
  let name ← run isNameChar
  if (← mark (· == '!')) then return "!" ++ String.ofList name ++ "!"
  else
    require (name.isEmpty && (← peek) == ' ')
    return "!"

/-- The word after the exclamation mark of a tag goes on to a second mark. -/
def hasHandle : Lexing Bool := do
  let word := ((← get).rest.drop 1).takeWhile fun c => !endsField c
  return word.contains '!'

def tagToken : Lexing Token := do
  let next ← peekAt 1
  let token ←
    if next == '<' then do
      skip 2
      let text ← uri
      require (← mark (· == '>'))
      pure (Token.tag none text)
    else if endsWord next then do
      skip 1
      pure (Token.tag none "!")
    else if (← hasHandle) then do
      let handle ← tagHandle
      pure (Token.tag (some handle) (← uri))
    else do
      skip 1
      pure (Token.tag (some "!") (← uri))
  require (endsField (← peek))
  return token

def name : Lexing String := do
  let cs ← run isNameChar
  require !cs.isEmpty
  return String.ofList cs

/-- The name of an anchor, after its mark. -/
def anchorName : Lexing String := do
  skip 1
  let s ← name
  let c ← peek
  require (endsWord c || "?:,]%@".toList.contains c || c == '\x7d' || c == '\x60')
  return s

def decimal : Lexing Nat := do
  let ds ← run Char.isDigit
  require !ds.isEmpty
  return ds.foldl (fun n c => n * 10 + (c.toNat - 48)) 0

/-- A line that begins with a percent sign. -/
def directive : Lexing Token := do
  skip 1
  let word ← name
  require (endsField (← peek))
  let token ←
    if word == "YAML" then do
      spaces
      let major ← decimal
      require (← mark (· == '.'))
      discard decimal
      require (endsField (← peek))
      pure (Token.versionDirective major)
    else if word == "TAG" then do
      spaces
      let handle ← tagHandle
      require ((← peek) == ' ')
      spaces
      let expansion ← uri
      require (endsField (← peek))
      pure (Token.tagDirective handle expansion)
    else do
      discard restOfLine
      pure Token.otherDirective
  lineEnd
  return token

end QualityGate.Yaml
