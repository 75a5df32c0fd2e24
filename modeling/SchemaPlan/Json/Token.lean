import SchemaPlan.Decimal

/-!
# JSON tokens

`tokens?` cuts a text into JSON tokens. It goes through the text one character at a time: a
`Mode` says what the characters before were, and `Mode.step` what the next character makes of
it. `Token.chars` writes a token.
-/

namespace SchemaPlan.Json

/-- The smallest pieces of a JSON document that have a meaning. -/
inductive Token where
  | openObject
  | closeObject
  | openArray
  | closeArray
  | comma
  | colon
  | null
  | bool (b : Bool)
  | natural (n : Nat)
  | number (spelling : String)
  /-- A string; `none` if an escape in it stands for half a character. -/
  | string (s : Option String)
  deriving Repr, DecidableEq

/-! ## Strings -/

/-- First half of a character outside the first plane, in the sixteen-bit encoding. -/
def isLeading (code : Nat) : Bool :=
  0xD800 ≤ code && code ≤ 0xDBFF

/-- Second half of a character outside the first plane, in the sixteen-bit encoding. -/
def isTrailing (code : Nat) : Bool :=
  0xDC00 ≤ code && code ≤ 0xDFFF

/-- The characters of a list of codes in which halves come in pairs. -/
def charsOfCodes? : List Nat → Option (List Char)
  | [] => some []
  | [code] => if isLeading code || isTrailing code then none else some [Char.ofNat code]
  | first :: second :: codes =>
    if isLeading first then
      if isTrailing second then
        (charsOfCodes? codes).map
          (Char.ofNat (0x10000 + (first - 0xD800) * 0x400 + (second - 0xDC00)) :: ·)
      else none
    else if isTrailing first then none
    else (charsOfCodes? (second :: codes)).map (Char.ofNat first :: ·)

/-- The code that a character after a backslash stands for, unless it is `u`. -/
def escapedCode? : Char → Option Nat
  | '"' => some 0x22
  | '\\' => some 0x5C
  | '/' => some 0x2F
  | 'b' => some 0x08
  | 'f' => some 0x0C
  | 'n' => some 0x0A
  | 'r' => some 0x0D
  | 't' => some 0x09
  | _ => none

/-- The value of a hexadecimal digit. -/
def hexValue? (c : Char) : Option Nat :=
  if c.isDigit then some (c.toNat - '0'.toNat)
  else if 'a' ≤ c ∧ c ≤ 'f' then some (c.toNat - 'a'.toNat + 10)
  else if 'A' ≤ c ∧ c ≤ 'F' then some (c.toNat - 'A'.toNat + 10)
  else none

/-- A character as it is written in a JSON string. -/
def writeChar (c : Char) : List Char :=
  if c = '"' || c = '\\' then ['\\', c]
  else if c = '\x08' then ['\\', 'b']
  else if c = '\t' then ['\\', 't']
  else if c = '\n' then ['\\', 'n']
  else if c = '\x0c' then ['\\', 'f']
  else if c = '\r' then ['\\', 'r']
  else if c.toNat < 0x20 then
    ['\\', 'u', '0', '0', Nat.digitChar (c.toNat / 16), Nat.digitChar (c.toNat % 16)]
  else [c]

/-! ## Numbers -/

/-- What follows a whole number without superfluous zeros. -/
def afterWhole? : List Char → Option (List Char)
  | [] => none
  | c :: rest =>
    if c = '0' then some rest
    else if c.isDigit then some (rest.dropWhile Char.isDigit)
    else none

/-- What follows one or more digits. -/
def afterDigits? : List Char → Option (List Char)
  | [] => none
  | c :: rest => if c.isDigit then some (rest.dropWhile Char.isDigit) else none

/-- What follows an optional fraction. -/
def afterFraction? : List Char → Option (List Char)
  | '.' :: rest => afterDigits? rest
  | rest => some rest

/-- What follows an optional exponent. -/
def afterExponent? : List Char → Option (List Char)
  | [] => some []
  | c :: rest =>
    if c = 'e' || c = 'E' then
      match rest with
      | '+' :: digits => afterDigits? digits
      | '-' :: digits => afterDigits? digits
      | digits => afterDigits? digits
    else some (c :: rest)

/-- Whether a text is a JSON number without a sign. -/
def isUnsigned (text : List Char) : Bool :=
  ((afterWhole? text).bind afterFraction?).bind afterExponent? = some []

/-- Whether a text is a JSON number. -/
def isNumber : List Char → Bool
  | '-' :: text => isUnsigned text
  | text => isUnsigned text

/-- The word or number a text is. -/
def bare? (text : List Char) : Option Token :=
  if text = "null".toList then some .null
  else if text = "true".toList then some (.bool true)
  else if text = "false".toList then some (.bool false)
  else if isNumber text then
    match Decimal.value? text with
    | some n => some (.natural n)
    | none => some (.number (.ofList text))
  else none

/-! ## Reading -/

/-- White space of JSON. -/
def isSpace (c : Char) : Bool :=
  c = ' ' || c = '\n' || c = '\t' || c = '\r'

/-- The token that a character is on its own. -/
def punctuation? : Char → Option Token
  | '\x7b' => some .openObject
  | '\x7d' => some .closeObject
  | '[' => some .openArray
  | ']' => some .closeArray
  | ',' => some .comma
  | ':' => some .colon
  | _ => none

/-- Where in a document the next character stands. Codes and characters read so far are kept
with the last one first. -/
inductive Mode where
  /-- Between two tokens. -/
  | between
  /-- In a word or a number. -/
  | bare (chars : List Char)
  /-- In a string. -/
  | quoted (codes : List Nat)
  /-- In a string, after a backslash. -/
  | escaped (codes : List Nat)
  /-- In a string, in an escape whose hexadecimal digits read so far denote `n`, `left` more
  being due. -/
  | hex (codes : List Nat) (n left : Nat)
  deriving Repr, DecidableEq

/-- The token that a character ends or is, and the mode after it, between two tokens. -/
def openStep (c : Char) : Option (List Token × Mode) :=
  if isSpace c then some ([], .between)
  else if c = '"' then some ([], .quoted [])
  else
    match punctuation? c with
    | some token => some ([token], .between)
    | none => some ([], .bare [c])

/-- The tokens that the next character completes, and the mode after it. -/
def Mode.step : Mode → Char → Option (List Token × Mode)
  | between, c => openStep c
  | bare chars, c =>
    if isSpace c || c = '"' || (punctuation? c).isSome then do
      let token ← bare? chars.reverse
      let (tokens, mode) ← openStep c
      return (token :: tokens, mode)
    else some ([], .bare (c :: chars))
  | quoted codes, c =>
    if c = '"' then
      some ([.string ((charsOfCodes? codes.reverse).map String.ofList)], .between)
    else if c = '\\' then some ([], .escaped codes)
    else if c.toNat < 0x20 then none
    else some ([], .quoted (c.toNat :: codes))
  | escaped codes, c =>
    if c = 'u' then some ([], .hex codes 0 4)
    else (escapedCode? c).map fun code => ([], .quoted (code :: codes))
  | hex codes n left, c => do
    let digit ← hexValue? c
    let n := 16 * n + digit
    if left ≤ 1 then return ([], .quoted (n :: codes)) else return ([], .hex codes n (left - 1))

/-- The tokens that the end of the text completes. -/
def Mode.finish? : Mode → Option (List Token)
  | between => some []
  | bare chars => (bare? chars.reverse).map ([·])
  | _ => none

/-- The tokens of a text that is read from a mode on. -/
def tokensFrom? : Mode → List Char → Option (List Token)
  | mode, [] => mode.finish?
  | mode, c :: text => do
    let (tokens, mode) ← mode.step c
    let rest ← tokensFrom? mode text
    return tokens ++ rest

/-- The tokens of a text. -/
def tokens? (text : List Char) : Option (List Token) :=
  tokensFrom? .between text

/-! ## Writing -/

/-- The written form of a token. -/
def Token.chars : Token → List Char
  | openObject => ['\x7b']
  | closeObject => ['\x7d']
  | openArray => ['[']
  | closeArray => [']']
  | comma => [',']
  | colon => [':']
  | null => "null".toList
  | bool true => "true".toList
  | bool false => "false".toList
  | natural n => Decimal.digits n
  | number spelling => spelling.toList
  | string (some s) => '"' :: s.toList.flatMap writeChar ++ ['"']
  | string none => "\"\\ud800\"".toList

end SchemaPlan.Json
