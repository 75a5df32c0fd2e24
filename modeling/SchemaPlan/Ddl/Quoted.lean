import SchemaPlan.Error
import SchemaPlan.Text.Blank

/-!
# Quoted names and texts

Statements hold names between backticks and texts between double quotes. Inside either, `"` and
`/` are written after a backslash and every other character stands for itself. A name or text
with a character that could end its quotes is refused, so a `Quoted` carries the fact that every
character of its content is admitted.
-/

namespace SchemaPlan.Ddl

/-- The two kinds of quotes. -/
inductive Quote where
  | name
  | text
  deriving Repr, DecidableEq

namespace Quote

/-- The character that opens and closes the quotes. -/
def mark : Quote → Char
  | name => '\x60'
  | text => '"'

/-- Whether a character may stand between the quotes: no backslash, no control character, and
in a name no backtick. -/
def admits : Quote → Char → Bool
  | name, c => c ≠ '\x60' && c ≠ '\\' && !Text.isControl c
  | text, c => c ≠ '\\' && !Text.isControl c

/-- The error for a content that is not admitted. -/
def refusal : Quote → String → Rejection
  | name => .forbiddenInName
  | text => .forbiddenInText

end Quote

/-- A character as it is written between quotes. -/
def escapeChar (c : Char) : List Char :=
  if c = '"' || c = '/' then ['\\', c] else [c]

/-- The characters of a content as they are written between quotes. -/
def escapeChars (content : List Char) : List Char :=
  content.flatMap escapeChar

/-- A content as it is written between quotes. -/
def escape (content : String) : String :=
  .ofList (escapeChars content.toList)

/-- A content that is to stand between quotes of one kind. -/
structure Quotation where
  quote : Quote
  content : String
  deriving Repr, DecidableEq

/-- A content that may stand between its quotes. -/
structure Quoted extends Quotation where
  admitted : content.toList.all quote.admits = true
  deriving DecidableEq

namespace Quoted

/-- The written form: the escaped content between the quotes. -/
def chars (q : Quoted) : List Char :=
  q.quote.mark :: escapeChars q.content.toList ++ [q.quote.mark]

/-- The written form as a text. -/
def text (q : Quoted) : String :=
  .ofList q.chars

end Quoted

/-- A content between quotes of the given kind. -/
def Quote.put (quote : Quote) (content : String) : Except Error Quoted :=
  if h : content.toList.all quote.admits = true then .ok ⟨⟨quote, content⟩, h⟩
  else .error (.rejected (quote.refusal content))

/-- The written forms of names, separated by `, `. -/
def quoteNames (names : List String) : Except Error String := do
  let quoted ← names.mapM Quote.name.put
  return ", ".intercalate (quoted.map Quoted.text)

end SchemaPlan.Ddl
