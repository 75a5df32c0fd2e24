import SchemaPlan.Ddl.Quoted
import SchemaPlan.Decimal

/-!
# Phrases

A statement is put together as a `Phrase`: a list of fragments, each either plain text or a
quoted name or text. Whether a name or text may be quoted is decided when its fragment is made
(`name`, `text`), so every phrase can be written (`Phrase.write`). What puts fragments together does
not look at the quotes, so it works for fragments with quoted parts of any type `Q`.
-/

namespace SchemaPlan.Ddl

/-- A piece of a statement. -/
inductive Fragment (Q : Type) where
  | plain (text : String)
  | quoted (q : Q)
  deriving DecidableEq

/-- A piece of a statement with its quoted names and texts marked. -/
abbrev Phrase := List (Fragment Quoted)

/-- A statement before its names and texts are put between quotes. -/
abbrev Draft := List (Fragment Quotation)

/-- The characters of a fragment. -/
def Fragment.chars : Fragment Quoted → List Char
  | plain text => text.toList
  | quoted q => q.chars

/-- The characters of a phrase. -/
def Phrase.chars (p : Phrase) : List Char :=
  p.flatMap Fragment.chars

/-- The text of a phrase. -/
def Phrase.write (p : Phrase) : String :=
  .ofList p.chars

/-! ## Putting fragments together -/

section

variable {Q : Type}

/-- Plain text. -/
def plain (text : String) : List (Fragment Q) :=
  [.plain text]

/-- Entries one after the other, with `separator` between them. -/
def join (separator : String) (entries : List (List (Fragment Q))) : List (Fragment Q) :=
  (plain separator).intercalate entries

/-- Entries of a clause, one to a line. -/
def block (entries : List (List (Fragment Q))) : List (Fragment Q) :=
  join ",\n" (entries.map fun entry => plain "\t" ++ entry)

/-- A clause of entries in brackets, one to a line. -/
def bracketBlock (entries : List (List (Fragment Q))) : List (Fragment Q) :=
  plain "(\n" ++ block entries ++ plain "\n)"

/-- A `WITH` clause on lines of its own; no clause for no entries. -/
def withBlock (entries : List (List (Fragment Q))) : List (Fragment Q) :=
  if entries.isEmpty then [] else plain "\nWITH " ++ bracketBlock entries

/-- Entries in brackets on one line. -/
def bracketed (entries : List (List (Fragment Q))) : List (Fragment Q) :=
  plain "(" ++ join ", " entries ++ plain ")"

/-- A setting and its value. -/
def setting (key : String) (value : List (Fragment Q)) : List (Fragment Q) :=
  plain (key ++ " = ") ++ value

/-- Whether something is switched on. -/
def toggle (enabled : Bool) : List (Fragment Q) :=
  plain (if enabled then "ENABLED" else "DISABLED")

/-- A number of sixty-four bits. -/
def number (n : UInt64) : List (Fragment Q) :=
  plain (Decimal.ofNat n.toNat)

end

/-! ## Quoting -/

/-- A quoted name. -/
def name (content : String) : Except Error Phrase := do
  return [.quoted (← Quote.name.put content)]

/-- A quoted text. -/
def text (content : String) : Except Error Phrase := do
  return [.quoted (← Quote.text.put content)]

/-- Quoted names, separated by `, `. -/
def names (contents : List String) : Except Error Phrase := do
  return join ", " (← contents.mapM name)

/-- The phrase that `write` makes of a value that may be absent, as a list of at most one. -/
def ifSome {α : Type} (value : Option α) (write : α → Except Error Phrase) :
    Except Error (List Phrase) :=
  value.toList.mapM write

end SchemaPlan.Ddl
