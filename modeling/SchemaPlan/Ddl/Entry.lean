import SchemaPlan.Ddl.Region
import SchemaPlan.Table.Basic

/-!
# Entries between commas

Statements list things between commas, and an entry of a list may hold commas of its own inside
brackets. `within?` follows the brackets that are open outside all regions and fails at what no
entry can hold: a comma outside brackets, or a bracket that closes another than the innermost.
`entriesFrom?` splits pieces at the commas outside brackets. `alterActions?` and `createBody?` read
the lists of the two statements whose entries hold the types of columns.
-/

namespace SchemaPlan.Ddl

/-! ## Brackets -/

/-- The two kinds of brackets. -/
inductive Bracket where
  | round
  | angle
  deriving Repr, DecidableEq

namespace Bracket

/-- The character that opens a bracket. -/
def opening : Bracket → Char
  | round => '('
  | angle => '<'

/-- The character that closes a bracket. -/
def closing : Bracket → Char
  | round => ')'
  | angle => '>'

/-- The bracket that a character opens. -/
def ofOpening? (c : Char) : Option Bracket :=
  [round, angle].find? fun b => b.opening = c

/-- The bracket that a character closes. -/
def ofClosing? (c : Char) : Option Bracket :=
  [round, angle].find? fun b => b.closing = c

end Bracket

/-- The brackets that are open after a character outside all regions, the innermost first. -/
def afterChar? (opened : List Bracket) (c : Char) : Option (List Bracket) :=
  match Bracket.ofOpening? c, Bracket.ofClosing? c with
  | some b, _ => some (b :: opened)
  | none, some b => if opened.head? = some b then some opened.tail else none
  | none, none => if opened = [] ∧ c = ',' then none else some opened

/-- The brackets that are open after a piece; a region opens and closes none. -/
def Piece.after? (opened : List Bracket) : Piece → Option (List Bracket)
  | outside c => afterChar? opened c
  | region _ _ => some opened

/-- The brackets that are open after pieces of one entry. -/
def within? : List Bracket → List Piece → Option (List Bracket)
  | opened, [] => some opened
  | opened, p :: ps =>
    match p.after? opened with
    | some after => within? after ps
    | none => none

/-- The pieces are one entry: their brackets match, and their commas are inside them. -/
def IsEntry (ps : List Piece) : Prop :=
  within? [] ps = some []

instance : DecidablePred IsEntry := fun ps =>
  inferInstanceAs (Decidable (within? [] ps = some []))

/-! ## Lists of entries -/

/-- The entries of pieces that are read with some brackets open, and what follows them: nothing, or
a bracket that closes none of these, and what is after it. -/
def entriesFrom? : List Bracket → List Piece → Option (List (List Piece) × List Piece)
  | [], [] => some ([[]], [])
  | _ :: _, [] => none
  | opened, p :: ps =>
    match p.after? opened with
    | some after =>
      (entriesFrom? after ps).map fun (entries, rest) => (entries.modifyHead (p :: ·), rest)
    | none =>
      if opened ≠ [] then none
      else if p = .outside ',' then
        (entriesFrom? [] ps).map fun (entries, rest) => ([] :: entries, rest)
      else some ([[]], p :: ps)

/-- Whether a piece is a blank character outside all regions. -/
def Piece.isBlank : Piece → Bool
  | outside c => Text.isBlank c
  | region _ _ => false

/-- The pieces without the blanks around them. -/
def trimPieces (ps : List Piece) : List Piece :=
  Text.dropEnds Piece.isBlank ps

/-- The entries of pieces that are nothing but a list. -/
def entries? (ps : List Piece) : Option (List (List Piece)) :=
  match entriesFrom? [] ps with
  | some (entries, []) => some (entries.map trimPieces)
  | _ => none

/-- What follows a word at the front of pieces. -/
def afterWord? (word : String) (ps : List Piece) : Option (List Piece) :=
  (word.toList.map .outside).isPrefixOf? ps

/-- The content of the region at the front of pieces, if it is of this kind, and what follows. -/
def takeQuoted? (quote : Quote) : List Piece → Option (String × List Piece)
  | .region q content :: ps => if q = quote then some (.ofList content, ps) else none
  | _ => none

/-- The entries of a list in round brackets at the front of pieces, and what follows the list. -/
def group? (ps : List Piece) : Option (List (List Piece) × List Piece) := do
  let (entries, rest) ← entriesFrom? [] (← afterWord? "(" ps)
  return (entries.map trimPieces, ← afterWord? ")" rest)

/-! ## Statements -/

/-- The actions of a statement that alters a table. -/
def alterActions? (ps : List Piece) : Option (List (List Piece)) := do
  let (_, actions) ← takeQuoted? .name (← afterWord? "ALTER TABLE " ps)
  entries? actions

/-- The entries of the body of a statement that creates a table, and what follows the body. -/
def createBody? (ps : List Piece) : Option (List (List Piece) × List Piece) := do
  let (_, body) ← takeQuoted? .name (← afterWord? "CREATE TABLE " ps)
  group? body

end SchemaPlan.Ddl

namespace SchemaPlan

/-- The type of the column can stand in one entry of a list. -/
def Column.TypeIsEntry (c : Column) : Prop :=
  Ddl.IsEntry ((Text.dropEnds Text.isBlank c.type.toList).map .outside)

instance : DecidablePred Column.TypeIsEntry := fun _ =>
  inferInstanceAs (Decidable (Ddl.IsEntry _))

end SchemaPlan
