import SchemaPlan.Ddl.Quoted

/-!
# Regions of a text

`regions?` reads a text the way a database does before it looks at the words: a backtick or a
double quote opens a region, a backslash inside a region takes the next character as it is, and
the mark that opened the region closes it. The result is the text as a list of characters outside
and contents of regions; there is none if the text ends inside a region. `scriptStatements` splits a
script at the semicolons outside its regions.
-/

namespace SchemaPlan.Ddl

/-- A character outside all regions, or the content of a region. -/
inductive Piece where
  | outside (c : Char)
  | region (quote : Quote) (content : List Char)
  deriving Repr, DecidableEq

/-- Where the next character stands; contents read so far have the last character first. -/
inductive Place where
  | outside
  | inside (quote : Quote) (content : List Char)
  /-- Inside a region, after a backslash. -/
  | escaped (quote : Quote) (content : List Char)
  deriving Repr, DecidableEq

/-- The kind of region that a character opens. -/
def opens? (c : Char) : Option Quote :=
  if c = Quote.name.mark then some .name
  else if c = Quote.text.mark then some .text
  else none

/-- The pieces of a text that is read from a place on. -/
def regionsFrom? : Place → List Char → Option (List Piece)
  | .outside, [] => some []
  | .outside, c :: text =>
    match opens? c with
    | some quote => regionsFrom? (.inside quote []) text
    | none => (regionsFrom? .outside text).map (.outside c :: ·)
  | .inside _ _, [] => none
  | .inside quote content, c :: text =>
    if c = '\\' then regionsFrom? (.escaped quote content) text
    else if c = quote.mark then
      (regionsFrom? .outside text).map (.region quote content.reverse :: ·)
    else regionsFrom? (.inside quote (c :: content)) text
  | .escaped _ _, [] => none
  | .escaped quote content, c :: text => regionsFrom? (.inside quote (c :: content)) text

/-- The pieces of a text. -/
def regions? (text : String) : Option (List Piece) :=
  regionsFrom? .outside text.toList

/-- The characters outside all regions. -/
def outsideChars (pieces : List Piece) : List Char :=
  pieces.filterMap fun
    | .outside c => some c
    | .region _ _ => none

/-- The contents of the regions in order. -/
def contents (pieces : List Piece) : List String :=
  pieces.filterMap fun
    | .outside _ => none
    | .region _ content => some (.ofList content)

/-- The piece with the content of its region left out. -/
def Piece.emptied : Piece → Piece
  | outside c => outside c
  | region quote _ => region quote []

/-! ## Scripts -/

/-- Where the text after a character stands. -/
def Place.next : Place → Char → Place
  | .outside, c =>
    match opens? c with
    | some quote => .inside quote []
    | none => .outside
  | .inside quote content, c =>
    if c = '\\' then .escaped quote content
    else if c = quote.mark then .outside
    else .inside quote (c :: content)
  | .escaped quote content, c => .inside quote (c :: content)

/-- The parts between the semicolons outside all regions of a text that is read from a place on. -/
def splitFrom : Place → List Char → List (List Char)
  | _, [] => [[]]
  | place, c :: text =>
    if place = .outside ∧ c = ';' then [] :: splitFrom .outside text
    else (splitFrom (place.next c) text).modifyHead (c :: ·)

/-- The parts of a script without the blanks around them, where anything is left. -/
def statementsOf (parts : List (List Char)) : List String :=
  (parts.map fun part => String.ofList (Text.dropEnds Text.isBlank part)).filter (· ≠ "")

/-- The statements of a script: what stands between its semicolons outside all regions. -/
def scriptStatements (script : String) : List String :=
  statementsOf (splitFrom .outside script.toList)

end SchemaPlan.Ddl
