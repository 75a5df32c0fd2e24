/-!
# Splitting at separators

`splitFirst?` splits a text at the leftmost occurrence of one of several marks, and
`splitNth?` at a separator counted from the left. Both go down the text once, so a statement
about `before ++ mark ++ after` is one induction on `before`.
-/

namespace SchemaPlan.Text

/-- What follows the first of `marks` that the text starts with. -/
def afterMark? (marks : List (List Char)) (text : List Char) : Option (List Char) :=
  marks.findSome? fun mark => mark.isPrefixOf? text

/-- The text before and after the leftmost occurrence of one of `marks`. -/
def splitFirst? (marks : List (List Char)) : List Char → Option (List Char × List Char)
  | [] => (afterMark? marks []).map fun rest => ([], rest)
  | c :: text =>
    match afterMark? marks (c :: text) with
    | some rest => some ([], rest)
    | none => (splitFirst? marks text).map fun (before, rest) => (c :: before, rest)

/-- The text before and after the occurrence of `sep` that has `n` occurrences before it. -/
def splitNth? (sep : Char) : Nat → List Char → Option (List Char × List Char)
  | _, [] => none
  | n, c :: text =>
    if c = sep then
      match n with
      | 0 => some ([], text)
      | n + 1 => (splitNth? sep n text).map fun (before, rest) => (c :: before, rest)
    else (splitNth? sep n text).map fun (before, rest) => (c :: before, rest)

/-- The pieces between the occurrences of `sep`, one more than there are occurrences. -/
def splitOn (sep : Char) : List Char → List (List Char)
  | [] => [[]]
  | c :: text =>
    if c = sep then [] :: splitOn sep text
    else
      match splitOn sep text with
      | [] => [[c]]
      | piece :: pieces => (c :: piece) :: pieces

end SchemaPlan.Text
