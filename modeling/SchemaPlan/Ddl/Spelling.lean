import SchemaPlan.Ddl.Literal

/-!
# Spellings of types

The type of the values of a column is written as it is, or marked as the type of values that may be
null, and blanks may stand around its name. `TypeSpelling.write` writes a type in one of these ways,
and `TypeSpelling.Tight` says that nothing stands between the name and a question mark.
-/

namespace SchemaPlan

/-- The forms of a type: as it is, with a question mark after it, or inside `Optional<>`. -/
inductive TypeForm where
  | bare
  | marked
  | wrapped
  deriving Repr, DecidableEq

/-- A form of a type, with the blanks before and after its name. -/
structure TypeSpelling where
  form : TypeForm
  before : String := ""
  after : String := ""
  blank_before : before.toList.all Text.isBlank = true := by decide
  blank_after : after.toList.all Text.isBlank = true := by decide

/-- The type called `name` in a spelling. -/
def TypeSpelling.write (s : TypeSpelling) (name : String) : String :=
  match s.form with
  | .bare => s.before ++ name ++ s.after
  | .marked => s.before ++ name ++ s.after ++ "?"
  | .wrapped => "Optional<" ++ s.before ++ name ++ s.after ++ ">"

/-- No blank stands in front of a question mark. -/
def TypeSpelling.Tight (s : TypeSpelling) : Prop :=
  s.form = .marked → s.after = ""

instance : DecidablePred TypeSpelling.Tight := fun s =>
  inferInstanceAs (Decidable (s.form = .marked → s.after = ""))

/-- The column with the type called `name` in a spelling. -/
def Column.spelled (c : Column) (s : TypeSpelling) (name : String) : Column :=
  { c with type := s.write name }

/-- The names of the types whose values can be split points. -/
def Ddl.literalTypeNames : List String :=
  literalTypes.map Prod.fst

end SchemaPlan
