import Mathlib.Data.List.Chain
import SchemaPlan.Ddl.Phrase

/-!
# Quoted parts

What puts fragments together does not look at the quoted parts, so it commutes with whatever is
made of these alone : with `relabel`, which replaces each, and with `texts`, which lists their
contents.
-/

namespace SchemaPlan.Ddl

variable {Q R : Type}

/-- A joined list is its first entry and the others, each after a separator. -/
theorem join_cons (separator : String) (entry : List (Fragment Q))
    (entries : List (List (Fragment Q))) :
    join separator (entry :: entries) =
      entry ++ entries.flatMap fun next => plain separator ++ next := by
  induction entries generalizing entry with
  | nil => rw [join, List.intercalate_singleton, List.flatMap_nil, List.append_nil]
  | cons next entries ih =>
    rw [join, List.intercalate_cons_cons, ← join, ih, List.flatMap_cons, List.append_assoc,
      List.append_assoc]

@[simp] theorem join_nil (separator : String) : join (Q := Q) separator [] = [] :=
  rfl

/-! ## Quoted parts -/

/-- The fragment with its quoted part replaced. -/
def Fragment.map (f : Q → R) : Fragment Q → Fragment R
  | plain text => .plain text
  | quoted q => .quoted (f q)

/-- The fragments with their quoted parts replaced. -/
def relabel (f : Q → R) (p : List (Fragment Q)) : List (Fragment R) :=
  p.map (Fragment.map f)

section

variable (f : Q → R)

@[simp] theorem relabel_nil : relabel f [] = [] :=
  rfl

/-- Plain text has no labels to change. -/
@[simp] theorem relabel_plain (text : String) : relabel f (plain text) = plain text :=
  rfl

@[simp] theorem relabel_quoted (q : Q) : relabel f [.quoted q] = [.quoted (f q)] :=
  rfl

@[simp] theorem relabel_append (p q : List (Fragment Q)) :
    relabel f (p ++ q) = relabel f p ++ relabel f q :=
  List.map_append

/-- Labels are changed part by part. -/
@[simp] theorem relabel_flatMap {α : Type} (l : List α) (g : α → List (Fragment Q)) :
    relabel f (l.flatMap g) = l.flatMap fun a => relabel f (g a) :=
  List.map_flatMap

/-- Labels are changed entry by entry. -/
@[simp] theorem relabel_join (separator : String) (entries : List (List (Fragment Q))) :
    relabel f (join separator entries) = join separator (entries.map (relabel f)) := by
  cases entries with
  | nil => rfl
  | cons entry entries =>
    simp only [List.map_cons, join_cons, relabel_append, relabel_flatMap, relabel_plain,
      List.flatMap_map]

@[simp] theorem relabel_flatten (entries : List (List (Fragment Q))) :
    relabel f entries.flatten = (entries.map (relabel f)).flatten :=
  List.map_flatten

@[simp] theorem relabel_block (entries : List (List (Fragment Q))) :
    relabel f (block entries) = block (entries.map (relabel f)) := by
  simp only [block, relabel_join, List.map_map, Function.comp_def, relabel_append, relabel_plain]

/-- The lines of a list keep their form under other labels. -/
@[simp] theorem relabel_bracketBlock (entries : List (List (Fragment Q))) :
    relabel f (bracketBlock entries) = bracketBlock (entries.map (relabel f)) := by
  simp only [bracketBlock, relabel_append, relabel_plain, relabel_block]

@[simp] theorem relabel_withBlock (entries : List (List (Fragment Q))) :
    relabel f (withBlock entries) = withBlock (entries.map (relabel f)) := by
  cases entries with
  | nil => rfl
  | cons entry entries =>
    simp only [withBlock, List.map_cons, List.isEmpty_cons, Bool.false_eq_true, if_false,
      relabel_append, relabel_plain, relabel_bracketBlock]

@[simp] theorem relabel_bracketed (entries : List (List (Fragment Q))) :
    relabel f (bracketed entries) = bracketed (entries.map (relabel f)) := by
  simp only [bracketed, relabel_append, relabel_plain, relabel_join]

/-- Only the value of a setting has labels. -/
@[simp] theorem relabel_setting (key : String) (value : List (Fragment Q)) :
    relabel f (setting key value) = setting key (relabel f value) := by
  simp only [setting, relabel_append, relabel_plain]

@[simp] theorem relabel_toggle (enabled : Bool) : relabel f (toggle enabled) = toggle enabled :=
  rfl

@[simp] theorem relabel_number (n : UInt64) : relabel f (number n) = number n :=
  rfl

end

/-! ## Contents -/

/-- The content of a quoted part. -/
def Fragment.texts : Fragment Quotation → List String
  | plain _ => []
  | quoted q => [q.content]

/-- The contents of the quoted parts in order. -/
def texts (d : Draft) : List String :=
  d.flatMap Fragment.texts

@[simp] theorem texts_nil : texts [] = [] :=
  rfl

/-- Plain text has no texts between quotes. -/
@[simp] theorem texts_plain (text : String) : texts (plain text) = [] :=
  rfl

@[simp] theorem texts_quoted (q : Quotation) : texts [.quoted q] = [q.content] :=
  rfl

@[simp] theorem texts_append (c d : Draft) : texts (c ++ d) = texts c ++ texts d :=
  List.flatMap_append

@[simp] theorem texts_flatMap {α : Type} (l : List α) (g : α → Draft) :
    texts (l.flatMap g) = l.flatMap fun a => texts (g a) :=
  List.flatMap_assoc

/-- Separators have no texts between quotes. -/
@[simp] theorem texts_join (separator : String) (entries : List Draft) :
    texts (join separator entries) = entries.flatMap texts := by
  cases entries with
  | nil => rfl
  | cons entry entries =>
    simp only [join_cons, texts_append, texts_flatMap, texts_plain, List.nil_append,
      List.flatMap_cons]

@[simp] theorem texts_block (entries : List Draft) :
    texts (block entries) = entries.flatMap texts := by
  simp only [block, texts_join, List.flatMap_map, texts_append, texts_plain, List.nil_append]

/-- The brackets and line ends around a list have no texts between quotes. -/
@[simp] theorem texts_bracketBlock (entries : List Draft) :
    texts (bracketBlock entries) = entries.flatMap texts := by
  simp only [bracketBlock, texts_append, texts_plain, texts_block, List.nil_append,
    List.append_nil]

@[simp] theorem texts_withBlock (entries : List Draft) :
    texts (withBlock entries) = entries.flatMap texts := by
  cases entries with
  | nil => rfl
  | cons entry entries => exact texts_bracketBlock _

@[simp] theorem texts_bracketed (entries : List Draft) :
    texts (bracketed entries) = entries.flatMap texts := by
  simp only [bracketed, texts_append, texts_plain, texts_join, List.nil_append, List.append_nil]

/-- The key of a setting is not a text between quotes. -/
@[simp] theorem texts_setting (key : String) (value : Draft) :
    texts (setting key value) = texts value := by
  simp only [setting, texts_append, texts_plain, List.nil_append]

end SchemaPlan.Ddl
