import SchemaPlan.Ddl.Region
import SchemaPlan.Proofs.Ddl.Calm

/-!
# The regions of a phrase

`regions?_write` : a phrase whose plain parts are calm is read as the pieces of its draft, every
quoted part as one region with the content that was quoted. Inside quotes, the reader is led by
`regionsFrom?_escapeChars`: an escaped content leaves it inside the region, and the mark after it
is the one that ends the region.
-/

namespace SchemaPlan.Ddl

/-! ## Pieces of drafts -/

/-- The pieces a fragment is read as. -/
def Fragment.pieces : Fragment Quotation → List Piece
  | plain text => text.toList.map .outside
  | quoted q => [.region q.quote q.content.toList]

/-- The pieces a draft is read as. -/
def pieces (d : Draft) : List Piece :=
  d.flatMap Fragment.pieces

@[simp] theorem pieces_nil : pieces [] = [] :=
  rfl

@[simp] theorem pieces_append (c d : Draft) : pieces (c ++ d) = pieces c ++ pieces d :=
  List.flatMap_append

@[simp] theorem pieces_flatMap {α : Type} (l : List α) (f : α → Draft) :
    pieces (l.flatMap f) = l.flatMap fun a => pieces (f a) :=
  List.flatMap_assoc

@[simp] theorem pieces_plain (text : String) :
    pieces (plain text) = text.toList.map .outside := by
  rw [pieces, plain, List.flatMap_singleton, Fragment.pieces]

/-- The characters of the plain parts. -/
def plainChars {Q : Type} (d : List (Fragment Q)) : List Char :=
  d.flatMap fun
    | .plain text => text.toList
    | .quoted _ => []

/-- The characters outside quotes do not depend on the labels. -/
theorem plainChars_relabel {Q R : Type} (f : Q → R) (d : List (Fragment Q)) :
    plainChars (relabel f d) = plainChars d := by
  rw [plainChars, relabel, List.flatMap_map, plainChars]
  refine congrArg d.flatMap (funext fun fragment => ?_)
  cases fragment <;> rfl

theorem contents_append (ps qs : List Piece) : contents (ps ++ qs) = contents ps ++ contents qs :=
  List.filterMap_append

theorem outsideChars_append (ps qs : List Piece) :
    outsideChars (ps ++ qs) = outsideChars ps ++ outsideChars qs :=
  List.filterMap_append

/-- What stands between quotes in the pieces of a draft are its texts. -/
theorem contents_pieces (d : Draft) : contents (pieces d) = texts d := by
  induction d with
  | nil => rfl
  | cons fragment d ih =>
    rw [pieces, texts, List.flatMap_cons, List.flatMap_cons, contents_append, ← pieces, ← texts, ih]
    congr 1
    cases fragment with
    | plain text => simp [Fragment.pieces, Fragment.texts, contents, List.filterMap_map]
    | quoted q => simp [Fragment.pieces, Fragment.texts, contents]

/-- What stands outside quotes in the pieces of a draft is its plain text. -/
theorem outsideChars_pieces (d : Draft) : outsideChars (pieces d) = plainChars d := by
  induction d with
  | nil => rfl
  | cons fragment d ih =>
    rw [pieces, plainChars, List.flatMap_cons, List.flatMap_cons, outsideChars_append, ← pieces,
      ← plainChars, ih]
    congr 1
    cases fragment with
    | plain text => simp [Fragment.pieces, outsideChars, List.filterMap_map]
    | quoted q => rfl

/-- Two drafts with the same outline are read alike, but for what is inside quotes. -/
theorem map_emptied_pieces {c d : Draft}
    (h : relabel Quotation.quote c = relabel Quotation.quote d) :
    (pieces c).map Piece.emptied = (pieces d).map Piece.emptied := by
  have houtline : ∀ e : Draft, (pieces e).map Piece.emptied =
      (relabel Quotation.quote e).flatMap fun
        | .plain text => text.toList.map .outside
        | .quoted quote => [.region quote []] := by
    intro e
    rw [pieces, List.map_flatMap, relabel, List.flatMap_map]
    refine congrArg e.flatMap (funext fun fragment => ?_)
    cases fragment with
    | plain text =>
      rw [Fragment.pieces, List.map_map]
      rfl
    | quoted q => rfl
  rw [houtline, houtline, h]

/-- Emptying the quotes leaves what stands outside. -/
theorem outsideChars_map_emptied (ps : List Piece) :
    outsideChars (ps.map Piece.emptied) = outsideChars ps := by
  rw [outsideChars, List.filterMap_map, outsideChars]
  refine congrArg (List.filterMap · ps) (funext fun piece => ?_)
  cases piece <;> rfl

/-- A calm draft has calm text outside its quotes. -/
theorem calmText_plainChars {Q : Type} {d : List (Fragment Q)} (h : Calm d) :
    CalmText (plainChars d) := by
  induction d with
  | nil => exact calmText_of_forall (by simp [plainChars])
  | cons fragment d ih =>
    have hd : Calm d := fun t ht => h t (List.mem_cons_of_mem _ ht)
    rw [plainChars, List.flatMap_cons, ← plainChars]
    cases fragment with
    | plain text => exact calmText_append (h text List.mem_cons_self) (ih hd)
    | quoted q => exact ih hd

/-! ## Reading phrases -/

/-- A character that is not disruptive opens no quotes. -/
theorem opens?_eq_none {c : Char} (h : c ∉ disruptive) : opens? c = none := by
  have hname : c ≠ Quote.name.mark := fun heq => h (heq ▸ by decide)
  have htext : c ≠ Quote.text.mark := fun heq => h (heq ▸ by decide)
  rw [opens?, if_neg hname, if_neg htext]

/-- The mark of a quote opens it. -/
theorem opens?_mark (quote : Quote) : opens? quote.mark = some quote := by
  cases quote with
  | name => rfl
  | text => rfl

/-- Calm characters are read as they stand. -/
theorem regionsFrom?_outside {l rest : List Char} (h : ∀ c ∈ l, c ∉ disruptive) :
    regionsFrom? .outside (l ++ rest) =
      (regionsFrom? .outside rest).map (l.map .outside ++ ·) := by
  induction l with
  | nil => simp
  | cons c l ih =>
    obtain ⟨hc, hl⟩ := List.forall_mem_cons.1 h
    rw [List.cons_append, regionsFrom?, opens?_eq_none hc]
    simp only [ih hl, Option.map_map]
    rfl

/-- A character that is admitted and not escaped neither escapes nor ends its region. -/
theorem ne_of_admits {quote : Quote} {c : Char} (h : quote.admits c = true)
    (hescape : ¬(c = '"' || c = '/') = true) : c ≠ '\\' ∧ c ≠ quote.mark := by
  rw [Bool.or_eq_true, decide_eq_true_eq, decide_eq_true_eq, not_or] at hescape
  cases quote with
  | name =>
    simp only [Quote.admits, Bool.and_eq_true, decide_eq_true_eq, ne_eq] at h
    exact ⟨h.1.2, h.1.1⟩
  | text =>
    simp only [Quote.admits, Bool.and_eq_true, decide_eq_true_eq, ne_eq] at h
    exact ⟨h.1, hescape.1⟩

/-- An admitted content and the mark after it are read as the rest of a region. -/
theorem regionsFrom?_escapeChars {quote : Quote} {content before rest : List Char}
    (h : ∀ c ∈ content, quote.admits c = true) :
    regionsFrom? (.inside quote before) (escapeChars content ++ quote.mark :: rest) =
      (regionsFrom? .outside rest).map (.region quote (before.reverse ++ content) :: ·) := by
  induction content generalizing before with
  | nil =>
    have hmark : quote.mark ≠ '\\' := by cases quote <;> decide
    rw [escapeChars, List.flatMap_nil, List.nil_append, regionsFrom?, if_neg hmark, if_pos rfl,
      List.append_nil]
  | cons c content ih =>
    obtain ⟨hc, hcontent⟩ := List.forall_mem_cons.1 h
    have hread := @ih (c :: before) hcontent
    rw [List.reverse_cons, List.append_assoc, List.singleton_append] at hread
    rw [escapeChars, List.flatMap_cons, ← escapeChars, escapeChar, List.append_assoc]
    split
    · rw [List.cons_append, regionsFrom?, if_pos rfl, List.singleton_append, regionsFrom?, hread]
    · rename_i hescape
      obtain ⟨hback, hmark⟩ := ne_of_admits hc hescape
      rw [List.singleton_append, regionsFrom?, if_neg hback, if_neg hmark, hread]

/-- What was quoted is read back as one region with its content. -/
theorem regionsFrom?_quoted (q : Quoted) (rest : List Char) :
    regionsFrom? .outside (q.chars ++ rest) =
      (regionsFrom? .outside rest).map (.region q.quote q.content.toList :: ·) := by
  rw [Quoted.chars, List.append_assoc, List.cons_append, regionsFrom?, opens?_mark]
  exact regionsFrom?_escapeChars (List.all_eq_true.1 q.admitted)

/-- A phrase with calm plain parts is read as the pieces of its draft. -/
theorem regionsFrom?_chars {p : Phrase} {rest : List Char} (h : Calm p) :
    regionsFrom? .outside (p.chars ++ rest) =
      (regionsFrom? .outside rest).map (pieces (relabel Quoted.toQuotation p) ++ ·) := by
  induction p with
  | nil => simp [Phrase.chars, relabel, pieces]
  | cons fragment p ih =>
    have hp := ih fun t ht => h t (List.mem_cons_of_mem _ ht)
    rw [Phrase.chars, List.flatMap_cons, ← Phrase.chars, List.append_assoc]
    cases fragment with
    | plain text =>
      rw [Fragment.chars, regionsFrom?_outside (h text List.mem_cons_self).1, hp, Option.map_map]
      congr 1
      funext ps
      simp [relabel, Fragment.map, pieces, Fragment.pieces]
    | quoted q =>
      rw [Fragment.chars, regionsFrom?_quoted, hp, Option.map_map]
      rfl

/-- A calm phrase is read back piece by piece. -/
theorem regions?_write {p : Phrase} (h : Calm p) :
    regions? p.write = some (pieces (relabel Quoted.toQuotation p)) := by
  have hread := @regionsFrom?_chars p [] h
  rw [List.append_nil, regionsFrom?, Option.map_some, List.append_nil] at hread
  rw [regions?, Phrase.write, String.toList_ofList, hread]

end SchemaPlan.Ddl
