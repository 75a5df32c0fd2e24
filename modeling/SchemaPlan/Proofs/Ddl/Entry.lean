import SchemaPlan.Ddl.Entry
import SchemaPlan.Proofs.Ddl.Region
import SchemaPlan.Proofs.Text.Blank

/-!
# Reading entries

What `within?` says of some pieces holds of them inside more brackets too (`within?_add`), so
entries can be put side by side and inside brackets (`IsEntry.append`, `isEntry_wrap`). Conversely,
whatever a list is split into are entries (`isEntry_of_entriesFrom?`). A draft is `Listable` if it
is one entry and neither begins nor ends with a blank; a list in brackets of such drafts is split
into just these (`group?_bracketed`, `group?_bracketBlock`).
-/

namespace SchemaPlan.Ddl

variable {opened after : List Bracket} {c : Char} {p : Piece} {ps qs rest : List Piece}

/-! ## Brackets -/

/-- The characters that open or close a bracket, or stand between entries. -/
def dividers : List Char :=
  ['(', '<', ')', '>', ',']

/-- A property that no divider has tells characters from dividers. -/
theorem not_mem_dividers {p : Char → Bool} (hnone : dividers.any p = false) (h : p c = true) :
    c ∉ dividers := by
  intro hmem
  have hany : dividers.any p = true := List.any_eq_true.2 ⟨c, hmem, h⟩
  exact Bool.false_ne_true (hnone.symm.trans hany)

/-- A character that is no divider leaves the brackets as they are. -/
theorem afterChar?_eq_self (h : c ∉ dividers) : afterChar? opened c = some opened := by
  have hne : ∀ d ∈ dividers, ¬d = c := fun d hd heq => h (heq ▸ hd)
  have hopening : Bracket.ofOpening? c = none := by
    simp [Bracket.ofOpening?, Bracket.opening, hne '(' (by decide), hne '<' (by decide)]
  have hclosing : Bracket.ofClosing? c = none := by
    simp [Bracket.ofClosing?, Bracket.closing, hne ')' (by decide), hne '>' (by decide)]
  have hcomma : ¬(opened = [] ∧ c = ',') := fun hc => hne ',' (by decide) hc.2.symm
  simp only [afterChar?, hopening, hclosing, if_neg hcomma]

/-- More brackets around make no difference to those that are opened and closed. -/
theorem afterChar?_add (h : afterChar? opened c = some after) (more : List Bracket) :
    afterChar? (opened ++ more) c = some (after ++ more) := by
  unfold afterChar? at h ⊢
  cases hopening : Bracket.ofOpening? c with
  | some b =>
    simp only [hopening, Option.some.injEq] at h ⊢
    rw [← h, List.cons_append]
  | none =>
    cases hclosing : Bracket.ofClosing? c with
    | some b =>
      simp only [hopening, hclosing, Option.ite_none_right_eq_some, Option.some.injEq] at h ⊢
      obtain ⟨hhead, rfl⟩ := h
      obtain ⟨tail, rfl⟩ := List.head?_eq_some_iff.1 hhead
      exact ⟨rfl, rfl⟩
    | none =>
      simp only [hopening, hclosing, Option.ite_none_left_eq_some, Option.some.injEq] at h ⊢
      obtain ⟨hcomma, rfl⟩ := h
      exact ⟨fun hc => hcomma ⟨(List.append_eq_nil_iff.1 hc.1).1, hc.2⟩, rfl⟩

/-- Brackets around a piece make no difference to it. -/
theorem Piece.after?_add (h : p.after? opened = some after) (more : List Bracket) :
    p.after? (opened ++ more) = some (after ++ more) := by
  cases p with
  | outside c => exact afterChar?_add h more
  | region quote content =>
    rw [Piece.after?, Option.some.injEq] at h ⊢
    rw [h]

/-! ## Pieces of one entry -/

@[simp] theorem within?_nil (opened : List Bracket) : within? opened [] = some opened :=
  rfl

/-- The brackets after a first piece are those in which the rest is read. -/
theorem within?_cons_eq_some_iff {opened' : List Bracket} :
    within? opened (p :: ps) = some opened' ↔
      ∃ after, p.after? opened = some after ∧ within? after ps = some opened' := by
  rw [within?]
  cases p.after? opened <;> simp

/-- The brackets after one run of pieces are those in which the next is read. -/
theorem within?_append (ps qs : List Piece) :
    within? opened (ps ++ qs) = (within? opened ps).bind fun after => within? after qs := by
  induction ps generalizing opened with
  | nil => rfl
  | cons p ps ih =>
    rw [List.cons_append, within?, within?]
    cases p.after? opened with
    | none => rfl
    | some next => exact ih

theorem within?_append_of_eq (h : within? opened ps = some after) (qs : List Piece) :
    within? opened (ps ++ qs) = within? after qs := by
  rw [within?_append, h, Option.bind_some]

/-- Brackets around a run of pieces make no difference to it. -/
theorem within?_add (h : within? opened ps = some after) (more : List Bracket) :
    within? (opened ++ more) ps = some (after ++ more) := by
  induction ps generalizing opened with
  | nil =>
    obtain rfl := Option.some.inj h
    rfl
  | cons p ps ih =>
    obtain ⟨next, hnext, h⟩ := within?_cons_eq_some_iff.1 h
    exact within?_cons_eq_some_iff.2 ⟨_, Piece.after?_add hnext more, ih h⟩

/-- Pieces without brackets and commas can stand anywhere. -/
theorem within?_eq_self (h : ∀ c, .outside c ∈ ps → c ∉ dividers) (opened : List Bracket) :
    within? opened ps = some opened := by
  induction ps with
  | nil => rfl
  | cons p ps ih =>
    refine within?_cons_eq_some_iff.2
      ⟨opened, ?_, ih fun c hc => h c (List.mem_cons_of_mem _ hc)⟩
    cases p with
    | outside c => exact afterChar?_eq_self (h c List.mem_cons_self)
    | region quote content => rfl

/-- What keeps the brackets member by member keeps them as a whole. -/
theorem within?_flatMap {α : Type} {l : List α} {f : α → List Piece}
    (h : ∀ a ∈ l, within? opened (f a) = some opened) :
    within? opened (l.flatMap f) = some opened := by
  induction l with
  | nil => rfl
  | cons a l ih =>
    obtain ⟨ha, hl⟩ := List.forall_mem_cons.1 h
    rw [List.flatMap_cons, within?_append_of_eq ha, ih hl]

/-! ## Entries -/

theorem isEntry_nil : IsEntry [] :=
  rfl

/-- An entry can stand inside any brackets. -/
theorem IsEntry.within? (h : IsEntry ps) (opened : List Bracket) :
    within? opened ps = some opened :=
  within?_add h opened

/-- Entries without a comma between them are one entry. -/
theorem IsEntry.append (hp : IsEntry ps) (hq : IsEntry qs) : IsEntry (ps ++ qs) := by
  rw [IsEntry, within?_append_of_eq hp, hq.within?]

/-- Without dividers outside quotes there is one entry. -/
theorem isEntry_of_forall (h : ∀ c, .outside c ∈ ps → c ∉ dividers) : IsEntry ps :=
  within?_eq_self h []

theorem isEntry_chars {text : List Char} (h : ∀ c ∈ text, c ∉ dividers) :
    IsEntry (text.map .outside) :=
  isEntry_of_forall fun c hc => h c (by simpa using hc)

/-- Entries before and after pieces do not matter to whether these are one. -/
theorem isEntry_append_append_iff {before behind : List Piece} (hbefore : IsEntry before)
    (hbehind : IsEntry behind) : IsEntry (before ++ ps ++ behind) ↔ IsEntry ps := by
  have hkeep : (fun after => Ddl.within? after behind) = some := funext hbehind.within?
  rw [IsEntry, List.append_assoc, within?_append_of_eq hbefore, within?_append, hkeep,
    Option.bind_fun_some]
  rfl

/-- What can stand inside a bracket makes an entry with the bracket around it. -/
theorem isEntry_wrap {b : Bracket} {before inside behind : List Piece}
    (hbefore : Ddl.within? [] before = some [b]) (hinside : Ddl.within? [b] inside = some [b])
    (hbehind : Ddl.within? [b] behind = some []) : IsEntry (before ++ inside ++ behind) := by
  rw [IsEntry, List.append_assoc, within?_append_of_eq hbefore, within?_append_of_eq hinside,
    hbehind]

/-! ## Splitting at commas -/

/-- Pieces that can stand in an entry belong to the first entry that is found. -/
theorem entriesFrom?_append (h : within? opened ps = some after) (qs : List Piece) :
    entriesFrom? opened (ps ++ qs) =
      (entriesFrom? after qs).map fun (entries, rest) =>
        (entries.modifyHead (ps ++ ·), rest) := by
  induction ps generalizing opened with
  | nil =>
    obtain rfl := Option.some.inj h
    rw [List.nil_append]
    cases entriesFrom? opened qs with
    | none => rfl
    | some read =>
      obtain ⟨entries, rest⟩ := read
      cases entries <;> rfl
  | cons p ps ih =>
    obtain ⟨next, hnext, h⟩ := within?_cons_eq_some_iff.1 h
    rw [List.cons_append, entriesFrom?, hnext]
    simp only [ih h, Option.map_map]
    congr 1
    funext ⟨entries, rest⟩
    cases entries <;> rfl

/-- A comma outside brackets ends an entry. -/
theorem entriesFrom?_comma (ps : List Piece) : entriesFrom? [] (.outside ',' :: ps) =
    (entriesFrom? [] ps).map fun (entries, rest) => ([] :: entries, rest) :=
  rfl

/-- Whatever pieces are split into are entries. -/
theorem isEntry_of_entriesFrom? {entries : List (List Piece)}
    (h : entriesFrom? opened ps = some (entries, rest)) :
    ∃ first others, entries = first :: others ∧ within? opened first = some [] ∧
      ∀ entry ∈ others, IsEntry entry := by
  induction ps generalizing opened entries with
  | nil =>
    cases opened with
    | nil =>
      obtain ⟨rfl, rfl⟩ := Prod.mk.inj (Option.some.inj h)
      exact ⟨[], [], rfl, rfl, by simp⟩
    | cons b opened => cases h
  | cons p ps ih =>
    rw [entriesFrom?] at h
    cases hafter : p.after? opened with
    | some after =>
      rw [hafter] at h
      obtain ⟨⟨read, rest'⟩, hread, heq⟩ := Option.map_eq_some_iff.1 h
      obtain ⟨rfl, rfl⟩ := Prod.mk.inj heq
      obtain ⟨first, others, rfl, hfirst, hothers⟩ := ih hread
      exact ⟨p :: first, others, rfl, within?_cons_eq_some_iff.2 ⟨after, hafter, hfirst⟩, hothers⟩
    | none =>
      simp only [hafter] at h
      split at h
      · cases h
      · rename_i hopened
        obtain rfl := not_not.1 hopened
        split at h
        · obtain ⟨⟨read, rest'⟩, hread, heq⟩ := Option.map_eq_some_iff.1 h
          obtain ⟨rfl, rfl⟩ := Prod.mk.inj heq
          obtain ⟨first, others, rfl, hfirst, hothers⟩ := ih hread
          exact ⟨[], first :: others, rfl, rfl, List.forall_mem_cons.2 ⟨hfirst, hothers⟩⟩
        · obtain ⟨rfl, rfl⟩ := Prod.mk.inj (Option.some.inj h)
          exact ⟨[], [], rfl, rfl, by simp⟩

/-! ## Blanks around entries -/

/-- Blanks alone are an entry. -/
theorem isEntry_of_isBlank (h : ∀ p ∈ ps, p.isBlank = true) : IsEntry ps :=
  isEntry_of_forall fun _ hc => not_mem_dividers (p := Text.isBlank) rfl (h _ hc)

/-- Blanks at the ends of an entry do not count. -/
theorem isEntry_trimPieces_iff : IsEntry (trimPieces ps) ↔ IsEntry ps := by
  obtain ⟨lead, trail, heq, hlead, htrail⟩ := Text.eq_append_dropEnds Piece.isBlank ps
  rw [← isEntry_append_append_iff (isEntry_of_isBlank hlead) (isEntry_of_isBlank htrail),
    trimPieces, ← heq]

/-- Blanks in front are dropped. -/
theorem trimPieces_blank_append (hblank : ∀ p ∈ qs, p.isBlank = true) (ps : List Piece) :
    trimPieces (qs ++ ps) = trimPieces ps := by
  have hdrop := Text.dropEnds_append_append hblank (List.forall_mem_nil _) ps
  rwa [List.append_nil] at hdrop

/-- Blanks at the end are dropped. -/
theorem trimPieces_append_blank (hblank : ∀ p ∈ qs, p.isBlank = true) (ps : List Piece) :
    trimPieces (ps ++ qs) = trimPieces ps :=
  Text.dropEnds_append_append (List.forall_mem_nil _) hblank ps

/-- Entries that do not begin or end with a blank are found between commas, with blanks after each
comma and at the end. -/
theorem entriesFrom?_list {first : List Piece} {others : List (List Piece)} {pad trail : List Piece}
    (hfirst : IsEntry first) (hothers : ∀ e ∈ others, IsEntry e ∧ trimPieces e = e)
    (hpad : ∀ p ∈ pad, p.isBlank = true) (htrail : ∀ p ∈ trail, p.isBlank = true)
    (hend : entriesFrom? [] rest = some ([[]], rest)) :
    ∃ entries, entriesFrom? []
        (first ++ (others.flatMap fun e => .outside ',' :: (pad ++ e)) ++ trail ++ rest) =
          some (entries, rest) ∧ entries.map trimPieces = trimPieces first :: others := by
  induction others generalizing first with
  | nil =>
    refine ⟨[first ++ trail], ?_, ?_⟩
    · rw [List.flatMap_nil, List.append_nil,
        entriesFrom?_append (hfirst.append (isEntry_of_isBlank htrail)), hend]
      simp
    · rw [List.map_singleton, trimPieces_append_blank htrail]
  | cons next others ih =>
    obtain ⟨⟨hnext, htrim⟩, hothers⟩ := List.forall_mem_cons.1 hothers
    obtain ⟨entries, hread, hentries⟩ := ih ((isEntry_of_isBlank hpad).append hnext) hothers
    refine ⟨first :: entries, ?_, ?_⟩
    · rw [List.append_assoc, List.append_assoc, entriesFrom?_append hfirst, List.flatMap_cons,
        List.cons_append, List.cons_append, entriesFrom?_comma]
      simp only [List.append_assoc] at hread ⊢
      rw [hread]
      simp
    · rw [List.map_cons, hentries, trimPieces_blank_append hpad, htrim]

/-- Pieces are a list of just one entry exactly if they are one. -/
theorem entries?_eq_singleton_iff : entries? ps = some [trimPieces ps] ↔ IsEntry ps := by
  constructor
  · intro h
    unfold entries? at h
    split at h
    · rename_i entries hread
      obtain ⟨first, others, rfl, hfirst, -⟩ := isEntry_of_entriesFrom? hread
      rw [List.map_cons, Option.some.injEq, List.cons.injEq] at h
      rw [← isEntry_trimPieces_iff, ← h.1, isEntry_trimPieces_iff]
      exact hfirst
    · cases h
  · intro h
    have hread := entriesFrom?_append h []
    rw [List.append_nil] at hread
    rw [entries?, hread]
    simp [entriesFrom?]

/-! ## Listable drafts -/

/-- Whether the first piece is there and is not blank. -/
def startsSolid (ps : List Piece) : Bool :=
  ps.head?.any fun p => !p.isBlank

/-- Whether the last piece is there and is not blank. -/
def endsSolid (ps : List Piece) : Bool :=
  ps.getLast?.any fun p => !p.isBlank

/-- The draft is one entry and neither begins nor ends with a blank. -/
structure Listable (d : Draft) : Prop where
  isEntry : IsEntry (pieces d)
  starts : startsSolid (pieces d) = true
  ends : endsSolid (pieces d) = true

theorem startsSolid_append (h : startsSolid ps = true) (qs : List Piece) :
    startsSolid (ps ++ qs) = true := by
  cases ps with
  | nil => cases h
  | cons p ps => exact h

/-- What ends well ends well after anything. -/
theorem endsSolid_append (ps : List Piece) (h : endsSolid qs = true) :
    endsSolid (ps ++ qs) = true := by
  rw [endsSolid, List.getLast?_append]
  cases hlast : qs.getLast? with
  | none => rw [endsSolid, hlast] at h; cases h
  | some p => rwa [endsSolid, hlast] at h

/-- What may be left out at the end does not matter if what stands before it ends well. -/
theorem endsSolid_append_of_imp (hp : endsSolid ps = true) (hq : qs ≠ [] → endsSolid qs = true) :
    endsSolid (ps ++ qs) = true := by
  cases qs with
  | nil => rwa [List.append_nil]
  | cons q qs => exact endsSolid_append ps (hq (List.cons_ne_nil q qs))

/-- Pieces that begin and end well have no blanks to drop. -/
theorem trimPieces_eq_self (hstarts : startsSolid ps = true) (hends : endsSolid ps = true) :
    trimPieces ps = ps := by
  refine Text.dropEnds_eq_self (fun p hp => ?_) fun p hp => ?_
  · rw [startsSolid, Option.mem_def.1 hp] at hstarts
    simpa using hstarts
  · rw [endsSolid, Option.mem_def.1 hp] at hends
    simpa using hends

/-- What can be listed has no blanks to drop. -/
theorem Listable.trimmed {d : Draft} (h : Listable d) : trimPieces (pieces d) = pieces d :=
  trimPieces_eq_self h.starts h.ends

/-! ## Lists in brackets -/

/-- After a word stands what follows it. -/
theorem afterWord?_append (word : String) (rest : List Piece) :
    afterWord? word (pieces (plain word) ++ rest) = some rest := by
  rw [afterWord?, pieces_plain, List.isPrefixOf?_eq_some_iff_append_eq]

@[simp] theorem takeQuoted?_region (quote : Quote) (content : List Char) (rest : List Piece) :
    takeQuoted? quote (.region quote content :: rest) = some (.ofList content, rest) := by
  rw [takeQuoted?, if_pos rfl]

@[simp] theorem afterWord?_open (ps : List Piece) :
    afterWord? "(" (.outside '(' :: ps) = some ps :=
  rfl

@[simp] theorem afterWord?_close (ps : List Piece) :
    afterWord? ")" (.outside ')' :: ps) = some ps :=
  rfl

/-- A list in brackets is read as its entries, whatever blanks are around them. -/
theorem group?_list {first : List Piece} {others : List (List Piece)} {lead pad trail : List Piece}
    (h : ∀ e ∈ first :: others, IsEntry e ∧ trimPieces e = e)
    (hlead : ∀ p ∈ lead, p.isBlank = true) (hpad : ∀ p ∈ pad, p.isBlank = true)
    (htrail : ∀ p ∈ trail, p.isBlank = true) (rest : List Piece) :
    group? (.outside '(' :: (lead ++ first ++ (others.flatMap fun e => .outside ',' :: (pad ++ e))
      ++ trail ++ .outside ')' :: rest)) = some (first :: others, rest) := by
  obtain ⟨⟨hfirst, htrim⟩, hothers⟩ := List.forall_mem_cons.1 h
  have hend : entriesFrom? [] (.outside ')' :: rest) = some ([[]], .outside ')' :: rest) := rfl
  obtain ⟨entries, hread, hentries⟩ := entriesFrom?_list
    ((isEntry_of_isBlank hlead).append hfirst) hothers hpad htrail hend
  rw [trimPieces_blank_append hlead, htrim] at hentries
  simp only [group?, afterWord?_open, hread, afterWord?_close, Option.bind_eq_bind,
    Option.bind_some, hentries, Option.pure_def]

/-- Whatever is read from a list in brackets are entries. -/
theorem isEntry_of_group? {entries : List (List Piece)} (h : group? ps = some (entries, rest)) :
    ∀ e ∈ entries, IsEntry e := by
  simp only [group?, Option.bind_eq_bind, Option.bind_eq_some_iff, Option.pure_def,
    Option.some.injEq, Prod.mk.injEq, Prod.exists] at h
  obtain ⟨inside, -, read, behind, hread, -, -, rfl, -⟩ := h
  obtain ⟨first, others, rfl, hfirst, hothers⟩ := isEntry_of_entriesFrom? hread
  intro e he
  obtain ⟨raw, hraw, rfl⟩ := List.mem_map.1 he
  rw [isEntry_trimPieces_iff]
  rcases List.mem_cons.1 hraw with rfl | hraw
  · exact hfirst
  · exact hothers raw hraw

variable {ds : List Draft}

/-- Drafts that can be listed are read as the entries of a list. -/
theorem isEntry_and_trimmed_of_listable (h : ∀ d ∈ ds, Listable d) :
    ∀ e ∈ ds.map pieces, IsEntry e ∧ trimPieces e = e := by
  intro e he
  obtain ⟨d, hd, rfl⟩ := List.mem_map.1 he
  exact ⟨(h d hd).isEntry, (h d hd).trimmed⟩

/-- A list on one line is read entry by entry. -/
theorem group?_bracketed (hne : ds ≠ []) (h : ∀ d ∈ ds, Listable d) (rest : List Piece) :
    group? (pieces (bracketed ds) ++ rest) = some (ds.map pieces, rest) := by
  obtain ⟨d, ds, rfl⟩ := List.exists_cons_of_ne_nil hne
  have hpad : ∀ p ∈ [Piece.outside ' '], p.isBlank = true := by decide
  have hlist := group?_list (isEntry_and_trimmed_of_listable h) (List.forall_mem_nil _) hpad
    (List.forall_mem_nil _) rest
  rw [List.map_cons, ← hlist]
  simp [bracketed, join_cons, List.flatMap_map]

/-- A list on lines of its own is read entry by entry. -/
theorem group?_bracketBlock (hne : ds ≠ []) (h : ∀ d ∈ ds, Listable d) (rest : List Piece) :
    group? (pieces (bracketBlock ds) ++ rest) = some (ds.map pieces, rest) := by
  obtain ⟨d, ds, rfl⟩ := List.exists_cons_of_ne_nil hne
  have hpad : ∀ p ∈ [Piece.outside '\n', .outside '\t'], p.isBlank = true := by decide
  have htrail : ∀ p ∈ [Piece.outside '\n'], p.isBlank = true := by decide
  have hlist := group?_list (isEntry_and_trimmed_of_listable h) hpad hpad htrail rest
  rw [List.map_cons, ← hlist]
  simp [bracketBlock, block, join_cons, List.flatMap_map]

end SchemaPlan.Ddl
