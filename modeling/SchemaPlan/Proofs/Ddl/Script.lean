import SchemaPlan.CommandLine.Outcome
import SchemaPlan.Proofs.Ddl.Region
import SchemaPlan.Proofs.Text.Blank

/-!
# Scripts of statements

`scriptStatements_writePlan` : the script of a plan splits into the statements of the plan. A text
is `Sealed` if it is read up to its end outside all regions without meeting a semicolon there, and
the semicolon after it is then the first at which the script is split (`splitFrom_append`). The
blanks that are dropped at the end of a statement were outside all regions (`Sealed.of_append`).
-/

namespace SchemaPlan.Ddl

/-! ## Reading on from a place -/

/-- The pieces that a character ends. -/
def Place.emit : Place → Char → List Piece
  | .outside, c => if opens? c = none then [.outside c] else []
  | .inside quote content, c =>
    if c = '\\' then [] else if c = quote.mark then [.region quote content.reverse] else []
  | .escaped _ _, _ => []

/-- A character moves to the next place and ends the pieces that it ends. -/
theorem regionsFrom?_cons (place : Place) (c : Char) (text : List Char) :
    regionsFrom? place (c :: text) =
      (regionsFrom? (place.next c) text).map (place.emit c ++ ·) := by
  cases place with
  | outside =>
    rw [regionsFrom?, Place.next, Place.emit]
    cases h : opens? c with
    | none => simp
    | some quote => simp
  | inside quote content =>
    rw [regionsFrom?, Place.next, Place.emit]
    split
    · simp
    · split
      · simp
      · simp
  | escaped quote content => simp [regionsFrom?, Place.next, Place.emit]

/-- A text may end only outside all regions. -/
theorem regionsFrom?_nil {place : Place} {ps : List Piece} :
    regionsFrom? place [] = some ps ↔ place = .outside ∧ ps = [] := by
  cases place <;> simp [regionsFrom?, eq_comm]

/-- The text is read up to its end outside all regions, and no semicolon stands outside. -/
def Sealed (place : Place) (text : List Char) : Prop :=
  ∃ ps, regionsFrom? place text = some ps ∧ ';' ∉ outsideChars ps

theorem sealed_nil {place : Place} : Sealed place [] ↔ place = .outside := by
  simp [Sealed, regionsFrom?_nil, outsideChars]

/-- A text is sealed if it does not begin with a semicolon outside all regions and goes on sealed.
-/
theorem sealed_cons {place : Place} {c : Char} {text : List Char} :
    Sealed place (c :: text) ↔
      ¬(place = .outside ∧ c = ';') ∧ Sealed (place.next c) text := by
  have hemit : ';' ∈ outsideChars (place.emit c) ↔ place = .outside ∧ c = ';' := by
    cases place with
    | outside =>
      by_cases hc : opens? c = none
      · simp [Place.emit, hc, outsideChars, eq_comm]
      · have hne : c ≠ ';' := fun heq => hc (heq ▸ rfl)
        simp [Place.emit, hc, outsideChars, hne]
    | inside quote content =>
      simp only [Place.emit, reduceCtorEq, false_and, iff_false]
      split
      · exact List.not_mem_nil
      · split <;> exact List.not_mem_nil
    | escaped quote content => simp [Place.emit, outsideChars]
  rw [Sealed, regionsFrom?_cons, ← hemit]
  simp only [Option.map_eq_some_iff]
  constructor
  · rintro ⟨_, ⟨ps, hps, rfl⟩, hnot⟩
    rw [outsideChars_append, List.mem_append, not_or] at hnot
    exact ⟨hnot.1, ps, hps, hnot.2⟩
  · rintro ⟨hc, ps, hps, hnot⟩
    refine ⟨_, ⟨ps, hps, rfl⟩, ?_⟩
    rw [outsideChars_append, List.mem_append, not_or]
    exact ⟨hc, hnot⟩

/-- A script is split at the semicolon after a sealed text. -/
theorem splitFrom_append {place : Place} {text rest : List Char} (h : Sealed place text) :
    splitFrom place (text ++ ';' :: rest) = text :: splitFrom .outside rest := by
  induction text generalizing place with
  | nil => rw [List.nil_append, splitFrom, if_pos ⟨sealed_nil.1 h, rfl⟩]
  | cons c text ih =>
    obtain ⟨hc, htext⟩ := sealed_cons.1 h
    rw [List.cons_append, splitFrom, if_neg hc, ih htext]
    rfl

/-- A sealed text is not split. -/
theorem splitFrom_of_sealed {place : Place} {text : List Char} (h : Sealed place text) :
    splitFrom place text = [text] := by
  induction text generalizing place with
  | nil => rw [splitFrom]
  | cons c text ih =>
    obtain ⟨hc, htext⟩ := sealed_cons.1 h
    rw [splitFrom, if_neg hc, ih htext]
    rfl

/-! ## Blanks at the ends -/

/-- A blank is no mark of quotes, no backslash and no semicolon. -/
theorem not_mem_disruptive_of_isBlank {c : Char} (h : Text.isBlank c = true) :
    c ∉ disruptive := by
  have hnone : disruptive.all (fun d => !Text.isBlank d) = true := rfl
  intro hmem
  have hfalse := List.all_eq_true.1 hnone c hmem
  rw [h] at hfalse
  exact Bool.false_ne_true hfalse

/-- A region does not end among blanks. -/
theorem Sealed.outside_of_blank {place : Place} {blanks : List Char}
    (hblanks : ∀ c ∈ blanks, Text.isBlank c = true) (h : Sealed place blanks) :
    place = .outside := by
  induction blanks generalizing place with
  | nil => exact sealed_nil.1 h
  | cons c blanks ih =>
    obtain ⟨hc, hrest⟩ := List.forall_mem_cons.1 hblanks
    have hnext := ih hrest (sealed_cons.1 h).2
    have hfree : c ∉ disruptive := not_mem_disruptive_of_isBlank hc
    cases place with
    | outside => rfl
    | inside quote content =>
      have hmark : c ≠ quote.mark := by
        rintro rfl
        exact hfree (by cases quote <;> decide)
      have hback : c ≠ '\\' := fun heq => hfree (heq ▸ by decide)
      rw [Place.next, if_neg hback, if_neg hmark] at hnext
      cases hnext
    | escaped quote content => cases hnext

/-- Blanks at the end of a sealed text may be dropped. -/
theorem Sealed.of_append {place : Place} {text blanks : List Char}
    (hblanks : ∀ c ∈ blanks, Text.isBlank c = true) (h : Sealed place (text ++ blanks)) :
    Sealed place text := by
  induction text generalizing place with
  | nil => exact sealed_nil.2 (h.outside_of_blank hblanks)
  | cons c text ih =>
    obtain ⟨hc, htext⟩ := sealed_cons.1 h
    exact sealed_cons.2 ⟨hc, ih htext⟩

/-- Blanks may stand in front of a sealed text. -/
theorem Sealed.blank_append {lead text : List Char}
    (hlead : ∀ c ∈ lead, Text.isBlank c = true) (h : Sealed .outside text) :
    Sealed .outside (lead ++ text) := by
  induction lead with
  | nil => exact h
  | cons c lead ih =>
    obtain ⟨hc, hrest⟩ := List.forall_mem_cons.1 hlead
    have hfree : c ∉ disruptive := not_mem_disruptive_of_isBlank hc
    refine sealed_cons.2 ⟨fun heq => hfree (heq.2 ▸ by decide), ?_⟩
    rw [Place.next, opens?_eq_none hfree]
    exact ih hrest

/-! ## Scripts -/

/-- A statement that is read up to its end outside all regions, without meeting a semicolon there,
and does not start with a blank. -/
def IsStatement (s : String) : Prop :=
  Sealed .outside s.toList ∧ ∃ c rest, s.toList = c :: rest ∧ Text.isBlank c = false

/-- A statement is sealed, also without the blanks at its end. -/
theorem IsStatement.trimEnd {s : String} (h : IsStatement s) :
    Sealed .outside (Text.trimEnd s).toList := by
  obtain ⟨dropped, happend, hblank⟩ := Text.eq_dropEndWhile_append Text.isBlank s.toList
  have hsealed := h.1
  rw [happend] at hsealed
  rw [Text.trimEnd, String.toList_ofList]
  exact hsealed.of_append hblank

/-- The first part of a script is its first statement. -/
theorem statementsOf_cons {lead : List Char} {s : String} (parts : List (List Char))
    (hlead : ∀ c ∈ lead, Text.isBlank c = true) (h : IsStatement s) :
    statementsOf ((lead ++ (Text.trimEnd s).toList) :: parts) =
      Text.trimEnd s :: statementsOf parts := by
  obtain ⟨-, c, rest, htext, hc⟩ := h
  have htrim : Text.dropEnds Text.isBlank (lead ++ (Text.trimEnd s).toList) =
      (Text.trimEnd s).toList := by
    rw [Text.trimEnd, String.toList_ofList, htext, Text.dropEnds_append hlead hc]
  have hne : Text.trimEnd s ≠ "" := by
    obtain ⟨left, hleft⟩ := Text.exists_dropEndWhile_cons hc rest
    rw [Text.trimEnd, htext, hleft]
    simp
  rw [statementsOf, List.map_cons, htrim, String.ofList_toList, List.filter_cons_of_pos (by simpa),
    statementsOf]

/-- A script of statements, each with a semicolon and a line end, is split into them. -/
theorem statementsOf_splitFrom {lead : List Char} {statements : List String}
    (hlead : ∀ c ∈ lead, Text.isBlank c = true) (h : ∀ s ∈ statements, IsStatement s) :
    statementsOf (splitFrom .outside
      (lead ++ statements.flatMap fun s => (Text.trimEnd s).toList ++ [';', '\n'])) =
      statements.map Text.trimEnd := by
  induction statements generalizing lead with
  | nil =>
    have hsealed := Sealed.blank_append hlead (sealed_nil.2 rfl)
    rw [List.flatMap_nil, splitFrom_of_sealed hsealed, List.append_nil, statementsOf, List.map_cons,
      Text.dropEnds_eq_nil hlead]
    rfl
  | cons s statements ih =>
    obtain ⟨hs, hrest⟩ := List.forall_mem_cons.1 h
    -- the newline after the semicolon is a blank in front of what follows
    have hsplit :
        lead ++ (s :: statements).flatMap (fun s => (Text.trimEnd s).toList ++ [';', '\n']) =
          (lead ++ (Text.trimEnd s).toList) ++ ';' ::
            (['\n'] ++ statements.flatMap fun s => (Text.trimEnd s).toList ++ [';', '\n']) := by
      simp
    rw [hsplit, splitFrom_append (Sealed.blank_append hlead hs.trimEnd),
      statementsOf_cons _ hlead hs, ih (List.forall_mem_singleton.2 rfl) hrest, List.map_cons]

/-- A plan is written as a script of its statements. -/
theorem toList_writePlan (plan : Plan) : (CommandLine.writePlan plan).toList =
    plan.statements.flatMap fun s => (Text.trimEnd s).toList ++ [';', '\n'] := by
  simp [CommandLine.writePlan, CommandLine.lines, String.toList_join, List.flatMap_map]

/-- The script that is printed for a plan splits into its statements. -/
theorem scriptStatements_writePlan {plan : Plan} (h : ∀ s ∈ plan.statements, IsStatement s) :
    scriptStatements (CommandLine.writePlan plan) = plan.statements.map Text.trimEnd := by
  rw [scriptStatements, toList_writePlan]
  exact @statementsOf_splitFrom [] _ (by simp) h

end SchemaPlan.Ddl
