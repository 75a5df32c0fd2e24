import SchemaPlan.Proofs.Ddl.Draft
import SchemaPlan.Proofs.Ddl.Realization
import SchemaPlan.Proofs.Ddl.Script

/-!
# Names and texts stay between their quotes

`texts_contained` : whatever the names and texts of an operation are, a database that reads its
statement finds exactly these between quotes, and finds outside quotes what the shape of the
operation says. So no name can end a statement, and the script of a plan is read as the statements
of the plan.
-/

namespace SchemaPlan

open Ddl

/-! ## Statements -/

/-- A statement is the text of a phrase that realizes the draft of its operation. -/
theorem exists_phrase_of_statement {operation : Operation} {s : String}
    (h : operation.statement = .ok s) :
    ∃ p : Phrase, Realizes p operation.draft ∧ s = p.write := by
  obtain ⟨p, hp, rfl⟩ := map_eq_ok_iff.1 h
  exact ⟨p, realizes_phrase hp, rfl⟩

/-- A statement is read as the pieces of its draft, and what is outside quotes is calm. -/
theorem regions?_statement {operation : Operation} {s : String}
    (h : operation.statement = .ok s) :
    regions? s = some (pieces operation.draft) ∧
      CalmText (outsideChars (pieces operation.draft)) := by
  obtain ⟨p, ⟨hdraft, hcalm⟩, rfl⟩ := exists_phrase_of_statement h
  refine ⟨hdraft ▸ regions?_write hcalm, ?_⟩
  rw [← hdraft, outsideChars_pieces, plainChars_relabel]
  exact calmText_plainChars hcalm

/-- The words statements begin with. -/
def openings : List String :=
  ["CREATE TABLE ", "ALTER TABLE ", "CREATE TOPIC ", "ALTER TOPIC "]

/-- A statement begins with one of the openings. -/
theorem exists_opening (operation : Operation) :
    ∃ opening ∈ openings, operation.draft.head? = some (.plain opening) := by
  cases operation with
  | createTable _ => exact ⟨"CREATE TABLE ", by decide, rfl⟩
  | createTopic _ => exact ⟨"CREATE TOPIC ", by decide, rfl⟩
  | alterTopic _ _ => exact ⟨"ALTER TOPIC ", by decide, rfl⟩
  | changeConsumer _ change =>
    refine ⟨"ALTER TOPIC ", by decide, ?_⟩
    cases change <;> rfl
  | _ => exact ⟨"ALTER TABLE ", by decide, rfl⟩

/-- A statement does not begin with a blank. -/
theorem exists_cons_of_statement {operation : Operation} {s : String}
    (h : operation.statement = .ok s) :
    ∃ c rest, s.toList = c :: rest ∧ Text.isBlank c = false := by
  have hopenings : ∀ opening ∈ openings,
      opening.toList.head?.map Text.isBlank = some false := by decide
  obtain ⟨p, ⟨hdraft, -⟩, rfl⟩ := exists_phrase_of_statement h
  obtain ⟨opening, hmem, hhead⟩ := exists_opening operation
  rw [← hdraft] at hhead
  obtain _ | ⟨fragment, p⟩ := p
  · cases hhead
  · cases fragment with
    | quoted q => cases hhead
    | plain text =>
      cases hhead
      obtain ⟨c, hc, hblank⟩ := Option.map_eq_some_iff.1 (hopenings opening hmem)
      obtain ⟨rest, hrest⟩ := List.head?_eq_some_iff.1 hc
      refine ⟨c, rest ++ Phrase.chars p, ?_, hblank⟩
      rw [Phrase.write, String.toList_ofList, Phrase.chars, List.flatMap_cons, Fragment.chars,
        hrest]
      rfl

/-- What is written of an operation is one statement for the splitter of scripts. -/
theorem isStatement_of_statement {operation : Operation} {s : String}
    (h : operation.statement = .ok s) : IsStatement s := by
  obtain ⟨hread, hcalm⟩ := regions?_statement h
  exact ⟨⟨_, hread, hcalm.not_mem (by decide)⟩, exists_cons_of_statement h⟩

/-! ## Plans -/

/-- Every statement of a plan is that of an operation. -/
theorem exists_operation_of_ofOperations {operations : List Operation} {plan : Plan}
    (h : Plan.ofOperations operations = .ok plan) {s : String} (hs : s ∈ plan.statements) :
    ∃ operation, Operation.statement operation = .ok s := by
  unfold Plan.ofOperations at h
  split at h
  · cases h
    exact absurd hs List.not_mem_nil
  · obtain ⟨ss, hss, rfl⟩ := map_eq_ok_iff.1 h
    obtain ⟨operation, -, hoperation⟩ := exists_of_mem_mapM hss hs
    exact ⟨operation, hoperation⟩

/-- Every statement of a plan for a table is the statement of an operation. -/
theorem exists_operation_of_planTable {options : PlanOptions} {declared : Table}
    {observed : Option Table} {plan : Plan} (h : planTable options declared observed = .ok plan)
    {s : String} (hs : s ∈ plan.statements) :
    ∃ operation, Operation.statement operation = .ok s := by
  simp only [planTable, bind_eq_ok_iff] at h
  obtain ⟨-, -, h⟩ := h
  cases observed with
  | none =>
    simp only [bind_eq_ok_iff, pure_eq_ok_iff] at h
    obtain ⟨statement, hstatement, rfl⟩ := h
    cases List.mem_singleton.1 hs
    exact ⟨_, hstatement⟩
  | some observed =>
    simp only [bind_eq_ok_iff] at h
    obtain ⟨operations, -, h⟩ := h
    exact exists_operation_of_ofOperations h hs

/-- Every statement of a plan for a topic is the statement of an operation. -/
theorem exists_operation_of_planTopic {table : CodecTable} {declared : DeclaredTopic}
    {observed : Option Topic} {plan : Plan} (h : planTopic table declared observed = .ok plan)
    {s : String} (hs : s ∈ plan.statements) :
    ∃ operation, Operation.statement operation = .ok s := by
  simp only [planTopic, refuse_eq_ok_iff] at h
  obtain ⟨-, h⟩ := h
  cases observed with
  | none =>
    simp only [bind_eq_ok_iff, pure_eq_ok_iff] at h
    obtain ⟨topic, -, statement, hstatement, rfl⟩ := h
    cases List.mem_singleton.1 hs
    exact ⟨_, hstatement⟩
  | some observed =>
    simp only [bind_eq_ok_iff] at h
    obtain ⟨operations, -, h⟩ := h
    exact exists_operation_of_ofOperations h hs

/-! ## Containment -/

/-- Names and texts cannot leave their quotes. Reading a statement ends outside all regions, finds
the names and texts of the operation in them, in order, and outside no semicolon, no backslash and
no beginning of a comment. Two operations of one shape and without split points have statements
that are the same outside the regions. The script of a plan splits into its statements. -/
theorem texts_contained :
    (∀ (operation : Operation) (s : String), operation.statement = .ok s →
      ∃ pieces, regions? s = some pieces ∧ contents pieces = operation.texts ∧
        ';' ∉ outsideChars pieces ∧ '\\' ∉ outsideChars pieces ∧
        ¬"--".toList <:+: outsideChars pieces ∧ ¬"/*".toList <:+: outsideChars pieces) ∧
    (∀ (a b : Operation) (s t : String), a.splitPoints = [] → b.splitPoints = [] →
      a.shape = b.shape → a.statement = .ok s → b.statement = .ok t →
      ∃ ps qs, regions? s = some ps ∧ regions? t = some qs ∧
        ps.map Piece.emptied = qs.map Piece.emptied ∧ outsideChars ps = outsideChars qs) ∧
    (∀ (options : PlanOptions) (declared : Table) (observed : Option Table) (plan : Plan),
      planTable options declared observed = .ok plan →
      scriptStatements (CommandLine.writePlan plan) = plan.statements.map Text.trimEnd) ∧
    (∀ (table : CodecTable) (declared : DeclaredTopic) (observed : Option Topic) (plan : Plan),
      planTopic table declared observed = .ok plan →
      scriptStatements (CommandLine.writePlan plan) = plan.statements.map Text.trimEnd) := by
  refine ⟨?_, ?_, ?_, ?_⟩
  · intro operation s h
    obtain ⟨hread, hcalm⟩ := regions?_statement h
    refine ⟨_, hread, ?_, hcalm.not_mem (by decide), hcalm.not_mem (by decide), hcalm.no_dashes,
      fun hin => ?_⟩
    · rw [contents_pieces, texts_draft]
    · exact hcalm.not_mem (by decide) (hin.subset (List.mem_cons_self : '/' ∈ "/*".toList))
  · intro a b s t ha hb hshape hs ht
    have houtline : relabel Quotation.quote a.draft = relabel Quotation.quote b.draft := by
      rw [← relabel_draft ha, ← relabel_draft hb, hshape]
    have hemptied := map_emptied_pieces houtline
    refine ⟨_, _, (regions?_statement hs).1, (regions?_statement ht).1, hemptied, ?_⟩
    rw [← outsideChars_map_emptied, hemptied, outsideChars_map_emptied]
  · intro options declared observed plan h
    refine scriptStatements_writePlan fun s hs => ?_
    obtain ⟨operation, hoperation⟩ := exists_operation_of_planTable h hs
    exact isStatement_of_statement hoperation
  · intro table declared observed plan h
    refine scriptStatements_writePlan fun s hs => ?_
    obtain ⟨operation, hoperation⟩ := exists_operation_of_planTopic h hs
    exact isStatement_of_statement hoperation

/-- An index and a table whose names look like the end of a statement and comments. -/
def quarrelsome : Operation :=
  .dropIndex "dir/t;--" "i\"; /*"

set_option maxRecDepth 4000 in
theorem statement_quarrelsome : quarrelsome.statement =
    .ok "ALTER TABLE `dir\\/t;--` DROP INDEX `i\\\"; \\/*`" :=
  rfl

theorem statement_dropIndex :
    (Operation.dropIndex "t" "i").statement = .ok "ALTER TABLE `t` DROP INDEX `i`" :=
  rfl

set_option maxRecDepth 4000 in
theorem planTable_create : planTable {}
    { path := "a;b", columns := [⟨"id", "Utf8", none, false⟩], primaryKey := ["id"] } none =
    .ok (.create "CREATE TABLE `a;b`(\n\t`id` Utf8,\n\tPRIMARY KEY (`id`)\n)\n") :=
  rfl

set_option maxRecDepth 4000 in
theorem planTopic_alter : planTopic .standard { path := "n;t", retention := some "PT1H" }
    (some { path := "n;t" }) =
    .ok (.alter ["ALTER TOPIC `n;t` SET (retention_period = Interval(\"PT1H\"))"]) :=
  rfl

/-- A table and an index whose names have quotes, comments and semicolons in them, and plans for
objects with semicolons in their names. -/
theorem texts_contained_quarrelsome :
    (∃ pieces, regions? "ALTER TABLE `dir\\/t;--` DROP INDEX `i\\\"; \\/*`" = some pieces ∧
      contents pieces = ["dir/t;--", "i\"; /*"] ∧
      ';' ∉ outsideChars pieces ∧ '\\' ∉ outsideChars pieces ∧
      ¬"--".toList <:+: outsideChars pieces ∧ ¬"/*".toList <:+: outsideChars pieces) ∧
    (∃ ps qs, regions? "ALTER TABLE `dir\\/t;--` DROP INDEX `i\\\"; \\/*`" = some ps ∧
      regions? "ALTER TABLE `t` DROP INDEX `i`" = some qs ∧
      ps.map Piece.emptied = qs.map Piece.emptied ∧ outsideChars ps = outsideChars qs) ∧
    scriptStatements (CommandLine.writePlan (.create
      "CREATE TABLE `a;b`(\n\t`id` Utf8,\n\tPRIMARY KEY (`id`)\n)\n")) =
      [Text.trimEnd "CREATE TABLE `a;b`(\n\t`id` Utf8,\n\tPRIMARY KEY (`id`)\n)\n"] ∧
    scriptStatements (CommandLine.writePlan (.alter
      ["ALTER TOPIC `n;t` SET (retention_period = Interval(\"PT1H\"))"])) =
      [Text.trimEnd "ALTER TOPIC `n;t` SET (retention_period = Interval(\"PT1H\"))"] :=
  ⟨texts_contained.1 _ _ statement_quarrelsome,
    texts_contained.2.1 quarrelsome (.dropIndex "t" "i") _ _ rfl rfl rfl statement_quarrelsome
      statement_dropIndex,
    texts_contained.2.2.1 _ _ _ _ planTable_create,
    texts_contained.2.2.2 _ _ _ _ planTopic_alter⟩

end SchemaPlan
