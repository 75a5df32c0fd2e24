import SchemaPlan.Proofs.Table.Validation

/-!
# Exactly the problems there are

`Table.validate_reports` : a declaration is accepted exactly if it is well-formed; the problems of
any other are what is wrong with it, once for every place where it is, in the order of the places,
one problem bare and several together.

`Table.Lists` says that a list of problems is what a rule finds at some places, in the order of the
places. The lists of two rules may be put together where one is done with before the other begins
(`Lists.append`), so there is one lemma for each part of a declaration, and the parts are put
together by their numbers (`Lists.appendPart`).
-/

namespace SchemaPlan

/-- Two places of one part are in the order of the numbers that they begin with in it. -/
theorem Site.lt_of_lt {part m n : Nat} {rest rest' : List Nat} (h : m < n) :
    part :: m :: rest < part :: n :: rest' := by
  simp [List.cons_lt_cons_iff, h]

namespace Table

/-- The problems are what `V` finds at some places, each once, in the order of the places. -/
def Lists (V : Site → TableProblem → Prop) (problems : List TableProblem) : Prop :=
  ∃ entries : List (Site × TableProblem), entries.map Prod.snd = problems ∧
    entries.Pairwise (fun a b => a.1.number < b.1.number) ∧
    ∀ site problem, (site, problem) ∈ entries ↔ V site problem

namespace Lists

variable {V W : Site → TableProblem → Prop} {problems problems' : List TableProblem}

theorem congr (h : Lists V problems) (hVW : ∀ s p, W s p ↔ V s p) : Lists W problems := by
  obtain ⟨entries, hproblems, hordered, hmem⟩ := h
  exact ⟨entries, hproblems, hordered, fun s p => (hmem s p).trans (hVW s p).symm⟩

theorem nil (h : ∀ s p, ¬V s p) : Lists V [] :=
  ⟨[], rfl, .nil, fun s p => iff_of_false List.not_mem_nil (h s p)⟩

theorem problemIf (site : Site) {condition : Bool} {problem : TableProblem} :
    Lists (fun s p => condition = true ∧ s = site ∧ p = problem)
      (Table.problemIf condition problem) := by
  cases condition with
  | false => exact nil fun _ _ h => Bool.false_ne_true h.1
  | true => exact ⟨[(site, problem)], rfl, List.pairwise_singleton _ _, by simp⟩

/-- Problems of places in front are listed before those of places behind. -/
theorem append (h : Lists V problems) (h' : Lists W problems')
    (hlt : ∀ s p s' p', V s p → W s' p' → s.number < s'.number) :
    Lists (fun s p => V s p ∨ W s p) (problems ++ problems') := by
  obtain ⟨entries, rfl, hordered, hmem⟩ := h
  obtain ⟨entries', rfl, hordered', hmem'⟩ := h'
  refine ⟨entries ++ entries', List.map_append, List.pairwise_append.2
    ⟨hordered, hordered', fun a ha b hb => ?_⟩, fun s p => ?_⟩
  · exact hlt _ _ _ _ ((hmem a.1 a.2).1 ha) ((hmem' b.1 b.2).1 hb)
  · rw [List.mem_append, hmem, hmem']

/-- The problems of the entries of a list, where those of an entry come before those of the next. -/
theorem flatMap {α : Type} {l : List α} {f : α → List TableProblem}
    {V : Nat → α → Site → TableProblem → Prop} (h : ∀ n a, Lists (V n a) (f a))
    (hlt : ∀ m n a b s p s' p', m < n → V m a s p → V n b s' p' → s.number < s'.number) :
    Lists (fun s p => ∃ n a, l[n]? = some a ∧ V n a s p) (l.flatMap f) := by
  induction l generalizing V with
  | nil => exact nil fun s p => by simp
  | cons a l ih =>
    have hrest := @ih (fun n => V (n + 1)) (fun n => h (n + 1)) fun m n b c s p s' p' hmn =>
      hlt _ _ b c s p s' p' (Nat.succ_lt_succ hmn)
    rw [List.flatMap_cons]
    refine ((h 0 a).append hrest ?_).congr fun s p => ?_
    · rintro s p s' p' ha ⟨n, b, -, hb⟩
      exact hlt 0 (n + 1) a b s p s' p' (Nat.succ_pos n) ha hb
    · constructor
      · rintro ⟨n, b, hb, hV⟩
        cases n with
        | zero =>
          obtain rfl := Option.some.inj hb
          exact .inl hV
        | succ n => exact .inr ⟨n, b, hb, hV⟩
      · rintro (hV | ⟨n, b, hb, hV⟩)
        · exact ⟨0, a, rfl, hV⟩
        · exact ⟨n + 1, b, hb, hV⟩

theorem map_undeclared {declared names : List String} {problem : String → TableProblem} :
    (Table.undeclared declared names).map problem =
      names.flatMap fun name => Table.problemIf (name ∉ declared) (problem name) := by
  rw [Table.undeclared]
  induction names with
  | nil => rfl
  | cons name names ih =>
    rw [List.flatMap_cons, ← ih, List.filter_cons, Table.problemIf]
    split <;> rfl

/-- Undeclared names of a list are listed at the places of the list. -/
theorem undeclared {declared names : List String} {problem : String → TableProblem}
    (site : Nat → Site) (hsite : ∀ m n, m < n → (site m).number < (site n).number) :
    Lists (fun s p => ∃ n name, names[n]? = some name ∧ name ∉ declared ∧
        s = site n ∧ p = problem name)
      ((Table.undeclared declared names).map problem) := by
  rw [map_undeclared]
  refine flatMap (V := fun n name s p => name ∉ declared ∧ s = site n ∧ p = problem name)
    (fun n name => (problemIf (site n)).congr fun s p => ?_) ?_
  · rw [decide_eq_true_eq]
  · rintro m n _ _ _ _ _ _ hmn ⟨-, rfl, -⟩ ⟨-, rfl, -⟩
    exact hsite m n hmn

theorem undeclared_option {declared : List String} (site : Site) {name? : Option String}
    {problem : String → TableProblem} :
    Lists (fun s p => ∃ name, name? = some name ∧ name ∉ declared ∧ s = site ∧ p = problem name)
      ((Table.undeclared declared name?.toList).map problem) := by
  cases name? with
  | none => exact nil fun s p => by simp
  | some name =>
    rw [Option.toList_some, map_undeclared, List.flatMap_singleton]
    exact (problemIf site).congr fun s p => by simp

/-- A repeated name is reported where it stands a second time and at each place after that. -/
theorem repeatsAfter {names seen : List String} {problem : String → TableProblem}
    (site : Nat → Site) (hsite : ∀ m n, m < n → (site m).number < (site n).number) :
    Lists (fun s p => ∃ n name, names[n]? = some name ∧ (name ∈ seen ∨ name ∈ names.take n) ∧
        s = site n ∧ p = problem name)
      ((SchemaPlan.repeatsAfter seen names).map problem) := by
  induction names generalizing seen site with
  | nil => exact nil fun s p => by simp
  | cons a names ih =>
    have hproblems : (SchemaPlan.repeatsAfter seen (a :: names)).map problem =
        Table.problemIf (a ∈ seen) (problem a) ++
          (SchemaPlan.repeatsAfter (if a ∈ seen then seen else a :: seen) names).map problem := by
      by_cases ha : a ∈ seen <;> simp [SchemaPlan.repeatsAfter, Table.problemIf, ha]
    have hseen : ∀ name,
        name ∈ (if a ∈ seen then seen else a :: seen) ↔ name = a ∨ name ∈ seen := by
      intro name
      split
      · rename_i ha
        exact ⟨.inr, fun h => h.elim (fun heq => heq ▸ ha) id⟩
      · exact List.mem_cons
    rw [hproblems]
    refine ((problemIf (site 0)).append (ih _ fun m n hmn =>
      hsite _ _ (Nat.succ_lt_succ hmn)) ?_).congr fun s p => ?_
    · rintro s p s' p' ⟨-, rfl, -⟩ ⟨n, _, -, -, rfl, -⟩
      exact hsite 0 (n + 1) (Nat.succ_pos n)
    · constructor
      · rintro ⟨n, name, hname, hrepeated, rfl, rfl⟩
        cases n with
        | zero =>
          obtain rfl := Option.some.inj hname
          exact .inl ⟨by simpa using hrepeated, rfl, rfl⟩
        | succ n =>
          refine .inr ⟨n, name, hname, ?_, rfl, rfl⟩
          rw [hseen]
          rw [List.take_succ_cons, List.mem_cons] at hrepeated
          tauto
      · rintro (⟨ha, rfl, rfl⟩ | ⟨n, name, hname, hrepeated, rfl, rfl⟩)
        · exact ⟨0, a, rfl, .inl (of_decide_eq_true ha), rfl, rfl⟩
        · refine ⟨n + 1, name, hname, ?_, rfl, rfl⟩
          rw [hseen] at hrepeated
          rw [List.take_succ_cons, List.mem_cons]
          tauto

/-- The problems of one part come after those of the parts before it. -/
theorem appendPart {k : Nat} (h : Lists (fun s p => V s p ∧ s.part < k) problems)
    (h' : Lists (fun s p => V s p ∧ s.part = k) problems') :
    Lists (fun s p => V s p ∧ s.part < k + 1) (problems ++ problems') := by
  refine (h.append h' ?_).congr fun s p => ?_
  · rintro s p s' p' ⟨-, hlt⟩ ⟨-, rfl⟩
    exact List.cons_lt_cons_iff.2 (.inl hlt)
  · rw [← and_or_left, Nat.lt_succ_iff_lt_or_eq]

end Lists

variable {t : Table}

/-! ## Parts -/

theorem lists_path : Lists (fun s p => t.Violates s p ∧ s.part = 0)
    (problemIf t.path.isEmpty .emptyPath) := by
  refine (Lists.problemIf .path).congr fun s p => ⟨?_, ?_⟩
  · rintro ⟨h, hpart⟩
    cases h with
    | emptyPath h => exact ⟨by simpa using h, rfl, rfl⟩
    | _ => cases hpart
  · rintro ⟨h, rfl, rfl⟩
    exact ⟨.emptyPath (by simpa using h), rfl⟩

theorem lists_columns : Lists (fun s p => t.Violates s p ∧ s.part = 1)
    (problemIf t.columns.isEmpty .noColumns) := by
  refine (Lists.problemIf .columns).congr fun s p => ⟨?_, ?_⟩
  · rintro ⟨h, hpart⟩
    cases h with
    | noColumns h => exact ⟨List.isEmpty_iff.2 h, rfl, rfl⟩
    | _ => cases hpart
  · rintro ⟨h, rfl, rfl⟩
    exact ⟨.noColumns (List.isEmpty_iff.1 h), rfl⟩

theorem lists_primaryKey : Lists (fun s p => t.Violates s p ∧ s.part = 2)
    (problemIf t.primaryKey.isEmpty .noPrimaryKey) := by
  refine (Lists.problemIf .primaryKey).congr fun s p => ⟨?_, ?_⟩
  · rintro ⟨h, hpart⟩
    cases h with
    | noPrimaryKey h => exact ⟨List.isEmpty_iff.2 h, rfl, rfl⟩
    | _ => cases hpart
  · rintro ⟨h, rfl, rfl⟩
    exact ⟨.noPrimaryKey (List.isEmpty_iff.1 h), rfl⟩

theorem lists_columnNames : Lists (fun s p => t.Violates s p ∧ s.part = 3)
    ((repeats t.columnNames).map .duplicateColumn) := by
  refine (Lists.repeatsAfter .columnName fun _ _ => Site.lt_of_lt).congr fun s p => ⟨?_, ?_⟩
  · rintro ⟨h, hpart⟩
    cases h with
    | duplicateColumn hname h => exact ⟨_, _, hname, .inr h, rfl, rfl⟩
    | _ => cases hpart
  · rintro ⟨n, name, hname, hrepeated, rfl, rfl⟩
    exact ⟨.duplicateColumn hname (hrepeated.resolve_left List.not_mem_nil), rfl⟩

theorem lists_families : Lists (fun s p => t.Violates s p ∧ s.part = 4) t.familyProblems := by
  have hcolumn : ∀ (n : Nat) (c : Column), Lists (fun s p => ∃ family, c.family = some family ∧
      family ∉ t.families.map Family.name ∧ s = .columnFamily n ∧
        p = .undeclaredFamily c.name family)
      ((undeclared (t.families.map Family.name) c.family.toList).map (.undeclaredFamily c.name)) :=
    fun n c => Lists.undeclared_option (.columnFamily n)
  refine (Lists.flatMap hcolumn fun m n _ _ s p s' p' hmn => ?_).congr fun s p => ⟨?_, ?_⟩
  · rintro ⟨_, -, -, rfl, -⟩ ⟨_, -, -, rfl, -⟩
    exact Site.lt_of_lt hmn
  · rintro ⟨h, hpart⟩
    cases h with
    | undeclaredFamily hc hfamily h => exact ⟨_, _, hc, _, hfamily, h, rfl, rfl⟩
    | _ => cases hpart
  · rintro ⟨n, c, hc, family, hfamily, h, rfl, rfl⟩
    exact ⟨.undeclaredFamily hc hfamily h, rfl⟩

theorem lists_keyColumns : Lists (fun s p => t.Violates s p ∧ s.part = 5)
    ((undeclared t.columnNames t.primaryKey).map .undeclaredKeyColumn) := by
  refine (Lists.undeclared .keyColumn fun _ _ => Site.lt_of_lt).congr fun s p => ⟨?_, ?_⟩
  · rintro ⟨h, hpart⟩
    cases h with
    | undeclaredKeyColumn hcolumn h => exact ⟨_, _, hcolumn, h, rfl, rfl⟩
    | _ => cases hpart
  · rintro ⟨n, column, hcolumn, h, rfl, rfl⟩
    exact ⟨.undeclaredKeyColumn hcolumn h, rfl⟩

theorem lists_indexes : Lists (fun s p => t.Violates s p ∧ s.part = 6)
    (t.indexes.flatMap t.indexProblems) := by
  have hindex : ∀ (n : Nat) (i : Index), Lists (fun s p =>
      (i.columns.isEmpty = true ∧ s = .indexColumns n ∧ p = .indexWithoutColumns i.name) ∨
        ∃ k column, (i.columns ++ i.cover)[k]? = some column ∧ column ∉ t.columnNames ∧
          s = .indexColumn n k ∧ p = .undeclaredIndexColumn i.name column)
      (t.indexProblems i) := by
    intro n i
    refine (Lists.problemIf (.indexColumns n)).append
      (Lists.undeclared (.indexColumn n) fun k l hkl => ?_) ?_
    · simpa [Site.number, Site.part, Site.position, List.cons_lt_cons_iff] using hkl
    · rintro s p s' p' ⟨-, rfl, -⟩ ⟨k, _, -, -, rfl, -⟩
      simp [Site.number, Site.part, Site.position]
  refine (Lists.flatMap hindex fun m n _ _ s p s' p' hmn => ?_).congr fun s p => ⟨?_, ?_⟩
  · rintro (⟨-, rfl, -⟩ | ⟨_, _, -, -, rfl, -⟩) (⟨-, rfl, -⟩ | ⟨_, _, -, -, rfl, -⟩)
    all_goals exact Site.lt_of_lt hmn
  · rintro ⟨h, hpart⟩
    cases h with
    | indexWithoutColumns hi h => exact ⟨_, _, hi, .inl ⟨List.isEmpty_iff.2 h, rfl, rfl⟩⟩
    | undeclaredIndexColumn hi hcolumn h => exact ⟨_, _, hi, .inr ⟨_, _, hcolumn, h, rfl, rfl⟩⟩
    | _ => cases hpart
  · rintro ⟨n, i, hi, ⟨h, rfl, rfl⟩ | ⟨k, column, hcolumn, h, rfl, rfl⟩⟩
    · exact ⟨.indexWithoutColumns hi (List.isEmpty_iff.1 h), rfl⟩
    · exact ⟨.undeclaredIndexColumn hi hcolumn h, rfl⟩

theorem lists_ttl : Lists (fun s p => t.Violates s p ∧ s.part = 7) t.ttlProblems := by
  rw [ttlProblems, ← Option.toList_map]
  refine (Lists.undeclared_option .ttl).congr fun s p => ⟨?_, ?_⟩
  · rintro ⟨h, hpart⟩
    cases h with
    | undeclaredTtlColumn httl h => exact ⟨_, by rw [httl]; rfl, h, rfl, rfl⟩
    | _ => cases hpart
  · rintro ⟨column, hcolumn, h, rfl, rfl⟩
    obtain ⟨ttl, httl, rfl⟩ := Option.map_eq_some_iff.1 hcolumn
    exact ⟨.undeclaredTtlColumn httl h, rfl⟩

/-- The problems of a table are its violations in the order of their places. -/
theorem lists_problems : Lists t.Violates t.problems := by
  have hnone : Lists (fun s p => t.Violates s p ∧ s.part < 0) [] :=
    Lists.nil fun s p h => Nat.not_lt_zero _ h.2
  refine ((((((((hnone.appendPart lists_path).appendPart lists_columns).appendPart
    lists_primaryKey).appendPart lists_columnNames).appendPart lists_families).appendPart
    lists_keyColumns).appendPart lists_indexes).appendPart lists_ttl).congr fun s p => ?_
  have hpart : s.part < 7 + 1 := by cases s <;> simp [Site.part]
  exact (and_iff_left hpart).symm

/-- A declaration is accepted exactly if it is well-formed. Otherwise there is one problem for every
place where something is wrong, and they are reported in the order of the places: a single one bare,
and two or more together. -/
theorem validate_reports (t : Table) : (t.validate = .ok () ↔ t.WellFormed) ∧
    ∃ entries, t.Reports entries ∧
      (∀ site problem, entries = [(site, problem)] →
        t.validate = .error (.rejected (.tableProblem t.path problem))) ∧
      (2 ≤ entries.length →
        t.validate = .error (.manyProblems t.path (entries.map Prod.snd))) := by
  obtain ⟨entries, hproblems, hordered, hmem⟩ := t.lists_problems
  refine ⟨validate_eq_ok_iff, entries, ⟨hordered, hmem⟩, ?_, fun hlength => ?_⟩
  · rintro site problem rfl
    rw [validate, ← hproblems]
    rfl
  · rw [validate, ← hproblems]
    exact Error.ofProblems_of_two_le (by rwa [List.length_map])

/-- An index without key columns. -/
def byScore : Index where
  name := "by_score"
  columns := []
  cover := ["score"]

/-- A table of scores with a column that is declared twice, a family and columns that are referred
to and not declared, and an index without key columns. -/
def scores : Table where
  path := "scores"
  columns := [⟨"id", "Uint64", none, false⟩, ⟨"id", "Uint64", some "cold", false⟩]
  primaryKey := ["id", "player"]
  indexes := [byScore]

/-- A table with a repeated column, a family and a key that are not declared, and two wrong indexes.
-/
theorem validate_reports_scores : ∃ entries, scores.Reports entries ∧
    scores.validate = .error (.manyProblems "scores" (entries.map Prod.snd)) ∧
    entries.map Prod.snd = [.duplicateColumn "id", .undeclaredFamily "id" "cold",
      .undeclaredKeyColumn "player", .indexWithoutColumns "by_score",
      .undeclaredIndexColumn "by_score" "score"] := by
  obtain ⟨-, entries, hreports, -, hmany⟩ := validate_reports scores
  have hrepeated : (Site.columnName 1, TableProblem.duplicateColumn "id") ∈ entries :=
    (hreports.complete _ _).2 (.duplicateColumn rfl (by decide))
  have hempty : (Site.indexColumns 0, TableProblem.indexWithoutColumns "by_score") ∈ entries :=
    (hreports.complete _ _).2 (.indexWithoutColumns (i := byScore) rfl rfl)
  have hlength : 2 ≤ entries.length := by
    match entries, hrepeated, hempty with
    | [_], hrepeated, hempty =>
      cases (List.mem_singleton.1 hrepeated).trans (List.mem_singleton.1 hempty).symm
    | _ :: _ :: _, _, _ => exact Nat.le_add_left 2 _
  have hvalidate := hmany hlength
  have hproblems : scores.validate = .error (.manyProblems "scores" [.duplicateColumn "id",
      .undeclaredFamily "id" "cold", .undeclaredKeyColumn "player",
      .indexWithoutColumns "by_score", .undeclaredIndexColumn "by_score" "score"]) := by decide
  refine ⟨entries, hreports, hvalidate, ?_⟩
  exact (Error.manyProblems.inj (Except.error.inj (hvalidate.symm.trans hproblems))).2

end Table

end SchemaPlan
