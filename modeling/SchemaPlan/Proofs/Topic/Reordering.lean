import SchemaPlan.Proofs.Topic.Difference

/-!
# The order of declared consumers

No two consumers are declared under one name, so each declared consumer has its block of changes,
which is told from the consumer and from what is observed alone. Declaring the consumers in another
order moves the blocks and leaves the changes of every name as they are
(`changesNamed_consumerChanges_perm`), and what a run makes of the consumers of a name depends on
these changes alone. `consumerChanges_reordered` : the outcome is the same, and the changes are the
blocks in the order of the declarations. `changedBy_of_changesFor` says what one block holds.
-/

namespace SchemaPlan

variable {table : CodecTable} {observed : List Consumer} {c : DeclaredConsumer}
  {d d' : List DeclaredConsumer} {block changes changes' : List ConsumerChange}
  {blocks : List (List ConsumerChange)} {name : String}

/-! ## One block -/

theorem not_mem_names_of_lastNamed? (h : lastNamed? Consumer.name name observed = none) :
    name ∉ observed.map Consumer.name := by
  rw [mem_names_iff_consumersNamed_ne_nil, not_not]
  exact consumersNamed_of_lastNamed?_eq_none h

/-- A block adds the consumer, or sets its position where it differs and then its codecs where some
are declared. -/
theorem changedBy_of_changesFor (h : changesFor table observed c = .ok block) :
    c.ChangedBy table observed block := by
  cases hlast : lastNamed? Consumer.name c.name observed with
  | none =>
    obtain ⟨codecs, hcodecs, rfl⟩ := changesFor_of_lastNamed?_eq_none hlast h
    exact .added (not_mem_names_of_lastNamed? hlast) hcodecs
  | some o =>
    simp only [changesFor, hlast, changesOf_eq_ok_iff] at h
    obtain ⟨codecs, hcodecs, rfl⟩ := h
    have hposition : ∀ t, t ∈ (if c.effectiveReadFrom = o.readFrom then none
        else some c.effectiveReadFrom) ↔ t = c.effectiveReadFrom ∧ t ≠ o.readFrom := by
      intro t
      split
      · rename_i hsame
        simp [← hsame]
      · rename_i hother
        rw [Option.mem_some_iff, eq_comm]
        exact ⟨fun ht => ⟨ht, ht ▸ hother⟩, And.left⟩
    have hset : ∀ list, list ∈ (if codecs.isEmpty then none else some codecs) ↔
        c.codecs ≠ [] ∧ table.lookupAll c.codecs = .ok list := by
      intro list
      rw [CodecTable.isEmpty_of_lookupAll hcodecs, hcodecs, Except.ok.injEq]
      cases c.codecs with
      | nil => simp
      | cons => simp
    have hchanged := DeclaredConsumer.ChangedBy.changed (mem_of_lastNamed? hlast)
      (name_of_lastNamed? hlast) hposition hset
    rwa [apply_ite Option.toList, apply_ite Option.toList, apply_ite (List.map _),
      apply_ite (List.map _)] at hchanged

/-! ## The changes of one name -/

/-- The changes of a declared consumer are its block. -/
theorem changesNamed_flatten (hd : (d.map DeclaredConsumer.name).Nodup)
    (h : List.Forall₂ (fun c block => changesFor table observed c = .ok block) d blocks)
    (hc : c ∈ d) (hblock : changesFor table observed c = .ok block) :
    changesNamed c.name blocks.flatten = block := by
  induction h with
  | nil => exact absurd hc List.not_mem_nil
  | @cons e first d blocks hfirst hrest ih =>
    rw [List.map_cons, List.nodup_cons] at hd
    rw [List.flatten_cons, changesNamed_append]
    have habout := consumer_of_mem_changesFor hfirst
    rcases List.mem_cons.1 hc with rfl | hc
    · obtain rfl : block = first := Except.ok.inj (hblock.symm.trans hfirst)
      -- the blocks that follow are about other names
      have hnone : changesNamed c.name blocks.flatten = [] :=
        changesNamed_eq_nil fun change hchange heq =>
          hd.1 (heq ▸ consumer_of_mem_flatten hrest change hchange)
      rw [changesNamed_eq_self habout, hnone, List.append_nil]
    · have hnone : changesNamed c.name first = [] :=
        changesNamed_eq_nil fun change hchange heq =>
          hd.1 (habout change hchange ▸ heq ▸ List.mem_map_of_mem hc)
      rw [hnone, List.nil_append]
      exact ih hd.2 hc

/-- A name that is not declared has no changes. -/
theorem changesNamed_flatten_of_not_mem
    (h : List.Forall₂ (fun c block => changesFor table observed c = .ok block) d blocks)
    (hname : name ∉ d.map DeclaredConsumer.name) : changesNamed name blocks.flatten = [] :=
  changesNamed_eq_nil fun change hchange heq =>
    hname (heq ▸ consumer_of_mem_flatten h change hchange)

/-- Every declared consumer has the changes that it asks for. -/
theorem changesFor_eq_changesNamed (h : consumerChanges table d observed = .ok changes)
    (hc : c ∈ d) : changesFor table observed c = .ok (changesNamed c.name changes) := by
  obtain ⟨hd, blocks, hblocks, rfl⟩ := consumerChanges_eq_ok_iff.1 h
  obtain ⟨block, -, hblock⟩ := exists_mem_of_mapM (mapM_eq_ok_iff.2 hblocks) hc
  rw [changesNamed_flatten hd hblocks hc hblock, hblock]

/-- The changes of each declared consumer stand together, in the order of the declarations. -/
theorem eq_flatMap_changesNamed (h : consumerChanges table d observed = .ok changes) :
    changes = d.flatMap fun c => changesNamed c.name changes := by
  have hnamed := fun c hc => @changesFor_eq_changesNamed table observed c d changes h hc
  obtain ⟨-, blocks, hblocks, heq⟩ := consumerChanges_eq_ok_iff.1 h
  have hmap : List.Forall₂ (fun c block => changesFor table observed c = .ok block) d
      (d.map fun c => changesNamed c.name changes) :=
    List.forall₂_map_right_iff.2 (List.forall₂_same.2 hnamed)
  -- both lists of blocks are what one traversal gives
  have hsame := (mapM_eq_ok_iff.2 hblocks).symm.trans (mapM_eq_ok_iff.2 hmap)
  rw [List.flatMap, ← Except.ok.inj hsame]
  exact heq

/-! ## Another order -/

/-- Whether the changes can be told does not depend on the order of the declarations. -/
theorem exists_consumerChanges_perm (h : d.Perm d')
    (hok : ∃ changes, consumerChanges table d observed = .ok changes) :
    ∃ changes, consumerChanges table d' observed = .ok changes := by
  obtain ⟨changes, hchanges⟩ := hok
  obtain ⟨hd, -⟩ := consumerChanges_eq_ok_iff.1 hchanges
  obtain ⟨blocks, hblocks⟩ := exists_mapM_eq_ok fun c hc =>
    ⟨_, changesFor_eq_changesNamed hchanges (h.mem_iff.2 hc)⟩
  exact ⟨blocks.flatten, consumerChanges_eq_ok_iff.2 ⟨(h.map _).nodup_iff.1 hd, blocks,
    mapM_eq_ok_iff.1 hblocks, rfl⟩⟩

/-- The changes of a name do not depend on the order of the declarations. -/
theorem changesNamed_consumerChanges_perm (h : d.Perm d')
    (hchanges : consumerChanges table d observed = .ok changes)
    (hchanges' : consumerChanges table d' observed = .ok changes') (name : String) :
    changesNamed name changes = changesNamed name changes' := by
  by_cases hname : name ∈ d.map DeclaredConsumer.name
  · obtain ⟨c, hc, rfl⟩ := List.mem_map.1 hname
    have hblock := changesFor_eq_changesNamed hchanges hc
    rw [changesFor_eq_changesNamed hchanges' (h.mem_iff.1 hc)] at hblock
    exact (Except.ok.inj hblock).symm
  · have hname' : name ∉ d'.map DeclaredConsumer.name := mt (h.map _).mem_iff.2 hname
    obtain ⟨-, blocks, hblocks, rfl⟩ := consumerChanges_eq_ok_iff.1 hchanges
    obtain ⟨-, blocks', hblocks', rfl⟩ := consumerChanges_eq_ok_iff.1 hchanges'
    rw [changesNamed_flatten_of_not_mem hblocks hname,
      changesNamed_flatten_of_not_mem hblocks' hname']

/-- Changes that can be told keep the names of consumers distinct. -/
theorem nodup_consumersAfter_consumerChanges (hnames : (observed.map Consumer.name).Nodup)
    (h : consumerChanges table d observed = .ok changes) :
    ((consumersAfter observed changes).map Consumer.name).Nodup := by
  obtain ⟨hd, blocks, hblocks, rfl⟩ := consumerChanges_eq_ok_iff.1 h
  obtain ⟨hexecutes, -⟩ := holdsIn_consumersAfter_flatten hnames hd hblocks fun _ _ => rfl
  exact nodup_consumersAfter hexecutes hnames

/-- The order of the declarations makes no difference to the outcome. Declared in another order, the
consumers are refused or accepted as before, and then the changes leave the same consumer, or none,
under every name. The changes themselves follow the order of the declarations, with all changes of
one consumer next to each other : a consumer that is not observed is added, and one that is observed
is moved to its declared position only from another, and then given its declared codecs. -/
theorem consumerChanges_reordered (table : CodecTable) (observed : List Consumer)
    (hnames : (observed.map Consumer.name).Nodup) :
    (∀ declared declared' : List DeclaredConsumer, declared.Perm declared' →
      Alike (fun changes changes' =>
          ((consumersAfter observed changes).map Consumer.name).Nodup ∧
          ((consumersAfter observed changes').map Consumer.name).Nodup ∧
          ∀ name, consumersNamed name (consumersAfter observed changes) =
            consumersNamed name (consumersAfter observed changes'))
        (fun _ _ => True) (consumerChanges table declared observed)
        (consumerChanges table declared' observed)) ∧
    ∀ (declared : List DeclaredConsumer) (changes : List ConsumerChange),
      consumerChanges table declared observed = .ok changes →
        (declared.map DeclaredConsumer.name).Nodup ∧
        changes = declared.flatMap (fun c => changesNamed c.name changes) ∧
        ∀ c ∈ declared, c.ChangedBy table observed (changesNamed c.name changes) := by
  constructor
  · intro declared declared' hperm
    refine .of_ok_iff ⟨exists_consumerChanges_perm hperm, exists_consumerChanges_perm hperm.symm⟩ ?_
    intro changes changes' hchanges hchanges'
    refine ⟨nodup_consumersAfter_consumerChanges hnames hchanges,
      nodup_consumersAfter_consumerChanges hnames hchanges', fun name => ?_⟩
    rw [consumersNamed_consumersAfter_eq, consumersNamed_consumersAfter_eq,
      changesNamed_consumerChanges_perm hperm hchanges hchanges']
  · intro declared changes hchanges
    exact ⟨(consumerChanges_eq_ok_iff.1 hchanges).1, eq_flatMap_changesNamed hchanges,
      fun c hc => changedBy_of_changesFor (changesFor_eq_changesNamed hchanges hc)⟩

/-- A position between two seconds. -/
def pastHour : Timestamp :=
  ⟨3600, 125000000, by decide, by decide⟩

/-- A consumer that is not declared, and one that reads from the start. -/
def readers : List Consumer :=
  [⟨"audit", [.zstd], .epoch⟩, ⟨"mail", [.raw], .epoch⟩]

/-- Two consumers to add around one to change. -/
def declaredReaders : List DeclaredConsumer :=
  [{ name := "search" },
    { name := "mail", codecs := ["gzip"], readFrom := some pastHour },
    { name := "trail", codecs := [" RAW "] }]

/-- Declared in the reverse order, the two consumers are added in the reverse order too, and under
every name there is the same. -/
theorem consumerChanges_reordered_readers :
    (readers.map Consumer.name).Nodup ∧ declaredReaders.Perm declaredReaders.reverse ∧
    ∃ changes changes',
      consumerChanges .standard declaredReaders readers = .ok changes ∧
      consumerChanges .standard declaredReaders.reverse readers = .ok changes' ∧
      consumersAfter readers changes ≠ consumersAfter readers changes' ∧
      (∀ name, consumersNamed name (consumersAfter readers changes) =
        consumersNamed name (consumersAfter readers changes')) ∧
      changes = declaredReaders.flatMap fun c => changesNamed c.name changes := by
  have hnames : (readers.map Consumer.name).Nodup := by decide
  have hperm : declaredReaders.Perm declaredReaders.reverse := (List.reverse_perm _).symm
  obtain ⟨hreordered, horder⟩ := consumerChanges_reordered .standard readers hnames
  have hchanges : ∃ changes, consumerChanges .standard declaredReaders readers = .ok changes :=
    ⟨_, rfl⟩
  obtain ⟨changes, hchanges⟩ := hchanges
  obtain ⟨changes', hchanges', -, -, hsame⟩ :=
    (hreordered _ _ hperm).exists_of_ok hchanges
  refine ⟨hnames, hperm, changes, changes', hchanges, hchanges', ?_, hsame,
    (horder _ _ hchanges).2.1⟩
  cases hchanges
  cases hchanges'
  decide

end SchemaPlan
