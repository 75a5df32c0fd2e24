import SchemaPlan.Operation.Effect
import SchemaPlan.Proofs.Named
import SchemaPlan.Proofs.Operation.ConsumerRun
import SchemaPlan.Proofs.Step
import SchemaPlan.Topic.Difference

/-!
# Changes that bring topics to their declarations

`consumerChanges_eq_ok_iff` takes the changes of consumers apart into one block for each declared
consumer, where no two are declared under one name. Once the block of a consumer has been made, the
consumer is as declared (`holdsIn_consumersAfter`), and for a consumer that is as declared nothing
is left but to set its codecs, if some are declared (`changesFor_of_holdsIn`). Settings that have
been overwritten where they differ hold (`settingsHold_overwriteSettings`), and settings that hold
do not differ (`topicDifference_of_settingsHold`).
-/

namespace SchemaPlan

variable {table : CodecTable}

/-! ## Codecs -/

@[simp] theorem CodecTable.lookupAll_nil : table.lookupAll [] = .ok [] :=
  rfl

/-- There are codecs exactly if there are names. -/
theorem CodecTable.isEmpty_of_lookupAll {names : List String} {codecs : List Codec}
    (h : table.lookupAll names = .ok codecs) : codecs.isEmpty = names.isEmpty := by
  cases mapM_eq_ok_iff.1 h with
  | nil => rfl
  | cons _ _ => rfl

/-! ## Consumers -/

section Consumers

variable {observed consumers : List Consumer} {c : DeclaredConsumer} {d : List DeclaredConsumer}

/-- The only consumer of a name is the last one of it. -/
theorem lastNamed?_of_consumersNamed {name : String} {o : Consumer}
    (h : consumersNamed name consumers = [o]) :
    lastNamed? Consumer.name name consumers = some o := by
  rw [lastNamed?, ← List.head?_filter, List.filter_reverse, ← consumersNamed, h]
  rfl

/-- With distinct names the consumers of a name are the one that counts for it. -/
theorem consumersNamed_of_lastNamed? (hnames : (consumers.map Consumer.name).Nodup) {name : String}
    {o : Consumer} (h : lastNamed? Consumer.name name consumers = some o) :
    consumersNamed name consumers = [o] := by
  obtain ⟨hmem, rfl⟩ := (lastNamed?_eq_some_iff hnames).1 h
  refine List.perm_singleton.1 ((List.perm_ext_iff_of_nodup ?_ (List.nodup_singleton o)).2 ?_)
  · exact (List.Nodup.of_map _ hnames).filter _
  · intro a
    rw [consumersNamed, List.mem_filter, List.mem_singleton, decide_eq_true_eq]
    refine ⟨fun ha => List.inj_on_of_nodup_map hnames ha.1 hmem ha.2, ?_⟩
    rintro rfl
    exact ⟨hmem, rfl⟩

theorem consumersNamed_of_lastNamed?_eq_none {name : String}
    (h : lastNamed? Consumer.name name consumers = none) : consumersNamed name consumers = [] := by
  rw [consumersNamed, List.filter_eq_nil_iff]
  rw [lastNamed?, List.find?_eq_none] at h
  exact fun o ho => h o (List.mem_reverse.2 ho)

theorem mem_of_consumersNamed {name : String} {o : Consumer}
    (h : consumersNamed name consumers = [o]) : o ∈ consumers ∧ o.name = name := by
  have hmem : o ∈ consumersNamed name consumers := h ▸ List.mem_singleton_self o
  rw [consumersNamed, List.mem_filter, decide_eq_true_eq] at hmem
  exact hmem

/-! ### Blocks of changes -/

/-- The changes are those for each declared consumer, in order, if their names are new and distinct.
-/
theorem consumerChangesAfter_eq_ok_iff {seen : List String} {changes : List ConsumerChange} :
    consumerChangesAfter table observed seen d = .ok changes ↔
      (d.map DeclaredConsumer.name).Nodup ∧ (∀ c ∈ d, c.name ∉ seen) ∧
        ∃ blocks, List.Forall₂ (fun c block => changesFor table observed c = .ok block) d blocks ∧
          changes = blocks.flatten := by
  induction d generalizing seen changes with
  | nil => simp [consumerChangesAfter, eq_comm]
  | cons c d ih =>
    rw [consumerChangesAfter]
    split
    · rename_i hseen
      simp [hseen]
    · rename_i hseen
      simp only [bind_eq_ok_iff, pure_eq_ok_iff, ih, List.map_cons, List.nodup_cons,
        List.mem_cons, forall_eq_or_imp, not_or, List.mem_map, not_exists, not_and,
        List.forall₂_cons_left_iff]
      constructor
      · rintro ⟨block, hblock, rest, ⟨hnodup, hnew, blocks, hblocks, rfl⟩, rfl⟩
        exact ⟨⟨fun e he => (hnew e he).1, hnodup⟩, ⟨hseen, fun e he => (hnew e he).2⟩,
          _, ⟨block, blocks, hblock, hblocks, rfl⟩, rfl⟩
      · rintro ⟨⟨hne, hnodup⟩, ⟨-, hnew⟩, _, ⟨block, blocks, hblock, hblocks, rfl⟩, rfl⟩
        exact ⟨block, hblock, _, ⟨hnodup, fun e he => ⟨hne e he, hnew e he⟩, blocks, hblocks, rfl⟩,
          rfl⟩

/-- What the changes of each consumer do not depend on, those of all consumers do not either. -/
theorem consumerChangesAfter_congr {seen : List String} {observed' : List Consumer}
    (h : ∀ c ∈ d, changesFor table observed c = changesFor table observed' c) :
    consumerChangesAfter table observed seen d = consumerChangesAfter table observed' seen d := by
  induction d generalizing seen with
  | nil => rfl
  | cons c d ih =>
    obtain ⟨hc, hd⟩ := List.forall_mem_cons.1 h
    simp only [consumerChangesAfter, hc, ih hd]

/-- The changes of consumers are one block for each declared consumer. -/
theorem consumerChanges_eq_ok_iff {changes : List ConsumerChange} :
    consumerChanges table d observed = .ok changes ↔
      (d.map DeclaredConsumer.name).Nodup ∧
        ∃ blocks, List.Forall₂ (fun c block => changesFor table observed c = .ok block) d blocks ∧
          changes = blocks.flatten := by
  simp [consumerChanges, consumerChangesAfter_eq_ok_iff]

/-! ### One block -/

/-- A consumer that is there gets a read position that differs, and its codecs if it has any. -/
theorem changesOf_eq_ok_iff {o : Consumer} {block : List ConsumerChange} :
    changesOf table c o = .ok block ↔ ∃ codecs, table.lookupAll c.codecs = .ok codecs ∧
      block = (if c.effectiveReadFrom = o.readFrom then []
          else [.setReadFrom c.name c.effectiveReadFrom])
        ++ (if codecs.isEmpty then [] else [.setCodecs c.name codecs]) := by
  simp only [changesOf, bind_eq_ok_iff, pure_eq_ok_iff]
  exact exists_congr fun _ => and_congr_right fun _ => eq_comm

/-- A consumer is created with its codecs, or with all of them if it gives none. -/
theorem resolve_eq_ok_iff {consumer : Consumer} : c.resolve table = .ok consumer ↔
    ∃ codecs, table.lookupOrAll c.codecs = .ok codecs ∧
      consumer = ⟨c.name, codecs, c.effectiveReadFrom⟩ := by
  simp only [DeclaredConsumer.resolve, bind_eq_ok_iff, pure_eq_ok_iff]
  exact exists_congr fun _ => and_congr_right fun _ => eq_comm

/-- A block for a consumer that is not observed adds it. -/
theorem changesFor_of_lastNamed?_eq_none {block : List ConsumerChange}
    (hnone : lastNamed? Consumer.name c.name observed = none)
    (h : changesFor table observed c = .ok block) :
    ∃ codecs, table.lookupOrAll c.codecs = .ok codecs ∧
      block = [.add ⟨c.name, codecs, c.effectiveReadFrom⟩] := by
  simp only [changesFor, hnone, map_eq_ok_iff, resolve_eq_ok_iff] at h
  obtain ⟨_, ⟨codecs, hcodecs, rfl⟩, rfl⟩ := h
  exact ⟨codecs, hcodecs, rfl⟩

/-- Every change of a block is about the declared consumer. -/
theorem consumer_of_mem_changesFor {block : List ConsumerChange}
    (h : changesFor table observed c = .ok block) :
    ∀ change ∈ block, change.consumer = c.name := by
  cases hlast : lastNamed? Consumer.name c.name observed with
  | none =>
    obtain ⟨codecs, -, rfl⟩ := changesFor_of_lastNamed?_eq_none hlast h
    exact List.forall_mem_singleton.2 rfl
  | some o =>
    simp only [changesFor, hlast, changesOf_eq_ok_iff] at h
    obtain ⟨codecs, -, rfl⟩ := h
    intro change hchange
    rcases List.mem_append.1 hchange with hchange | hchange
    · split at hchange
      · exact absurd hchange List.not_mem_nil
      · rw [List.mem_singleton.1 hchange]
        rfl
    · split at hchange
      · exact absurd hchange List.not_mem_nil
      · rw [List.mem_singleton.1 hchange]
        rfl

/-- The read position of the only consumer of a name is set, where it differs. -/
theorem setReadFrom_of_consumersNamed {name : String} {o : Consumer}
    (h : consumersNamed name consumers = [o]) (position : Timestamp) :
    let block := if position = o.readFrom then [] else [.setReadFrom name position]
    ExecutesOn consumers block ∧
      consumersNamed name (consumersAfter consumers block) = [{ o with readFrom := position }] := by
  split
  · rename_i hsame
    exact ⟨trivial, by rw [consumersAfter_nil, h, hsame]⟩
  · refine ⟨⟨mem_names_iff_consumersNamed_ne_nil.2 (h ▸ List.cons_ne_nil _ _), trivial⟩, ?_⟩
    rw [consumersAfter_cons, consumersAfter_nil, ConsumerChange.onConsumers,
      consumersNamed_changeNamed (fun c => { c with readFrom := position }) fun _ => rfl, h,
      List.map_singleton]

/-- The codecs of the only consumer of a name are set, where there are any. -/
theorem setCodecs_of_consumersNamed {name : String} {o : Consumer}
    (h : consumersNamed name consumers = [o]) (codecs : List Codec) :
    let block := if codecs.isEmpty then [] else [.setCodecs name codecs]
    ExecutesOn consumers block ∧ consumersNamed name (consumersAfter consumers block) =
      [if codecs.isEmpty then o else { o with codecs := codecs }] := by
  split
  · exact ⟨trivial, h⟩
  · refine ⟨⟨mem_names_iff_consumersNamed_ne_nil.2 (h ▸ List.cons_ne_nil _ _), trivial⟩, ?_⟩
    rw [consumersAfter_cons, consumersAfter_nil, ConsumerChange.onConsumers,
      consumersNamed_changeNamed (fun c => { c with codecs := codecs }) fun _ => rfl, h,
      List.map_singleton]

/-- The block of a consumer can be made, and once it has been made the consumer is as declared. -/
theorem holdsIn_consumersAfter {block : List ConsumerChange}
    (hnames : (observed.map Consumer.name).Nodup)
    (hthere : consumersNamed c.name consumers = consumersNamed c.name observed)
    (h : changesFor table observed c = .ok block) :
    ExecutesOn consumers block ∧ c.HoldsIn table (consumersAfter consumers block) := by
  cases hlast : lastNamed? Consumer.name c.name observed with
  | none =>
    obtain ⟨codecs, hcodecs, rfl⟩ := changesFor_of_lastNamed?_eq_none hlast h
    rw [consumersNamed_of_lastNamed?_eq_none hlast] at hthere
    refine ⟨⟨?_, trivial⟩, ⟨c.name, codecs, c.effectiveReadFrom⟩, ?_, rfl, fun hne => ?_⟩
    · rw [ConsumerChange.Executable, mem_names_iff_consumersNamed_ne_nil, not_not]
      exact hthere
    · rw [consumersAfter_cons, consumersAfter_nil, ConsumerChange.onConsumers,
        consumersNamed_append, hthere]
      simp [consumersNamed]
    · rwa [CodecTable.lookupOrAll, if_neg (by simpa using hne)] at hcodecs
  | some o =>
    simp only [changesFor, hlast, changesOf_eq_ok_iff] at h
    obtain ⟨codecs, hcodecs, rfl⟩ := h
    rw [consumersNamed_of_lastNamed? hnames hlast] at hthere
    have hempty := CodecTable.isEmpty_of_lookupAll hcodecs
    -- each of the two changes is left out where it would change nothing or nothing is declared
    obtain ⟨hposition, hread⟩ := setReadFrom_of_consumersNamed hthere c.effectiveReadFrom
    obtain ⟨hset, hboth⟩ := setCodecs_of_consumersNamed hread codecs
    refine ⟨executesOn_append.2 ⟨hposition, hset⟩, _, consumersAfter_append _ _ ▸ hboth, ?_, ?_⟩
    · split
      · rfl
      · rfl
    · intro hne
      rw [if_neg (by simpa [hempty] using hne)]
      exact hcodecs

/-! ### All blocks -/

/-- A consumer that is as declared stays so in a run that does not change it. -/
theorem DeclaredConsumer.HoldsIn.consumersAfter {changes : List ConsumerChange}
    (h : c.HoldsIn table consumers) (hother : ∀ change ∈ changes, change.consumer ≠ c.name) :
    c.HoldsIn table (consumersAfter consumers changes) := by
  obtain ⟨o, ho, hrest⟩ := h
  exact ⟨o, (consumersNamed_consumersAfter hother).trans ho, hrest⟩

/-- The changes of a block of a list are about declared consumers. -/
theorem consumer_of_mem_flatten {blocks : List (List ConsumerChange)}
    (h : List.Forall₂ (fun c block => changesFor table observed c = .ok block) d blocks) :
    ∀ change ∈ blocks.flatten, change.consumer ∈ d.map DeclaredConsumer.name := by
  induction h with
  | nil => simp
  | cons hblock _ ih =>
    intro change hchange
    rw [List.map_cons, List.mem_cons]
    rcases List.mem_append.1 hchange with hchange | hchange
    · exact .inl (consumer_of_mem_changesFor hblock change hchange)
    · exact .inr (ih change hchange)

/-- The blocks of all declared consumers can be made one after the other, and once they have been
made every declared consumer is as declared. The blocks are led from a state in which the declared
consumers that are still to come are as observed. -/
theorem holdsIn_consumersAfter_flatten {blocks : List (List ConsumerChange)}
    (hnames : (observed.map Consumer.name).Nodup) (hd : (d.map DeclaredConsumer.name).Nodup)
    (h : List.Forall₂ (fun c block => changesFor table observed c = .ok block) d blocks)
    (hthere : ∀ c ∈ d, consumersNamed c.name consumers = consumersNamed c.name observed) :
    ExecutesOn consumers blocks.flatten ∧
      ∀ c ∈ d, c.HoldsIn table (consumersAfter consumers blocks.flatten) := by
  induction h generalizing consumers with
  | nil => exact ⟨trivial, by simp⟩
  | @cons c block d blocks hblock hblocks ih =>
    rw [List.map_cons, List.nodup_cons] at hd
    obtain ⟨hc, hthere⟩ := List.forall_mem_cons.1 hthere
    obtain ⟨hexecutes, hholds⟩ := holdsIn_consumersAfter hnames hc hblock
    have hother : ∀ e ∈ d, c.name ≠ e.name := fun e he heq =>
      hd.1 (heq ▸ List.mem_map_of_mem he)
    -- the first block has left the consumers of the other names as observed
    obtain ⟨hexecutes', hholds'⟩ := @ih (consumersAfter consumers block) hd.2 fun e he => by
      rw [consumersNamed_consumersAfter fun change hchange =>
        consumer_of_mem_changesFor hblock change hchange ▸ hother e he]
      exact hthere e he
    rw [List.flatten_cons, executesOn_append, consumersAfter_append]
    refine ⟨⟨hexecutes, hexecutes'⟩, List.forall_mem_cons.2 ⟨?_, hholds'⟩⟩
    refine hholds.consumersAfter fun change hchange heq => hd.1 ?_
    exact heq ▸ consumer_of_mem_flatten hblocks change hchange

/-- For a consumer that is as declared there is nothing to do but to set its codecs to what they
are, if some are declared. -/
theorem changesFor_of_holdsIn (h : c.HoldsIn table consumers) :
    ∃ o ∈ consumers, o.name = c.name ∧ changesFor table consumers c =
      .ok (if c.codecs.isEmpty then [] else [.setCodecs c.name o.codecs]) := by
  obtain ⟨o, ho, hposition, hcodecs⟩ := h
  obtain ⟨hmem, hname⟩ := mem_of_consumersNamed ho
  refine ⟨o, hmem, hname, ?_⟩
  simp only [changesFor, lastNamed?_of_consumersNamed ho, changesOf_eq_ok_iff]
  simp only [if_pos hposition.symm, List.nil_append]
  cases hlisted : c.codecs with
  | nil => exact ⟨[], rfl, rfl⟩
  | cons name names =>
    rw [hlisted] at hcodecs
    have hlookup := hcodecs (List.cons_ne_nil _ _)
    exact ⟨o.codecs, hlookup, by rw [CodecTable.isEmpty_of_lookupAll hlookup]⟩

/-- Where all consumers are as declared, the changes that are left set codecs to what they are, one
for each consumer that codecs are declared for. -/
theorem consumerChanges_of_holdsIn (hd : (d.map DeclaredConsumer.name).Nodup)
    (h : ∀ c ∈ d, c.HoldsIn table consumers) :
    ∃ changes, consumerChanges table d consumers = .ok changes ∧
      List.Forall₂ (fun c change => ∃ o ∈ consumers, o.name = c.name ∧
        change = .setCodecs c.name o.codecs) (d.filter fun c => !c.codecs.isEmpty) changes := by
  simp only [consumerChanges_eq_ok_iff, hd, true_and]
  suffices hblocks : ∃ blocks,
      List.Forall₂ (fun c block => changesFor table consumers c = .ok block) d blocks ∧
        List.Forall₂ (fun c change => ∃ o ∈ consumers, o.name = c.name ∧
          change = .setCodecs c.name o.codecs) (d.filter fun c => !c.codecs.isEmpty)
          blocks.flatten by
    obtain ⟨blocks, hblocks, hchanges⟩ := hblocks
    exact ⟨_, ⟨blocks, hblocks, rfl⟩, hchanges⟩
  clear hd
  induction d with
  | nil => exact ⟨[], .nil, .nil⟩
  | cons c d ih =>
    obtain ⟨hc, h⟩ := List.forall_mem_cons.1 h
    obtain ⟨blocks, hblocks, hchanges⟩ := ih h
    obtain ⟨o, ho, hname, hblock⟩ := changesFor_of_holdsIn hc
    refine ⟨_, .cons hblock hblocks, ?_⟩
    rw [List.filter_cons, List.flatten_cons]
    cases c.codecs.isEmpty with
    | true => exact hchanges
    | false => exact .cons ⟨o, ho, hname, rfl⟩ hchanges

end Consumers

/-! ## Settings -/

section Settings

variable {d : DeclaredTopic} {t : Topic} {settings : TopicSettings}

/-- The settings to set are those that are declared and differ. -/
theorem topicDifference_eq_ok_iff : topicDifference table d t = .ok settings ↔
    ∃ codecs, table.lookupAll d.codecs = .ok codecs ∧ settings = {
      partitions := d.partitions.filter fun n => t.partitions ≠ some n
      retention := d.retention.filter fun s => t.retention ≠ some s
      codecs := if sameElements codecs t.codecs then [] else codecs } := by
  simp only [topicDifference, bind_eq_ok_iff, pure_eq_ok_iff]
  exact exists_congr fun _ => and_congr_right fun _ => eq_comm

theorem Topic.overwriteSettings_of_isEmpty (h : settings.isEmpty = true) :
    t.overwriteSettings settings = t := by
  simp only [TopicSettings.isEmpty, Bool.and_eq_true, Option.isNone_iff_eq_none] at h
  obtain ⟨⟨h1, h2⟩, h3⟩ := h
  simp [overwriteSettings, orKeep, h1, h2, h3]

/-- A declared value holds once it has been overwritten where it differed. -/
theorem orKeep_filter_ne {α : Type} [DecidableEq α] {declared old : Option α} {a : α}
    (h : declared = some a) : orKeep (declared.filter fun b => old ≠ some b) old = some a := by
  subst h
  by_cases hold : old = some a
  · simp [orKeep, hold, Option.filter_some]
  · simp [orKeep, hold]

/-- Settings that have been overwritten where they differ hold. -/
theorem settingsHold_overwriteSettings (h : topicDifference table d t = .ok settings) :
    d.SettingsHold table (t.overwriteSettings settings) := by
  obtain ⟨codecs, hcodecs, rfl⟩ := topicDifference_eq_ok_iff.1 h
  refine ⟨fun n hn => orKeep_filter_ne hn, fun period hperiod => orKeep_filter_ne hperiod,
    fun hne => ⟨codecs, hcodecs, ?_⟩⟩
  have hsome : codecs.isEmpty = false := by
    rw [CodecTable.isEmpty_of_lookupAll hcodecs]
    simpa using hne
  by_cases hsame : sameElements codecs t.codecs = true
  · simpa [Topic.overwriteSettings, hsame, eq_comm] using fun c => (sameElements_iff.1 hsame c).symm
  · simp [Topic.overwriteSettings, hsame, hsome]

/-- Settings that hold do not differ. -/
theorem topicDifference_of_settingsHold (h : d.SettingsHold table t) :
    topicDifference table d t = .ok {} := by
  obtain ⟨hpartitions, hretention, hcodecs⟩ := h
  have hsame : ∃ codecs, table.lookupAll d.codecs = .ok codecs ∧
      (if sameElements codecs t.codecs then [] else codecs) = [] := by
    by_cases hnone : d.codecs = []
    · exact ⟨[], by rw [hnone, CodecTable.lookupAll_nil], by simp⟩
    · obtain ⟨codecs, hlookup, hmem⟩ := hcodecs hnone
      exact ⟨codecs, hlookup, if_pos (sameElements_iff.2 fun c => (hmem c).symm)⟩
  obtain ⟨codecs, hlookup, hsame⟩ := hsame
  rw [topicDifference_eq_ok_iff]
  refine ⟨codecs, hlookup, TopicSettings.mk.injEq .. ▸ ⟨?_, ?_, hsame.symm⟩⟩
  · cases hn : d.partitions with
    | none => rfl
    | some n => simp [hpartitions n hn, Option.filter_some]
  · cases hperiod : d.retention with
    | none => rfl
    | some period => simp [hretention period hperiod, Option.filter_some]

end Settings

end SchemaPlan
