import SchemaPlan.Proofs.Topic.Difference

/-!
# Resolving a declaration and changing consumers to it

Creating a topic resolves its declaration, altering it compares the declaration with what is
observed. Both go down the declared consumers, and `consumerChangesAfter_alike` leads them side by
side : they stop at the same consumer for the same cause, and where nothing is observed the changes
add just the consumers that the declaration stands for (`consumerChanges_nil_of_resolve`). So a
topic that has been created is as declared (`holdsIn_of_resolve`, `settingsHold_of_resolve`).
-/

namespace SchemaPlan

variable {table : CodecTable} {path : String}

/-! ## Codecs -/

namespace CodecTable

variable {names : List String} {e : Error}

theorem eq_unknownCodec_of_lookup {name : String} (h : table.lookup name = .error e) :
    e = .unknownCodec name := by
  unfold lookup at h
  split at h
  · split at h
    · cases h
    · exact (Except.error.inj h).symm
  · exact (Except.error.inj h).symm

/-- Names are refused only for one that is unknown. -/
theorem exists_of_lookupAll_eq_error (h : table.lookupAll names = .error e) :
    ∃ name, e = .unknownCodec name := by
  obtain ⟨name, -, hname⟩ := exists_of_mapM_eq_error h
  exact ⟨name, eq_unknownCodec_of_lookup hname⟩

theorem exists_of_lookupOrAll_eq_error (h : table.lookupOrAll names = .error e) :
    ∃ name, e = .unknownCodec name := by
  unfold lookupOrAll at h
  split at h
  · cases h
  · exact exists_of_lookupAll_eq_error h

/-- Codecs that are declared are looked up in either case; where none are, neither fails. -/
theorem lookupOrAll_alike (names : List String) : Alike (fun _ _ => True) (SameRefusal path)
    (table.lookupOrAll names) (table.lookupAll names) := by
  cases names with
  | nil => exact .ok trivial
  | cons name names =>
    rw [lookupOrAll, List.isEmpty_cons, if_neg Bool.false_ne_true]
    cases h : table.lookupAll (name :: names) with
    | ok codecs => exact .ok trivial
    | error e =>
      obtain ⟨unknown, rfl⟩ := exists_of_lookupAll_eq_error h
      exact .error (.unknownCodec unknown)

end CodecTable

/-! ## Consumers -/

section Consumers

variable {observed : List Consumer}

/-- A consumer is resolved exactly if its changes can be told; if nothing is observed, they add
it. -/
theorem changesFor_alike (c : DeclaredConsumer) :
    Alike (fun consumer changes => observed = [] → changes = [.add consumer]) (SameRefusal path)
      (c.resolve table) (changesFor table observed c) := by
  unfold changesFor
  cases hlast : lastNamed? Consumer.name c.name observed with
  | some o =>
    refine (CodecTable.lookupOrAll_alike c.codecs).bind fun _ _ _ => .ok fun hnone => ?_
    rw [hnone] at hlast
    cases hlast
  | none =>
    rw [DeclaredConsumer.resolve]
    cases h : table.lookupOrAll c.codecs with
    | ok codecs => exact .ok fun _ => rfl
    | error e =>
      obtain ⟨name, rfl⟩ := CodecTable.exists_of_lookupOrAll_eq_error h
      exact .error (.unknownCodec name)

/-- Declared consumers are resolved exactly if their changes can be told, since both ways stop at
the first consumer that was declared before or has a codec that is not known. -/
theorem consumerChangesAfter_alike (d : List DeclaredConsumer) (seen : List String) :
    Alike (fun consumers changes => observed = [] → changes = consumers.map .add)
      (SameRefusal path)
      (DeclaredConsumer.resolveAll table
        (fun name => .rejected (.duplicateTopicConsumer path name)) seen d)
      (consumerChangesAfter table observed seen d) := by
  induction d generalizing seen with
  | nil => exact .ok fun _ => rfl
  | cons c d ih =>
    rw [DeclaredConsumer.resolveAll, consumerChangesAfter]
    by_cases hseen : c.name ∈ seen
    · rw [if_pos hseen, if_pos hseen]
      exact .error (.duplicateConsumer c.name)
    · rw [if_neg hseen, if_neg hseen]
      refine (changesFor_alike c).bind fun consumer changes hblock => ?_
      refine (ih (c.name :: seen)).bind fun consumers rest hrest => .ok fun hnone => ?_
      rw [hblock hnone, hrest hnone]
      rfl

end Consumers

/-! ## Topics -/

section Topics

variable {d : DeclaredTopic} {t : Topic}

/-- A declaration is resolved part by part. -/
theorem DeclaredTopic.resolve_eq_ok_iff : d.resolve table = .ok t ↔
    ∃ codecs, table.lookupOrAll d.codecs = .ok codecs ∧
      ∃ consumers, DeclaredConsumer.resolveAll table
          (fun name => .rejected (.duplicateTopicConsumer d.path name)) [] d.consumers =
            .ok consumers ∧
        t = ⟨d.path, d.partitions, d.retention, codecs, consumers⟩ := by
  simp only [DeclaredTopic.resolve, bind_eq_ok_iff, pure_eq_ok_iff]
  exact exists_congr fun _ => and_congr_right fun _ => exists_congr fun _ =>
    and_congr_right fun _ => eq_comm

/-- From nothing, the changes that a declaration asks for add the consumers that it stands for. -/
theorem consumerChanges_nil_of_resolve (h : d.resolve table = .ok t) :
    consumerChanges table d.consumers [] = .ok (t.consumers.map .add) := by
  obtain ⟨codecs, -, consumers, hconsumers, rfl⟩ := DeclaredTopic.resolve_eq_ok_iff.1 h
  obtain ⟨changes, hchanges, hadd⟩ :=
    (@consumerChangesAfter_alike table d.path [] d.consumers []).exists_of_ok hconsumers
  rw [consumerChanges, hchanges, hadd rfl]

/-- Adding consumers to none makes just these. -/
theorem consumersAfter_adds (before consumers : List Consumer) :
    consumersAfter before (consumers.map .add) = before ++ consumers := by
  induction consumers generalizing before with
  | nil => rw [List.map_nil, consumersAfter_nil, List.append_nil]
  | cons c consumers ih =>
    rw [List.map_cons, consumersAfter_cons, ih, ConsumerChange.onConsumers, List.append_assoc,
      List.singleton_append]

/-- The consumers that a declaration stands for are as declared, and no two are declared under one
name. -/
theorem holdsIn_of_resolve (h : d.resolve table = .ok t) :
    (d.consumers.map DeclaredConsumer.name).Nodup ∧
      ∀ c ∈ d.consumers, c.HoldsIn table t.consumers := by
  obtain ⟨hnames, blocks, hblocks, heq⟩ :=
    consumerChanges_eq_ok_iff.1 (consumerChanges_nil_of_resolve h)
  -- the topic is what its own changes make of no consumers
  obtain ⟨-, hholds⟩ :=
    @holdsIn_consumersAfter_flatten table [] [] _ _ List.nodup_nil hnames hblocks fun _ _ => rfl
  rw [← heq, consumersAfter_adds, List.nil_append] at hholds
  exact ⟨hnames, hholds⟩

/-- In the topic of a declaration the declared settings hold. -/
theorem settingsHold_of_resolve (h : d.resolve table = .ok t) : d.SettingsHold table t := by
  obtain ⟨codecs, hcodecs, consumers, -, rfl⟩ := DeclaredTopic.resolve_eq_ok_iff.1 h
  refine ⟨fun _ hn => hn, fun _ hperiod => hperiod, fun hne => ⟨codecs, ?_, fun _ => Iff.rfl⟩⟩
  rwa [CodecTable.lookupOrAll, if_neg (by simpa using hne)] at hcodecs

end Topics

end SchemaPlan
