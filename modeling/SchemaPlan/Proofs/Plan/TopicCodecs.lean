import SchemaPlan.Proofs.Plan.TopicResolution
import SchemaPlan.Proofs.Topic.Mention

/-!
# Plans for topics use the codecs of the table

Codecs come into a plan by name, when they are declared, or as all codecs of the table, when they
are not; either way they are codecs of the table (`allowed_of_resolve`,
`codecsFrom_of_mem_changesFor`). A declaration that mentions another codec anywhere is refused, also
where nothing would have to change. `codecs_of_declaration` is both directions together, with the
mention for which it is refused.
-/

namespace SchemaPlan

variable {table : CodecTable} {declared : DeclaredTopic} {observed : Topic}

/-! ## Creating -/

/-- Every declared consumer is resolved by itself. -/
theorem forall₂_of_resolveAll {repeated : String → Error} {seen : List String}
    {d : List DeclaredConsumer} {consumers : List Consumer}
    (h : DeclaredConsumer.resolveAll table repeated seen d = .ok consumers) :
    List.Forall₂ (fun c consumer => c.resolve table = .ok consumer) d consumers := by
  induction d generalizing seen consumers with
  | nil =>
    cases h
    exact .nil
  | cons c d ih =>
    rw [DeclaredConsumer.resolveAll] at h
    split at h
    · cases h
    · simp only [bind_eq_ok_iff, pure_eq_ok_iff] at h
      obtain ⟨consumer, hconsumer, rest, hrest, rfl⟩ := h
      exact .cons hconsumer (ih hrest)

/-- The codecs of a declared consumer are read in the table. -/
theorem codecs_of_resolve {c : DeclaredConsumer} {consumer : Consumer}
    (h : c.resolve table = .ok consumer) : consumer.name = c.name ∧
      table.Reads c.codecs consumer.codecs ∧ ∀ codec ∈ consumer.codecs, codec ∈ table.allowed := by
  obtain ⟨codecs, hcodecs, rfl⟩ := resolve_eq_ok_iff.1 h
  exact ⟨rfl, CodecTable.reads_of_lookupOrAll hcodecs, CodecTable.allowed_of_lookupOrAll hcodecs⟩

theorem allowed_of_resolve {t : Topic} (h : declared.resolve table = .ok t) :
    ∀ codec ∈ t.usedCodecs, codec ∈ table.allowed := by
  obtain ⟨codecs, hcodecs, consumers, hconsumers, rfl⟩ := DeclaredTopic.resolve_eq_ok_iff.1 h
  intro codec hcodec
  rcases List.mem_append.1 hcodec with hcodec | hcodec
  · exact CodecTable.allowed_of_lookupOrAll hcodecs codec hcodec
  · obtain ⟨consumer, hconsumer, hcodec⟩ := List.mem_flatMap.1 hcodec
    obtain ⟨c, -, hc⟩ := exists_of_mem_mapM (mapM_eq_ok_iff.2 (forall₂_of_resolveAll hconsumers))
      hconsumer
    exact (codecs_of_resolve hc).2.2 codec hcodec

/-- A topic and its consumers have the codecs that are declared for them. -/
theorem reads_of_resolve {t : Topic} (h : declared.resolve table = .ok t) :
    table.Reads declared.codecs t.codecs ∧ List.Forall₂ (fun c consumer =>
      consumer.name = c.name ∧ table.Reads c.codecs consumer.codecs)
        declared.consumers t.consumers := by
  obtain ⟨codecs, hcodecs, consumers, hconsumers, rfl⟩ := DeclaredTopic.resolve_eq_ok_iff.1 h
  refine ⟨CodecTable.reads_of_lookupOrAll hcodecs, ?_⟩
  refine (forall₂_of_resolveAll hconsumers).imp fun c consumer hc => ?_
  obtain ⟨hname, hreads, -⟩ := codecs_of_resolve hc
  exact ⟨hname, hreads⟩

/-! ## Altering -/

/-- The codecs that are set on a topic are the declared ones. -/
theorem codecsFrom_alterTopic {settings : TopicSettings} (path : String)
    (h : topicDifference table declared observed = .ok settings) :
    (Operation.alterTopic path settings).CodecsFrom table declared := by
  obtain ⟨codecs, hcodecs, rfl⟩ := topicDifference_eq_ok_iff.1 h
  constructor
  · intro codec hcodec
    simp only [Operation.usedCodecs] at hcodec
    split at hcodec
    · exact absurd hcodec List.not_mem_nil
    · exact CodecTable.allowed_of_lookupAll hcodecs codec hcodec
  · intro hne
    simp only at hne ⊢
    split at hne
    · exact absurd rfl hne
    · rename_i hdiffer
      rw [if_neg hdiffer]
      refine .listed (fun hnone => hne ?_) (CodecTable.denotedBy_of_lookupAll hcodecs)
      rw [hnone] at hcodecs
      cases hcodecs
      rfl

/-- The codecs of a change that a declared consumer asks for are read in the table. -/
theorem codecsFrom_of_mem_changesFor {c : DeclaredConsumer} {block : List ConsumerChange}
    {change : ConsumerChange} (path : String) (hc : c ∈ declared.consumers)
    (h : changesFor table observed.consumers c = .ok block) (hmem : change ∈ block) :
    (Operation.changeConsumer path change).CodecsFrom table declared := by
  cases hlast : lastNamed? Consumer.name c.name observed.consumers with
  | none =>
    obtain ⟨codecs, hcodecs, rfl⟩ := changesFor_of_lastNamed?_eq_none hlast h
    obtain rfl := List.mem_singleton.1 hmem
    exact ⟨CodecTable.allowed_of_lookupOrAll hcodecs,
      c, hc, rfl, CodecTable.reads_of_lookupOrAll hcodecs⟩
  | some o =>
    simp only [changesFor, hlast, changesOf_eq_ok_iff] at h
    obtain ⟨codecs, hcodecs, rfl⟩ := h
    rcases List.mem_append.1 hmem with hmem | hmem
    · split at hmem
      · exact absurd hmem List.not_mem_nil
      · rw [List.mem_singleton.1 hmem]
        exact ⟨fun _ hcodec => absurd hcodec List.not_mem_nil, trivial⟩
    · split at hmem
      · exact absurd hmem List.not_mem_nil
      · rename_i hsome
        have hne : c.codecs ≠ [] := by
          rwa [CodecTable.isEmpty_of_lookupAll hcodecs, List.isEmpty_iff] at hsome
        rw [List.mem_singleton.1 hmem]
        exact ⟨CodecTable.allowed_of_lookupAll hcodecs,
          c, hc, rfl, hne, .listed hne (CodecTable.denotedBy_of_lookupAll hcodecs)⟩

/-- Every operation of a plan has its codecs from the declaration. -/
theorem codecsFrom_of_mem_topicOperations {operations : List Operation} {operation : Operation}
    (h : topicOperations table declared observed = .ok operations) (hmem : operation ∈ operations) :
    operation.CodecsFrom table declared := by
  obtain ⟨settings, hsettings, changes, hchanges, rfl⟩ := topicOperations_eq_ok_iff.1 h
  obtain ⟨-, blocks, hblocks, rfl⟩ := consumerChanges_eq_ok_iff.1 hchanges
  rcases List.mem_append.1 hmem with hmem | hmem
  · split at hmem
    · exact absurd hmem List.not_mem_nil
    · rw [List.mem_singleton.1 hmem]
      exact codecsFrom_alterTopic declared.path hsettings
  · obtain ⟨change, hchange, rfl⟩ := List.mem_map.1 hmem
    obtain ⟨block, hblock, hchange⟩ := List.mem_flatten.1 hchange
    obtain ⟨c, hc, hfor⟩ := exists_of_mem_mapM (mapM_eq_ok_iff.2 hblocks) hblock
    exact codecsFrom_of_mem_changesFor declared.path hc hfor hchange

/-! ## Refusing -/

/-- A declaration is refused for one mention, whether the topic is created or altered. -/
theorem eq_error_of_refusal? {m : Mention} (h : table.refusal? [] declared.mentions = some m) :
    declared.resolve table = .error (m.error declared.path) ∧
      ∃ e, topicOperations table declared observed = .error e ∧
        SameRefusal declared.path (m.error declared.path) e := by
  have hstops := @DeclaredTopic.resolve_stopsAt table declared
  rw [h] at hstops
  exact ⟨hstops.eq_error, topicOperations_alike.exists_of_error hstops.eq_error⟩

/-- If the first refusal is of a codec, its name is the error of both. -/
theorem eq_error_of_refusal?_codec {name : String}
    (h : table.refusal? [] declared.mentions = some (.codec name)) :
    declared.resolve table = .error (.unknownCodec name) ∧
      topicOperations table declared observed = .error (.unknownCodec name) := by
  obtain ⟨hresolve, e, he, hsame⟩ := @eq_error_of_refusal? table declared observed _ h
  cases hsame
  exact ⟨hresolve, he⟩

/-- If the first refusal is of a consumer, it is a repeated one for both. -/
theorem eq_error_of_refusal?_consumer {name : String}
    (h : table.refusal? [] declared.mentions = some (.consumer name)) :
    declared.resolve table = .error (.rejected (.duplicateTopicConsumer declared.path name)) ∧
      topicOperations table declared observed = .error (.rejected (.duplicateConsumer name)) := by
  obtain ⟨hresolve, e, he, hsame⟩ := @eq_error_of_refusal? table declared observed _ h
  cases hsame
  exact ⟨hresolve, he⟩

/-- Whatever is observed, the codecs of a plan are codecs of the table. Each list of codecs is the
list of those that are declared there by name, or all of the table if none are. A declaration that
mentions another codec anywhere is refused both ways, for the first such name, or for the first
consumer that has been mentioned twice before it. -/
theorem codecs_of_declaration (table : CodecTable) (declared : DeclaredTopic) (observed : Topic) :
    (∀ t, declared.resolve table = .ok t →
      (∀ codec ∈ t.usedCodecs, codec ∈ table.allowed) ∧ table.Reads declared.codecs t.codecs ∧
      List.Forall₂ (fun c consumer => consumer.name = c.name ∧
        table.Reads c.codecs consumer.codecs) declared.consumers t.consumers) ∧
    (∀ operations, topicOperations table declared observed = .ok operations →
      (declared.consumers.map DeclaredConsumer.name).Nodup ∧
      ∀ operation ∈ operations, operation.CodecsFrom table declared) ∧
    ∀ name, .codec name ∈ declared.mentions → table.Unknown name →
      ∃ before first after, declared.mentions = before ++ .codec first :: after ∧
        table.Unknown first ∧ (∀ other, .codec other ∈ before → ¬table.Unknown other) ∧
        ((mentionedConsumers before).Nodup →
          declared.resolve table = .error (.unknownCodec first) ∧
          topicOperations table declared observed = .error (.unknownCodec first)) ∧
        ∀ consumer more, repeats (mentionedConsumers before) = consumer :: more →
          declared.resolve table =
            .error (.rejected (.duplicateTopicConsumer declared.path consumer)) ∧
          topicOperations table declared observed =
            .error (.rejected (.duplicateConsumer consumer)) := by
  refine ⟨fun t ht => ⟨allowed_of_resolve ht, reads_of_resolve ht⟩, fun operations h => ⟨?_, ?_⟩,
    fun name hmem hname => ?_⟩
  · obtain ⟨-, -, changes, hchanges, -⟩ := topicOperations_eq_ok_iff.1 h
    exact (consumerChanges_eq_ok_iff.1 hchanges).1
  · exact fun operation hmem => codecsFrom_of_mem_topicOperations h hmem
  · obtain ⟨before, first, after, hsplit, hfirst, hknown⟩ := exists_first_unknown hmem hname
    have hrefusal := refusal?_of_first_unknown hfirst hknown after
    rw [← hsplit] at hrefusal
    refine ⟨before, first, after, hsplit, hfirst, hknown, fun hnodup => ?_,
      fun consumer more hrepeats => ?_⟩
    · rw [repeats_eq_nil_iff.2 hnodup] at hrefusal
      exact eq_error_of_refusal?_codec hrefusal
    · rw [hrepeats] at hrefusal
      exact eq_error_of_refusal?_consumer hrefusal

/-- A table in which not every codec may be used. -/
def packed : CodecTable := ⟨[.zstd, .gzip]⟩

/-- A topic with names of codecs in several spellings. -/
def feedSpelled : DeclaredTopic where
  path := "feed"
  codecs := [" GZip\t", "zstd"]
  consumers := [{ name := "mail", codecs := ["ZSTD", "gzip", "zstd"] }, { name := "search" }]

/-- In `feedTwice`, a consumer is mentioned twice before the codec that is not known. -/
theorem codecs_of_declaration_feed :
    (∃ t, feedSpelled.resolve packed = .ok t ∧ packed.Reads [" GZip\t", "zstd"] t.codecs) ∧
    (∃ operations, topicOperations packed feedSpelled feedObserved = .ok operations ∧
      ∀ operation ∈ operations, operation.CodecsFrom packed feedSpelled) ∧
    .codec "lzma" ∈ feedTwice.mentions ∧ CodecTable.standard.Unknown "lzma" ∧
      feedTwice.resolve .standard = .error (.rejected (.duplicateTopicConsumer "feed" "mail")) ∧
      topicOperations .standard feedTwice feedObserved =
        .error (.rejected (.duplicateConsumer "mail")) := by
  obtain ⟨hresolve, halter, -⟩ := codecs_of_declaration packed feedSpelled feedObserved
  obtain ⟨-, -, hrefused⟩ := codecs_of_declaration .standard feedTwice feedObserved
  have hmentions : feedTwice.mentions =
      [.codec "zstd", .consumer "mail", .consumer "mail", .codec "lzma"] := rfl
  have hlzma : .codec "lzma" ∈ feedTwice.mentions := by decide
  have hunknown : CodecTable.standard.Unknown "lzma" := by decide
  refine ⟨⟨_, rfl, (hresolve _ rfl).2.1⟩, ⟨_, rfl, (halter _ rfl).2⟩, hlzma, hunknown, ?_⟩
  obtain ⟨before, first, after, hsplit, hfirst, hknown, -, hrepeated⟩ :=
    hrefused "lzma" hlzma hunknown
  simp only [hmentions, List.cons_eq_append_iff, List.nil_eq_append_iff, List.cons.injEq,
    reduceCtorEq, Mention.codec.injEq, false_and, and_false, exists_false, or_false,
    false_or] at hsplit
  -- only the last of the two codecs that are mentioned is unknown
  rcases hsplit with ⟨-, rfl, -⟩ | ⟨_, rfl, _, rfl, _, rfl, rfl, -⟩
  · exact absurd hfirst (by decide)
  · exact hrepeated "mail" [] (by decide)

end SchemaPlan
