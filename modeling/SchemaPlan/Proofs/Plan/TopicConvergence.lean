import SchemaPlan.Plan
import SchemaPlan.Proofs.Topic.Difference

/-!
# Plans for topics converge

`topicOperations_settle` : the operations of a plan for a topic can be made one after the other, and
once they have been made the topic is as declared and its other consumers are as they were. Planning
again leaves only what is planned whatever is observed : the codecs of the consumers they are
declared for are set once more, to what they are.
-/

namespace SchemaPlan

variable {table : CodecTable} {declared : DeclaredTopic} {observed : Topic}
  {operations : List Operation}

/-- A plan changes the settings that differ and then the consumers. -/
theorem topicOperations_eq_ok_iff : topicOperations table declared observed = .ok operations ↔
    ∃ settings, topicDifference table declared observed = .ok settings ∧
      ∃ changes, consumerChanges table declared.consumers observed.consumers = .ok changes ∧
        operations = (if settings.isEmpty then [] else [.alterTopic declared.path settings])
          ++ changes.map (.changeConsumer declared.path) := by
  simp only [topicOperations, bind_eq_ok_iff, pure_eq_ok_iff]
  exact exists_congr fun _ => and_congr_right fun _ => exists_congr fun _ =>
    and_congr_right fun _ => eq_comm

/-- Settings are overwritten, also where there are none and the operation is left out. -/
theorem afterAll_alterTopic (t : Topic) (path : String) (settings : TopicSettings) :
    t.afterAll (if settings.isEmpty then [] else [.alterTopic path settings]) =
      t.overwriteSettings settings := by
  split
  · rename_i hempty
    exact (Topic.overwriteSettings_of_isEmpty hempty).symm
  · rfl

/-- What the operations of a plan make of a topic. -/
theorem afterAll_topicOperations (t : Topic) (path : String) (settings : TopicSettings)
    (changes : List ConsumerChange) :
    t.afterAll ((if settings.isEmpty then [] else [.alterTopic path settings])
        ++ changes.map (.changeConsumer path)) =
      { t.overwriteSettings settings with consumers := consumersAfter t.consumers changes } := by
  rw [Topic.afterAll_append, afterAll_alterTopic, Topic.afterAll_changeConsumers]
  rfl

/-- Settings can always be altered, so a plan can be executed if its changes can be made. -/
theorem executableOnTopic_topicOperations {t : Topic} {path : String} {settings : TopicSettings}
    {changes : List ConsumerChange} (h : ExecutesOn t.consumers changes)
    {before after : List Operation} {operation : Operation}
    (hsplit : (if settings.isEmpty then [] else [.alterTopic path settings])
      ++ changes.map (.changeConsumer path) = before ++ operation :: after) :
    operation.ExecutableOnTopic (t.afterAll before) := by
  by_cases hempty : settings.isEmpty = true
  · rw [if_pos hempty, List.nil_append] at hsplit
    exact Topic.executableOnTopic_of_executesOn t path h hsplit
  · rw [if_neg hempty, List.singleton_append, List.cons_eq_append_iff] at hsplit
    rcases hsplit with ⟨rfl, hfirst⟩ | ⟨before, rfl, hsplit⟩
    · obtain ⟨rfl, -⟩ := List.cons.inj hfirst
      trivial
    · exact Topic.executableOnTopic_of_executesOn (t.overwriteSettings settings) path h hsplit

/-- The operations of a plan can be executed in order. Once they have been, the consumers that are
not declared are as they were, every declared consumer is there once with what is declared, and the
declared settings hold. Planning again sets, for each consumer that codecs are declared for, the
codecs it has, and nothing else. -/
theorem topicOperations_settle (hnames : (observed.consumers.map Consumer.name).Nodup)
    (h : topicOperations table declared observed = .ok operations) :
    (∀ before operation after, operations = before ++ operation :: after →
      operation.ExecutableOnTopic (observed.afterAll before)) ∧
    (observed.afterAll operations).consumers.filter
        (fun c => c.name ∉ declared.consumers.map DeclaredConsumer.name) =
      observed.consumers.filter
        (fun c => c.name ∉ declared.consumers.map DeclaredConsumer.name) ∧
    (∀ c ∈ declared.consumers, c.HoldsIn table (observed.afterAll operations).consumers) ∧
    declared.SettingsHold table (observed.afterAll operations) ∧
    ∃ again, topicOperations table declared (observed.afterAll operations) = .ok again ∧
      List.Forall₂ (fun c operation => ∃ o ∈ (observed.afterAll operations).consumers,
          o.name = c.name ∧
            operation = .changeConsumer declared.path (.setCodecs c.name o.codecs))
        (declared.consumers.filter fun c => !c.codecs.isEmpty) again := by
  obtain ⟨settings, hsettings, changes, hchanges, rfl⟩ := topicOperations_eq_ok_iff.1 h
  obtain ⟨hd, blocks, hblocks, rfl⟩ := consumerChanges_eq_ok_iff.1 hchanges
  obtain ⟨hexecutes, hholds⟩ :=
    holdsIn_consumersAfter_flatten hnames hd hblocks fun _ _ => rfl
  have hset : declared.SettingsHold table
      { observed.overwriteSettings settings with
        consumers := consumersAfter observed.consumers blocks.flatten } := by
    obtain ⟨hpartitions, hretention, hcodecs⟩ := settingsHold_overwriteSettings hsettings
    exact ⟨hpartitions, hretention, hcodecs⟩
  rw [afterAll_topicOperations]
  refine ⟨fun _ _ _ => executableOnTopic_topicOperations hexecutes, ?_, hholds, hset, ?_⟩
  · refine filter_consumersAfter (p := fun n => n ∉ declared.consumers.map DeclaredConsumer.name)
      fun change hchange => ?_
    simpa using consumer_of_mem_flatten hblocks change hchange
  · obtain ⟨again, hagain, hrepeats⟩ := consumerChanges_of_holdsIn hd hholds
    refine ⟨_, topicOperations_eq_ok_iff.2
      ⟨{}, topicDifference_of_settingsHold hset, again, hagain, rfl⟩, ?_⟩
    rw [show (TopicSettings.isEmpty {}) = true from rfl, if_pos rfl, List.nil_append,
      List.forall₂_map_right_iff]
    refine hrepeats.imp fun c change hchange => ?_
    obtain ⟨o, ho, hname, rfl⟩ := hchange
    exact ⟨o, ho, hname, rfl⟩

/-- A topic that keeps one day in one codec, with a consumer from elsewhere and one that reads from
the start. -/
def feedObserved : Topic where
  path := "feed"
  partitions := some 4
  retention := some "P1D"
  codecs := [.raw]
  consumers := [⟨"audit", [.zstd], .epoch⟩,
    ⟨"mail", [.raw], ⟨60, 500000000, by decide, by decide⟩⟩]

/-- Two days in two codecs, with one consumer to change and one to add. -/
def feedDeclared : DeclaredTopic where
  path := "feed"
  retention := some "P2D"
  codecs := ["gzip", "raw"]
  consumers := [{ name := "mail", codecs := ["gzip"] }, { name := "search" }]

def feedOperations : List Operation :=
  [.alterTopic "feed" { retention := some "P2D", codecs := [.gzip, .raw] },
    .changeConsumer "feed" (.setReadFrom "mail" .epoch),
    .changeConsumer "feed" (.setCodecs "mail" [.gzip]),
    .changeConsumer "feed" (.add ⟨"search", [.raw, .gzip, .zstd], .epoch⟩)]

/-- After the plan for the feed everything declared holds, and the codecs of one consumer are set
again. -/
theorem topicOperations_settle_feed :
    topicOperations .standard feedDeclared feedObserved = .ok feedOperations ∧
      (∀ c ∈ feedDeclared.consumers,
        c.HoldsIn .standard (feedObserved.afterAll feedOperations).consumers) ∧
      feedDeclared.SettingsHold .standard (feedObserved.afterAll feedOperations) ∧
      topicOperations .standard feedDeclared (feedObserved.afterAll feedOperations) =
        .ok [.changeConsumer "feed" (.setCodecs "mail" [.gzip])] := by
  have hoperations : topicOperations .standard feedDeclared feedObserved = .ok feedOperations := by
    rfl
  obtain ⟨-, -, hholds, hset, -⟩ := topicOperations_settle (by decide) hoperations
  exact ⟨hoperations, hholds, hset, rfl⟩

end SchemaPlan
