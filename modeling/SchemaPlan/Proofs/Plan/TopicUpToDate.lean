import SchemaPlan.Proofs.Plan.Stability
import SchemaPlan.Proofs.Plan.TopicCreation

/-!
# When a topic is up to date

`planTopic_upToDate_iff` : there is nothing to do for a topic exactly if its declared settings hold
and every declared consumer is there, reads from the declared position and has no codecs declared
for it. The settings have no difference exactly if they hold (`topicDifference_isEmpty_iff`), and
each declared consumer has its block of changes, which is empty exactly if the consumer is settled
(`changesFor_eq_ok_nil_iff`). Consumers that are not declared are never looked at
(`topicOperations_compared`).
-/

namespace SchemaPlan

variable {table : CodecTable}

/-! ## Consumers without a change -/

section Consumers

variable {observed : List Consumer} {c : DeclaredConsumer} {d : List DeclaredConsumer}

/-- Nothing has to change for a declared consumer exactly if it is settled. -/
theorem changesFor_eq_ok_nil_iff (hnames : (observed.map Consumer.name).Nodup) :
    changesFor table observed c = .ok [] ↔ c.SettledIn observed := by
  constructor
  · intro h
    cases hlast : lastNamed? Consumer.name c.name observed with
    | none =>
      -- a consumer that is not observed is added
      obtain ⟨codecs, -, hblock⟩ := changesFor_of_lastNamed?_eq_none hlast h
      cases hblock
    | some o =>
      simp only [changesFor, hlast, changesOf_eq_ok_iff] at h
      obtain ⟨codecs, hcodecs, hblock⟩ := h
      rw [List.nil_eq, List.append_eq_nil_iff] at hblock
      obtain ⟨hread, hset⟩ := hblock
      have hposition : c.effectiveReadFrom = o.readFrom := by simpa using hread
      have hnone : codecs = [] := by simpa using hset
      have hempty := CodecTable.isEmpty_of_lookupAll hcodecs
      rw [hnone, List.isEmpty_nil, eq_comm, List.isEmpty_iff] at hempty
      exact ⟨hempty, o, mem_of_lastNamed? hlast, name_of_lastNamed? hlast, hposition.symm⟩
  · rintro ⟨hcodecs, o, ho, hname, hposition⟩
    have hlast := (lastNamed?_eq_some_iff hnames).2 ⟨ho, hname⟩
    simp only [changesFor, hlast, changesOf_eq_ok_iff, hcodecs]
    exact ⟨[], rfl, by rw [if_pos hposition.symm]; rfl⟩

/-- There are no changes exactly if no declared consumer has any. -/
theorem consumerChanges_eq_ok_nil_iff : consumerChanges table d observed = .ok [] ↔
    (d.map DeclaredConsumer.name).Nodup ∧ ∀ c ∈ d, changesFor table observed c = .ok [] := by
  rw [consumerChanges_eq_ok_iff]
  refine and_congr_right fun _ => ?_
  constructor
  · rintro ⟨blocks, hblocks, hnil⟩ c hc
    obtain ⟨block, hblock, hchanges⟩ := exists_mem_of_mapM (mapM_eq_ok_iff.2 hblocks) hc
    rwa [List.flatten_eq_nil_iff.1 hnil.symm block hblock] at hchanges
  · intro h
    refine ⟨d.map fun _ => [], ?_, by simp⟩
    exact List.forall₂_map_right_iff.2 (List.forall₂_same.2 h)

end Consumers

/-! ## Topics without a change -/

section Topics

variable {declared : DeclaredTopic} {observed : Topic}

/-- No setting has to change exactly if the declared ones hold. -/
theorem topicDifference_isEmpty_iff :
    (∃ settings, topicDifference table declared observed = .ok settings ∧
      settings.isEmpty = true) ↔ declared.SettingsHold table observed := by
  constructor
  · rintro ⟨settings, hsettings, hempty⟩
    have hhold := settingsHold_overwriteSettings hsettings
    rwa [Topic.overwriteSettings_of_isEmpty hempty] at hhold
  · intro h
    exact ⟨{}, topicDifference_of_settingsHold h, rfl⟩

/-- There is nothing to do exactly if the settings hold and no consumer is changed. -/
theorem topicOperations_eq_ok_nil_iff : topicOperations table declared observed = .ok [] ↔
    declared.SettingsHold table observed ∧
      consumerChanges table declared.consumers observed.consumers = .ok [] := by
  rw [topicOperations_eq_ok_iff, ← topicDifference_isEmpty_iff]
  constructor
  · rintro ⟨settings, hsettings, changes, hchanges, hnil⟩
    rw [List.nil_eq, List.append_eq_nil_iff, List.map_eq_nil_iff] at hnil
    obtain ⟨halter, rfl⟩ := hnil
    exact ⟨⟨settings, hsettings, by simpa using halter⟩, hchanges⟩
  · rintro ⟨⟨settings, hsettings, hempty⟩, hchanges⟩
    exact ⟨settings, hsettings, [], hchanges, by rw [if_pos hempty]; rfl⟩

/-- What is not compared makes no difference. -/
theorem topicOperations_compared :
    topicOperations table declared (declared.compared observed) =
      topicOperations table declared observed := by
  have hchanges : consumerChanges table declared.consumers (declared.compared observed).consumers =
      consumerChanges table declared.consumers observed.consumers := by
    refine consumerChangesAfter_congr fun c hc => ?_
    rw [changesFor, changesFor, DeclaredTopic.compared, lastNamed?_filter fun o ho => ?_]
    simpa [ho] using ⟨c, hc, rfl⟩
  rw [topicOperations, hchanges]
  rfl

/-- There is nothing to do for a declaration that can be resolved exactly if the topic is settled:
the declared partitions and retention are observed, the declared codecs, if any, are the observed
ones in any order, and every declared consumer is observed at its position and declares no codecs.
Consumers that are not declared change nothing of the plan. -/
theorem planTopic_upToDate_iff (hpath : declared.path ≠ "")
    (hresolve : ∃ t, declared.resolve table = .ok t)
    (hnames : (observed.consumers.map Consumer.name).Nodup) :
    (planTopic table declared (some observed) = .ok .upToDate ↔
      declared.SettledIn table observed) ∧
    planTopic table declared (some (declared.compared observed)) =
      planTopic table declared (some observed) := by
  obtain ⟨t, ht⟩ := hresolve
  obtain ⟨hdistinct, -⟩ := holdsIn_of_resolve ht
  constructor
  · have hnonempty : declared.path.isEmpty = false := by simpa using hpath
    rw [planTopic_some_eq_ok_iff]
    simp only [ofOperations_eq_upToDate_iff, exists_eq_right, topicOperations_eq_ok_nil_iff,
      consumerChanges_eq_ok_nil_iff, changesFor_eq_ok_nil_iff hnames]
    exact ⟨fun ⟨_, hsettings, _, hconsumers⟩ => ⟨hsettings, hconsumers⟩,
      fun h => ⟨hnonempty, h.settings, hdistinct, h.consumers⟩⟩
  · simp only [planTopic, topicOperations_compared]

end Topics

/-- A position between two seconds. -/
def betweenSeconds : Timestamp :=
  ⟨120, 750000000, by decide, by decide⟩

/-- `feedObserved` in two codecs, with a consumer more and a position in whole seconds. -/
def feedSettled : Topic :=
  { feedObserved with
    codecs := [.raw, .gzip]
    consumers := [⟨"audit", [.zstd], .epoch⟩,
      ⟨"mail", [.raw], betweenSeconds.wholeSeconds⟩, ⟨"search", [.zstd], .epoch⟩] }

/-- Two consumers of `feedSettled`, and its codecs under other names, one of them twice. -/
def feedRepeated : DeclaredTopic where
  path := "feed"
  retention := some "P1D"
  codecs := ["gzip", " RAW ", "GZip"]
  consumers := [{ name := "search" }, { name := "mail", readFrom := some betweenSeconds }]

/-- The feed is up to date once it is settled, and was not before. -/
theorem planTopic_upToDate_iff_feed :
    (feedSettled.consumers.map Consumer.name).Nodup ∧
      feedRepeated.SettledIn .standard feedSettled ∧
      planTopic .standard feedRepeated (some (feedRepeated.compared feedSettled)) =
        .ok .upToDate ∧
      ¬feedRepeated.SettledIn .standard feedObserved := by
  have hresolve : ∃ t, feedRepeated.resolve .standard = .ok t := ⟨_, rfl⟩
  have hnames : (feedSettled.consumers.map Consumer.name).Nodup := by decide
  obtain ⟨hiff, hcompared⟩ := planTopic_upToDate_iff (by decide) hresolve hnames
  have hobserved : (feedObserved.consumers.map Consumer.name).Nodup := by decide
  obtain ⟨hiff', -⟩ := planTopic_upToDate_iff (by decide) hresolve hobserved
  have hplan : planTopic .standard feedRepeated (some feedSettled) = .ok .upToDate := rfl
  refine ⟨hnames, hiff.1 hplan, hcompared.trans hplan, fun h => ?_⟩
  obtain ⟨-, operations, hoperations, hnone⟩ := planTopic_some_eq_ok_iff.1 (hiff'.2 h)
  rw [ofOperations_eq_upToDate_iff] at hnone
  subst hnone
  cases hoperations

end SchemaPlan
