import SchemaPlan.Proofs.Plan.TopicConvergence
import SchemaPlan.Proofs.Topic.Resolution

/-!
# Creating and altering accept the same topics

`resolve_agrees_topicOperations` : whatever is observed, a declaration can be resolved, to create
the topic, exactly if the operations that alter the topic can be told, and if it is refused then for
one cause. What is observed decides only which of the declared consumers are added and which are
changed : where none is observed, all are added.
-/

namespace SchemaPlan

variable {table : CodecTable} {declared : DeclaredTopic} {observed : Topic}

/-- The settings of a topic are refused exactly if their codecs are. -/
theorem topicDifference_alike : Alike (fun _ _ => True) (SameRefusal declared.path)
    (table.lookupOrAll declared.codecs) (topicDifference table declared observed) := by
  have hcodecs := @CodecTable.lookupOrAll_alike table declared.path declared.codecs
  rw [← bind_pure (table.lookupOrAll declared.codecs)]
  exact hcodecs.bind fun _ _ _ => .ok trivial

/-- A declaration is resolved exactly if the operations it asks for can be told. -/
theorem topicOperations_alike : Alike (fun _ _ => True) (SameRefusal declared.path)
    (declared.resolve table) (topicOperations table declared observed) :=
  topicDifference_alike.bind fun _ _ _ =>
    (consumerChangesAfter_alike declared.consumers []).bind fun _ _ _ => .ok trivial

/-- A declaration is resolved exactly if it can be compared with an observed topic, whatever is
observed; if either is refused then so is the other, for the same unknown codec or the same consumer
that is declared twice; and from no consumers, the changes of a declaration add the consumers that
it stands for, in order. -/
theorem resolve_agrees_topicOperations (table : CodecTable) (declared : DeclaredTopic)
    (observed : Topic) :
    ((∃ t, declared.resolve table = .ok t) ↔
      ∃ operations, topicOperations table declared observed = .ok operations) ∧
    (∀ e, declared.resolve table = .error e →
      ∃ e', topicOperations table declared observed = .error e' ∧
        SameRefusal declared.path e e') ∧
    ∀ t, declared.resolve table = .ok t →
      consumerChanges table declared.consumers [] = .ok (t.consumers.map .add) :=
  ⟨topicOperations_alike.exists_ok_iff, fun _ => topicOperations_alike.exists_of_error,
    fun _ => consumerChanges_nil_of_resolve⟩

/-- Two consumers of one name, the second with a codec that is not known. -/
def feedTwice : DeclaredTopic where
  path := "feed"
  codecs := ["zstd"]
  consumers := [{ name := "mail" }, { name := "mail", codecs := ["lzma"] }]

/-- The feed is accepted, and with a repeated consumer it is refused both ways. -/
theorem resolve_agrees_topicOperations_feed :
    (∃ operations, topicOperations .standard feedDeclared feedObserved = .ok operations) ∧
    feedTwice.resolve .standard = .error (.rejected (.duplicateTopicConsumer "feed" "mail")) ∧
    topicOperations .standard feedTwice feedObserved =
      .error (.rejected (.duplicateConsumer "mail")) ∧
    consumerChanges .standard feedDeclared.consumers [] =
      .ok [.add ⟨"mail", [.gzip], .epoch⟩, .add ⟨"search", [.raw, .gzip, .zstd], .epoch⟩] := by
  obtain ⟨hiff, -, hadd⟩ := resolve_agrees_topicOperations .standard feedDeclared feedObserved
  obtain ⟨-, hrefused, -⟩ := resolve_agrees_topicOperations .standard feedTwice feedObserved
  refine ⟨hiff.1 ⟨_, rfl⟩, rfl, ?_, hadd _ rfl⟩
  obtain ⟨e, he, hsame⟩ := hrefused _ rfl
  cases hsame
  exact he

end SchemaPlan
