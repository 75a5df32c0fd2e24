import SchemaPlan.Proofs.Json.Form
import SchemaPlan.Proofs.Timestamp.RoundTrip
import SchemaPlan.Topic.Json

/-!
# Topics read back from JSON

Every part of a topic, declared or not, is read back from what is written of it, and so are the
changes of consumers. A read position is written to the nanosecond, but a leap second that does not
end a minute is read as the second after it : what has no such read position is read back as it is
(`Topic.asRead_eq_self_iff` and its siblings).
-/

namespace SchemaPlan

open Json Value ReadsBack

theorem Codec.lookup_name (codec : Codec) :
    (Codec.all.map fun codec => (codec.name, codec)).lookup codec.name = some codec := by
  cases codec <;> decide

theorem Codec.readsBack : ReadsBack Codec.ofJson? Codec.toJson :=
  case lookup_name

/-- A timestamp is read as its document is. -/
theorem Timestamp.readsAs : ReadsAs Timestamp.ofJson? Timestamp.toJson Timestamp.asRead where
  onlyNaturals t := onlyNaturals_string t.write
  form_write t := by
    rw [toJson, ofJson?, string.form_write, Option.bind_some, read?_write]
  form_null := rfl

/-! ## Consumers -/

theorem Consumer.isRecord_toJson (c : Consumer) : IsRecord fieldNames c.toJson :=
  .object <| .cons (onlyNaturals_string _) <| .cons (Codec.readsBack.list.onlyNaturals _) <|
    .cons (Timestamp.readsAs.onlyNaturals _) .nil

/-- A consumer is read with its position as that is read. -/
theorem Consumer.readsAs : ReadsAs Consumer.ofJson? Consumer.toJson Consumer.asRead :=
  .record (by decide) isRecord_toJson rfl fun c h => by
    rw [ofJson?, h]
    simp [toJson, members, string.form_write, Codec.readsBack.list.form_write,
      Timestamp.readsAs.form_write, asRead]

theorem DeclaredConsumer.isRecord_toJson (c : DeclaredConsumer) :
    IsRecord Consumer.fieldNames c.toJson :=
  .object <| .append (.cons (onlyNaturals_string _) <| .cons (strings.onlyNaturals _) .nil)
    (.ifSome Timestamp.readsAs _)

theorem DeclaredConsumer.readsAs :
    ReadsAs DeclaredConsumer.ofJson? DeclaredConsumer.toJson DeclaredConsumer.asRead :=
  .record (by decide) isRecord_toJson rfl fun c h => by
    rw [ofJson?, h]
    simp [toJson, members, string.form_write, strings.form_write,
      Timestamp.readsAs.getD_map_orNull?, asRead]

/-! ## Topics -/

theorem Topic.isRecord_toJson (t : Topic) : IsRecord fieldNames t.toJson :=
  .object <| .append (.append (.append (.cons (onlyNaturals_string _) .nil) (.ifSome word _))
    (.ifSome string _))
    (.cons (Codec.readsBack.list.onlyNaturals _) <| .cons (Consumer.readsAs.list.onlyNaturals _)
      .nil)

/-- A topic is read with its positions as they are read. -/
theorem Topic.readsAs : ReadsAs Topic.ofJson? Topic.toJson Topic.asRead :=
  .record (by decide) isRecord_toJson rfl fun t h => by
    rw [ofJson?, h]
    simp [toJson, members, List.lookup_append, string.form_write, word.getD_map_orNull?,
      string.getD_map_orNull?, Codec.readsBack.list.form_write, Consumer.readsAs.list.form_write,
      asRead]

theorem DeclaredTopic.isRecord_toJson (t : DeclaredTopic) : IsRecord Topic.fieldNames t.toJson :=
  .object <| .append (.append (.append (.cons (onlyNaturals_string _) .nil) (.ifSome word _))
    (.ifSome string _))
    (.cons (strings.onlyNaturals _) <| .cons (DeclaredConsumer.readsAs.list.onlyNaturals _) .nil)

theorem DeclaredTopic.readsAs :
    ReadsAs DeclaredTopic.ofJson? DeclaredTopic.toJson DeclaredTopic.asRead :=
  .record (by decide) isRecord_toJson rfl fun t h => by
    rw [ofJson?, h]
    simp [toJson, members, List.lookup_append, string.form_write, word.getD_map_orNull?,
      string.getD_map_orNull?, strings.form_write, DeclaredConsumer.readsAs.list.form_write, asRead]

theorem TopicSettings.isRecord_toJson (s : TopicSettings) : IsRecord fieldNames s.toJson :=
  .object <| .cons (word.onlyNaturals_orNull _) <| .cons (string.onlyNaturals_orNull _) <|
    .cons (Codec.readsBack.list.onlyNaturals _) .nil

theorem TopicSettings.readsBack : ReadsBack TopicSettings.ofJson? TopicSettings.toJson :=
  .record (by decide) isRecord_toJson rfl fun s h => by
    rw [ofJson?, h]
    simp [toJson, members, word.orNull?_orNull, string.orNull?_orNull,
      Codec.readsBack.list.form_write]

/-! ## Changes of consumers -/

namespace ConsumerChange

theorem isRecord_setReadFrom (name : String) (readFrom : Timestamp) :
    IsRecord readFromFieldNames
      (.object [("name", .string name), ("read_from", readFrom.toJson)]) :=
  .object <| .cons (onlyNaturals_string _) <| .cons (Timestamp.readsAs.onlyNaturals _) .nil

theorem isRecord_setCodecs (name : String) (codecs : List Codec) :
    IsRecord codecsFieldNames
      (.object [("name", .string name), ("codecs", .list Codec.toJson codecs)]) :=
  .object <| .cons (onlyNaturals_string _) <| .cons (Codec.readsBack.list.onlyNaturals _) .nil

/-- A change is read however the fields of a record are taken from it. -/
theorem readsAs_ofJsonWith? {fieldsOf : List String → Value → Option Fields}
    (h : ∀ {names : List String} {v : Value}, IsRecord names v → names.Nodup →
      fieldsOf names v = some v.members) :
    ReadsAs (ofJsonWith? fieldsOf) toJson asRead where
  onlyNaturals change := by
    cases change with
    | add consumer =>
      exact onlyNaturals_object <| List.forall_mem_singleton.2 <|
        Consumer.readsAs.onlyNaturals consumer
    | setReadFrom name readFrom =>
      exact onlyNaturals_object <| List.forall_mem_singleton.2
        (isRecord_setReadFrom name readFrom).onlyNaturals
    | setCodecs name codecs =>
      exact onlyNaturals_object <| List.forall_mem_singleton.2
        (isRecord_setCodecs name codecs).onlyNaturals
  form_write change := by
    cases change with
    | add consumer =>
      rw [toJson, ofJsonWith?]
      simp [Consumer.readsAs.form_write, asRead]
    | setReadFrom name readFrom =>
      rw [toJson, ofJsonWith?]
      simp [h (isRecord_setReadFrom name readFrom) (by decide), members, string.form_write,
        Timestamp.readsAs.form_write, asRead]
    | setCodecs name codecs =>
      rw [toJson, ofJsonWith?]
      simp [h (isRecord_setCodecs name codecs) (by decide), members, string.form_write,
        Codec.readsBack.list.form_write, asRead]
  form_null := rfl

/-- A change is read with its position as that is read. -/
theorem readsAs : ReadsAs ofJson? toJson asRead :=
  readsAs_ofJsonWith? IsRecord.fields?

theorem readsAs_named : ReadsAs ofNamedJson? toJson asRead :=
  readsAs_ofJsonWith? IsRecord.namedFields?

end ConsumerChange

/-! ## What is read back as it is -/

/-- A list is left as it is exactly if each of its items is. -/
theorem map_eq_self_iff {α : Type} {f : α → α} {l : List α} :
    l.map f = l ↔ ∀ a ∈ l, f a = a := by
  simpa using List.map_inj_left (f := f) (g := id) (l := l)

/-- A consumer is read back exactly if its position is. -/
theorem Consumer.asRead_eq_self_iff {c : Consumer} :
    c.asRead = c ↔ c.readFrom.LeapEndsMinute := by
  rw [← Timestamp.asRead_eq_self_iff]
  exact ⟨congrArg Consumer.readFrom, fun h => by rw [asRead, h]⟩

theorem DeclaredConsumer.asRead_eq_self_iff {c : DeclaredConsumer} :
    c.asRead = c ↔ ∀ t ∈ c.readFrom, t.LeapEndsMinute := by
  obtain ⟨name, codecs, readFrom⟩ := c
  cases readFrom with
  | none => simp [asRead]
  | some t => simp [asRead, Timestamp.asRead_eq_self_iff]

/-- A topic is read back exactly if the positions of its consumers are. -/
theorem Topic.asRead_eq_self_iff {t : Topic} :
    t.asRead = t ↔ ∀ c ∈ t.consumers, c.readFrom.LeapEndsMinute := by
  have hconsumers : t.asRead = t ↔ t.consumers.map Consumer.asRead = t.consumers :=
    ⟨congrArg Topic.consumers, fun h => by rw [asRead, h]⟩
  simp only [hconsumers, map_eq_self_iff, Consumer.asRead_eq_self_iff]

/-- A declaration is read back exactly if the positions that it gives are. -/
theorem DeclaredTopic.asRead_eq_self_iff {t : DeclaredTopic} :
    t.asRead = t ↔ ∀ c ∈ t.consumers, ∀ position ∈ c.readFrom, position.LeapEndsMinute := by
  have hconsumers : t.asRead = t ↔ t.consumers.map DeclaredConsumer.asRead = t.consumers :=
    ⟨congrArg DeclaredTopic.consumers, fun h => by rw [asRead, h]⟩
  simp only [hconsumers, map_eq_self_iff, DeclaredConsumer.asRead_eq_self_iff]

/-- A change is read back exactly if the position in it is, where there is one. -/
theorem ConsumerChange.asRead_eq_self_iff {change : ConsumerChange} :
    change.asRead = change ↔ ∀ t ∈ change.readFrom?, t.LeapEndsMinute := by
  cases change with
  | add c => simp [asRead, readFrom?, Consumer.asRead_eq_self_iff]
  | setReadFrom name t => simp [asRead, readFrom?, Timestamp.asRead_eq_self_iff]
  | setCodecs name codecs => simp [asRead, readFrom?]

end SchemaPlan
