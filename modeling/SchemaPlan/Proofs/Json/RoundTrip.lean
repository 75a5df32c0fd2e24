import SchemaPlan.Address.Json
import SchemaPlan.Proofs.Address.RoundTrip
import SchemaPlan.Proofs.Table.Json
import SchemaPlan.Proofs.Topic.Json

/-!
# Documents round-trip

`document_roundTrip` : the document of a table, of a topic, of any part of them and of a change of a
consumer is read back as what it was written of, but that a read position in a leap second that does
not end a minute is read as the second after it. Documents give no such positions, so what has been
read once is read back exactly. An address is written as its handle, so it is read back if its
handle is.
-/

namespace SchemaPlan

open Json

/-- An address that was made or read is read back from its document. -/
theorem Address.read?_toJson {a : Address} (h : a.Built) :
    (read? a.toJson.write).bind ofJson? = some a := by
  rw [toJson, read?_write (Value.onlyNaturals_string _), Option.bind_some, ofJson?,
    ofHandle_handle h.readable]
  rfl

/-- What is written as a document is read back from it: tables, topics as they are and as they are
declared, all their parts, changes of consumers, and the addresses that were made or read. What has
read positions is read back as it is exactly if none of them is a leap second inside a minute; such
a position is read as the second after it, with the same fraction, and no text gives one. -/
theorem document_roundTrip :
    ((∀ t : Table, (read? t.toJson.write).bind Table.ofJson? = some t) ∧
      (∀ c : Column, (read? c.toJson.write).bind Column.ofJson? = some c) ∧
      (∀ i : Index, (read? i.toJson.write).bind Index.ofJson? = some i) ∧
      (∀ f : Family, (read? f.toJson.write).bind Family.ofJson? = some f) ∧
      (∀ t : Ttl, (read? t.toJson.write).bind Ttl.ofJson? = some t) ∧
      (∀ p : Partitioning, (read? p.toJson.write).bind Partitioning.ofJson? = some p) ∧
      (∀ r : Replication, (read? r.toJson.write).bind Replication.ofJson? = some r) ∧
      ∀ f : Changefeed, (read? f.toJson.write).bind Changefeed.ofJson? = some f) ∧
    ((∀ s : TopicSettings, (read? s.toJson.write).bind TopicSettings.ofJson? = some s) ∧
      ∀ c : Codec, (read? c.toJson.write).bind Codec.ofJson? = some c) ∧
    ((∀ t : DeclaredTopic, (read? t.toJson.write).bind DeclaredTopic.ofJson? = some t.asRead ∧
        (t.asRead = t ↔
          ∀ c ∈ t.consumers, ∀ position ∈ c.readFrom, position.LeapEndsMinute)) ∧
      (∀ t : Topic, (read? t.toJson.write).bind Topic.ofJson? = some t.asRead ∧
        (t.asRead = t ↔ ∀ c ∈ t.consumers, c.readFrom.LeapEndsMinute)) ∧
      (∀ c : DeclaredConsumer,
        (read? c.toJson.write).bind DeclaredConsumer.ofJson? = some c.asRead ∧
        (c.asRead = c ↔ ∀ position ∈ c.readFrom, position.LeapEndsMinute)) ∧
      (∀ c : Consumer, (read? c.toJson.write).bind Consumer.ofJson? = some c.asRead ∧
        (c.asRead = c ↔ c.readFrom.LeapEndsMinute)) ∧
      ∀ c : ConsumerChange, (read? c.toJson.write).bind ConsumerChange.ofJson? = some c.asRead ∧
        (read? c.toJson.write).bind ConsumerChange.ofNamedJson? = some c.asRead ∧
        (c.asRead = c ↔ ∀ position ∈ c.readFrom?, position.LeapEndsMinute)) ∧
    ((∀ t : Timestamp, ¬t.LeapEndsMinute →
        t.asRead.seconds = t.seconds + 1 ∧ t.asRead.nanos = t.nanos - 1000000000) ∧
      ∀ text t, Timestamp.read? text = some t → t.LeapEndsMinute) ∧
    ∀ a : Address, a.Built → (read? a.toJson.write).bind Address.ofJson? = some a :=
  ⟨⟨Table.readsBack.read?, Column.readsBack.read?, Index.readsBack.read?, Family.readsBack.read?,
      Ttl.readsBack.read?, Partitioning.readsBack.read?, Replication.readsBack.read?,
      Changefeed.readsBack.read?⟩,
    ⟨TopicSettings.readsBack.read?, Codec.readsBack.read?⟩,
    ⟨fun t => ⟨DeclaredTopic.readsAs.read? t, DeclaredTopic.asRead_eq_self_iff⟩,
      fun t => ⟨Topic.readsAs.read? t, Topic.asRead_eq_self_iff⟩,
      fun c => ⟨DeclaredConsumer.readsAs.read? c, DeclaredConsumer.asRead_eq_self_iff⟩,
      fun c => ⟨Consumer.readsAs.read? c, Consumer.asRead_eq_self_iff⟩,
      fun c => ⟨ConsumerChange.readsAs.read? c, ConsumerChange.readsAs_named.read? c,
        ConsumerChange.asRead_eq_self_iff⟩⟩,
    ⟨fun _ h => ⟨Timestamp.seconds_asRead h, Timestamp.nanos_asRead h⟩,
      fun _ _ => Timestamp.leapEndsMinute_of_read?⟩,
    fun _ => Address.read?_toJson⟩

/-- A table in which much is said that says nothing: an empty partitioning beside an empty
replication, and a name with a quote, a control character and a character outside the first
plane. -/
def oddities : Table where
  path := "dir/\"odd\"\x01🐉"
  columns := [⟨"id", "Uint64", none, true⟩]
  primaryKey := ["id"]
  indexes := [⟨"by_id", .async, ["id"], ["id", "b", "a"]⟩]
  partitioning := some {}
  replication := some {}
  attributes := .ofList [("owner", ""), ("Owner", "\\")]

/-- The largest number of partitions. -/
def widest : Partitioning where
  maxPartitions := some 18446744073709551615
  splitPoints := [[], [""]]

/-- A quarter of a second into the leap second at the end of June 1972. -/
def firstLeapSecond : Timestamp :=
  ⟨78796799, 1250000000, by decide, by decide⟩

/-- Six tenths of a second into a leap second that does not end a minute. -/
def oddLeapSecond : Timestamp :=
  ⟨1800, 1600000000, by decide, by decide⟩

theorem document_roundTrip_oddities :
    (read? oddities.toJson.write).bind Table.ofJson? = some oddities ∧
    (read? widest.toJson.write).bind Partitioning.ofJson? = some widest ∧
    Timestamp.read? "1972-07-01T01:59:60.25+02:00" = some firstLeapSecond ∧
    (read? (Consumer.toJson ⟨"mail", [.zstd], firstLeapSecond⟩).write).bind Consumer.ofJson? =
      some ⟨"mail", [.zstd], firstLeapSecond⟩ ∧
    ¬oddLeapSecond.LeapEndsMinute ∧ oddLeapSecond.asRead.seconds = 1801 ∧
    Address.make "h:2135" true "/ru" "dir/odd" = .ok ⟨"h:2135", true, "/ru", "dir/odd"⟩ ∧
    (read? (Address.toJson ⟨"h:2135", true, "/ru", "dir/odd"⟩).write).bind Address.ofJson? =
      some ⟨"h:2135", true, "/ru", "dir/odd"⟩ := by
  obtain ⟨⟨htable, -, -, -, -, hpartitioning, -⟩, -, ⟨-, -, -, hconsumer, -⟩, ⟨hlater, htext⟩,
    haddress⟩ := document_roundTrip
  have hmade : Address.make "h:2135" true "/ru" "dir/odd" =
      .ok ⟨"h:2135", true, "/ru", "dir/odd"⟩ := rfl
  have hread : Timestamp.read? "1972-07-01T01:59:60.25+02:00" = some firstLeapSecond := by
    decide +kernel
  have hodd : ¬oddLeapSecond.LeapEndsMinute := by decide
  obtain ⟨hmail, hsame⟩ := hconsumer ⟨"mail", [.zstd], firstLeapSecond⟩
  refine ⟨htable oddities, hpartitioning widest, hread, ?_, hodd, (hlater _ hodd).1, hmade,
    haddress _ (.inl ⟨_, _, _, _, hmade⟩)⟩
  rw [hmail, hsame.2 (htext _ _ hread)]

/-- A consumer whose read position is a leap second inside a minute is read back with another
position. -/
theorem document_oddLeapSecond :
    oddLeapSecond.write = "1970-01-01T00:30:01.600Z" ∧
    (read? (Consumer.toJson ⟨"mail", [], oddLeapSecond⟩).write).bind Consumer.ofJson? ≠
      some ⟨"mail", [], oddLeapSecond⟩ := by
  refine ⟨by decide +kernel, ?_⟩
  rw [Consumer.readsAs.read?]
  decide

end SchemaPlan
