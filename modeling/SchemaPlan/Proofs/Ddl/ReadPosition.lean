import SchemaPlan.Ddl.ReadPosition
import SchemaPlan.Proofs.Ddl.Unambiguous
import SchemaPlan.Proofs.Topic.Reordering

/-!
# Read positions survive statements

`Says d texts` : in the pieces of the draft `d` the instants are `texts`, whatever stands around the
draft. It holds of a draft if it holds of its parts, and the words in front of other texts are not
the word of an instant, so a statement about a topic has the instants of its read positions
(`says_draft`). Each is read back as the whole second, but a leap second that does not end a minute
as the second after it, and `readPositions_survive` says what follows for positions that are given,
written and stored.
-/

namespace SchemaPlan

namespace Ddl

/-! ## The instants of a draft -/

/-- The instants of the draft, in front of anything and after anything, are `texts`. -/
def Says (d : Draft) (texts : List String) : Prop :=
  ∀ before ps, ∃ before',
    instantTexts before (pieces d ++ ps) = texts ++ instantTexts before' ps

variable {c d : Draft} {cs ds : List Draft} {us vs : List String} {uss : List (List String)}

theorem says_nil : Says [] [] :=
  fun before _ => ⟨before, rfl⟩

/-- The instants of two drafts stand one after the other. -/
theorem Says.append (hc : Says c us) (hd : Says d vs) : Says (c ++ d) (us ++ vs) := by
  intro before ps
  obtain ⟨between, hc⟩ := hc before (pieces d ++ ps)
  obtain ⟨before', hd⟩ := hd between ps
  exact ⟨before', by rw [pieces_append, List.append_assoc, hc, hd, List.append_assoc]⟩

/-- Characters outside regions add no instant. -/
theorem instantTexts_outside (before l : List Char) (ps : List Piece) :
    instantTexts before (l.map .outside ++ ps) = instantTexts (l.reverse ++ before) ps := by
  induction l generalizing before with
  | nil => rfl
  | cons c l ih =>
    rw [List.map_cons, List.cons_append, instantTexts, ih, List.reverse_cons, List.append_assoc,
      List.singleton_append]

theorem says_plain (text : String) : Says (plain text) [] := fun before ps =>
  ⟨text.toList.reverse ++ before, by rw [pieces_plain, instantTexts_outside, List.nil_append]⟩

theorem says_name (content : String) : Says (Draft.name content) [] :=
  fun _ _ => ⟨[], rfl⟩

/-- A text after a word that does not end in the word of an instant. -/
theorem says_plain_text (word content : String) (hword : ∀ before,
    instantWord.toList.reverse.isPrefixOf (word.toList.reverse ++ before) = false) :
    Says (plain word ++ Draft.text content) [] := by
  intro before ps
  refine ⟨[], ?_⟩
  rw [pieces_append, pieces_plain, pieces_text, List.append_assoc, instantTexts_outside,
    List.singleton_append, instantTexts, hword, if_neg (by simp)]

/-- A text after the word of an instant is one. -/
theorem says_instant (content : String) :
    Says (plain instantWord ++ Draft.text content) [content] := by
  intro before ps
  have hword : instantWord.toList.reverse.isPrefixOf (instantWord.toList.reverse ++ before) =
      true := List.isPrefixOf_iff_prefix.2 (List.prefix_append _ _)
  refine ⟨[], ?_⟩
  rw [pieces_append, pieces_plain, pieces_text, List.append_assoc, instantTexts_outside,
    List.singleton_append, instantTexts, hword, if_pos ⟨rfl, rfl⟩, String.ofList_toList]

theorem Says.flatten (h : List.Forall₂ Says ds uss) : Says ds.flatten uss.flatten := by
  induction h with
  | nil => exact says_nil
  | cons hd _ ih => exact hd.append ih

theorem Says.join (separator : String) (h : List.Forall₂ Says ds uss) :
    Says (join separator ds) uss.flatten := by
  cases h with
  | nil => exact says_nil
  | @cons d us ds uss hd h =>
    rw [join_cons, List.flatMap, List.flatten_cons]
    refine hd.append (flatten ?_)
    rw [List.forall₂_map_left_iff]
    exact h.imp fun _ _ hd => (says_plain separator).append hd

theorem Says.bracketed (h : List.Forall₂ Says ds uss) : Says (bracketed ds) uss.flatten := by
  have hsays := ((says_plain "(").append (join ", " h)).append (says_plain ")")
  rwa [List.nil_append, List.append_nil] at hsays

theorem Says.bracketBlock (h : List.Forall₂ Says ds uss) :
    Says (bracketBlock ds) uss.flatten := by
  have hlines : List.Forall₂ Says (ds.map fun entry => plain "\t" ++ entry) uss := by
    rw [List.forall₂_map_left_iff]
    exact h.imp fun _ _ hd => (says_plain "\t").append hd
  have hsays := ((says_plain "(\n").append (join ",\n" hlines)).append (says_plain "\n)")
  rwa [List.nil_append, List.append_nil] at hsays

theorem Says.withBlock (h : List.Forall₂ Says ds uss) : Says (withBlock ds) uss.flatten := by
  cases h with
  | nil => exact says_nil
  | cons hd h => exact (says_plain "\nWITH ").append (bracketBlock (.cons hd h))

/-! ## Statements about topics -/

/-- A read position is said as the text of its second. -/
theorem says_readFrom (t : Timestamp) : Says (Draft.readFrom t) [t.writeSeconds] :=
  (says_plain "read_from = ").append ((says_instant t.writeSeconds).append (says_plain ")"))

theorem says_period (key period : String) :
    Says (setting key (Draft.interval period)) [] :=
  (says_plain (key ++ " = ")).append
    ((says_plain_text "Interval(" period fun _ => rfl).append (says_plain ")"))

theorem says_codecs (codecs : List Codec) :
    List.Forall₂ Says (Draft.codecs codecs) ((Draft.codecs codecs).map fun _ => []) := by
  unfold Draft.codecs
  split
  · exact .nil
  · exact .cons (says_plain_text ("supported_codecs" ++ " = ") _ fun _ => rfl) .nil

theorem flatten_map_nil {α β : Type} (l : List α) :
    (l.map fun _ => ([] : List β)).flatten = [] := by
  simp

/-- The definition of a consumer says its read position. -/
theorem says_consumer (c : Consumer) : Says (Draft.consumer c) [c.readFrom.writeSeconds] := by
  have hentries := Says.bracketed (List.rel_append (says_codecs c.codecs)
    (.cons (says_readFrom c.readFrom) .nil))
  rw [List.flatten_append, flatten_map_nil] at hentries
  exact (((says_plain "CONSUMER ").append (says_name c.name)).append (says_plain " WITH ")).append
    hentries

theorem says_topic (s : TopicSettings) :
    List.Forall₂ Says (Draft.topic s) ((Draft.topic s).map fun _ => []) := by
  rw [Draft.topic, List.map_append, List.map_append]
  refine List.rel_append (List.rel_append ?_ ?_) (says_codecs s.codecs)
  · cases s.partitions with
    | none => exact .nil
    | some n => exact .cons ((says_plain _).append (says_plain _)) .nil
  · cases s.retention with
    | none => exact .nil
    | some period => exact .cons (says_period _ period) .nil

/-- The change of a consumer says the read positions that it gives. -/
theorem says_changeConsumer (topic : String) (change : ConsumerChange) :
    Says (Draft.changeConsumer topic change)
      ((Operation.changeConsumer topic change).readPositions.map Timestamp.writeSeconds) := by
  have halter : Says (Draft.alterTopic topic) [] := (says_plain _).append (says_name topic)
  cases change with
  | add c => exact (halter.append (says_plain _)).append (says_consumer c)
  | setReadFrom name position =>
    exact (((halter.append (says_plain _)).append (says_name name)).append (says_plain _)).append
      (.bracketed (.cons (says_readFrom position) .nil))
  | setCodecs name codecs =>
    have hentries := Says.bracketed (says_codecs codecs)
    rw [flatten_map_nil] at hentries
    exact (((halter.append (says_plain _)).append (says_name name)).append (says_plain _)).append
      hentries

/-- The creation of a topic says the read positions of its consumers. -/
theorem says_createTopic (t : Topic) : Says (Draft.createTopic t)
    ((Operation.createTopic t).readPositions.map Timestamp.writeSeconds) := by
  have hconsumers : Says
      (if t.consumers.isEmpty then [] else bracketBlock (t.consumers.map Draft.consumer))
      ((t.consumers.map Consumer.readFrom).map Timestamp.writeSeconds) := by
    split
    · rename_i hempty
      rw [List.isEmpty_iff.1 hempty]
      exact says_nil
    · have hentries : List.Forall₂ Says (t.consumers.map Draft.consumer)
          (t.consumers.map fun c => [c.readFrom.writeSeconds]) := by
        rw [List.forall₂_map_left_iff, List.forall₂_map_right_iff, List.forall₂_same]
        exact fun c _ => says_consumer c
      have hblock := Says.bracketBlock hentries
      rwa [← List.flatMap_def, ← List.map_eq_flatMap, ← Function.comp_def Timestamp.writeSeconds,
        ← List.map_map] at hblock
  have hsettings := Says.withBlock (says_topic ⟨t.partitions, t.retention, t.codecs⟩)
  rw [flatten_map_nil] at hsettings
  have hsays := ((((says_plain "CREATE TOPIC ").append (says_name t.path)).append
    hconsumers).append hsettings).append (says_plain "\n")
  rwa [List.nil_append, List.nil_append, List.append_nil, List.append_nil] at hsays

/-- The instants of a statement about a topic are those of its read positions. -/
theorem says_draft {operation : Operation} (h : operation.isAboutTopic = true) :
    Says operation.draft (operation.readPositions.map Timestamp.writeSeconds) := by
  cases operation with
  | createTopic topic => exact says_createTopic topic
  | alterTopic topic settings =>
    have hentries := Says.bracketed (says_topic settings)
    rw [flatten_map_nil] at hentries
    exact (((says_plain "ALTER TOPIC ").append (says_name topic)).append
      (says_plain " SET ")).append hentries
  | changeConsumer topic change => exact says_changeConsumer topic change
  | _ => cases h

/-- The instants of a statement about a topic are read as what it says of the read positions that
the operation gives. -/
theorem storedPositions?_statement {operation : Operation} {s : String}
    (hs : operation.statement = .ok s) (h : operation.isAboutTopic = true) :
    storedPositions? s = some (operation.readPositions.map Timestamp.written) := by
  obtain ⟨before, htexts⟩ := says_draft h [] []
  rw [List.append_nil, instantTexts, List.append_nil] at htexts
  rw [storedPositions?, (regions?_statement hs).1]
  simp only [Option.bind_eq_bind, Option.bind_some, htexts]
  exact mapM_map_eq_some fun t _ => Timestamp.read?_writeSeconds t

end Ddl

/-! ## Positions that can be written -/

namespace Timestamp

theorem admits_of_isDigit {c : Char} (h : c.isDigit = true) : Ddl.Quote.text.admits c = true := by
  have hback : c ≠ '\\' := by
    rintro rfl
    cases h
  have hcontrol : Text.isControl c = false := by
    simp only [Char.isDigit, Bool.and_eq_true, decide_eq_true_eq, UInt32.le_iff_toNat_le] at h
    have hlow : 48 ≤ c.toNat := h.1
    have hhigh : c.toNat ≤ 57 := h.2
    simp only [Text.isControl, Bool.or_eq_false_iff, Bool.and_eq_false_iff, decide_eq_false_iff_not]
    omega
  simp only [Ddl.Quote.admits, hback, hcontrol, ne_eq, not_false_eq_true, decide_true,
    Bool.not_false, Bool.and_self]

/-- What is written of an instant may stand between quotes. -/
theorem admits_writeSeconds (t : Timestamp) :
    ∀ c ∈ t.writeSeconds.toList, Ddl.Quote.text.admits c = true := by
  have hpadded : ∀ width n, ∀ c ∈ Decimal.padded width n, Ddl.Quote.text.admits c = true :=
    fun _ _ _ hc => admits_of_isDigit (Decimal.isDigit_of_mem_padded hc)
  have hyear : ∀ c ∈ writeYear t.date.year, Ddl.Quote.text.admits c = true := by
    unfold writeYear
    split
    · exact List.forall_mem_cons.2 ⟨rfl, hpadded _ _⟩
    · split
      · exact hpadded _ _
      · exact List.forall_mem_cons.2 ⟨rfl, hpadded _ _⟩
  rw [writeSeconds, String.toList_ofList, chars, writeDate, writeTime]
  simp only [List.forall_mem_append, List.forall_mem_cons, Bool.false_eq_true, if_false]
  exact ⟨⟨⟨⟨⟨hyear, rfl, hpadded _ _⟩, rfl, hpadded _ _⟩, rfl, ⟨hpadded _ _, rfl, hpadded _ _⟩, rfl,
    hpadded _ _⟩, List.forall_mem_nil _⟩, rfl, List.forall_mem_nil _⟩

end Timestamp

namespace Ddl

/-- A name can be written if all its characters may stand between the quotes. -/
theorem exists_name {content : String} (h : content.toList.all Quote.name.admits = true) :
    ∃ p, name content = .ok p :=
  ⟨_, by rw [name, Quote.put, dif_pos h]; rfl⟩

/-- Every instant can be written. -/
theorem exists_datetime (t : Timestamp) : ∃ p, datetime t = .ok p :=
  ⟨_, by rw [datetime, text, Quote.put, dif_pos (List.all_eq_true.2 t.admits_writeSeconds)]; rfl⟩

end Ddl

section SetReadFrom

variable {topic consumer : String} (htopic : topic.toList.all Ddl.Quote.name.admits = true)
  (hconsumer : consumer.toList.all Ddl.Quote.name.admits = true)

include htopic hconsumer

/-- Setting a read position can be written, whatever the position is. -/
theorem exists_statement_setReadFrom (t : Timestamp) :
    ∃ s, (Operation.changeConsumer topic (.setReadFrom consumer t)).statement = .ok s := by
  obtain ⟨p, hp⟩ := Ddl.exists_name htopic
  obtain ⟨q, hq⟩ := Ddl.exists_name hconsumer
  obtain ⟨r, hr⟩ := Ddl.exists_datetime t
  simp only [Operation.statement, Operation.phrase, Ddl.changeConsumer, Ddl.alterTopicNamed, hp, hq,
    Ddl.readFromEntry, hr]
  exact ⟨_, rfl⟩

/-- Two positions are written alike exactly if they are read back alike. -/
theorem statement_setReadFrom_eq_iff (t u : Timestamp) :
    (Operation.changeConsumer topic (.setReadFrom consumer t)).statement =
        (Operation.changeConsumer topic (.setReadFrom consumer u)).statement ↔
      t.written = u.written := by
  constructor
  · intro hsame
    obtain ⟨s, hs⟩ := exists_statement_setReadFrom htopic hconsumer t
    have hstored := Ddl.storedPositions?_statement hs rfl
    rw [Ddl.storedPositions?_statement (hsame ▸ hs) rfl] at hstored
    exact (List.singleton_inj.1 (Option.some.inj hstored)).symm
  · intro hsaid
    have hwritten : ∀ t, (Operation.changeConsumer topic (.setReadFrom consumer t)).written =
        .changeConsumer topic (.setReadFrom consumer t.written) := fun _ => rfl
    rw [← statement_written, hwritten, hsaid, ← hwritten, statement_written]

end SetReadFrom

/-- Changing the read positions of an operation changes those that it gives. -/
theorem readPositions_mapReadPositions (f : Timestamp → Timestamp) (operation : Operation) :
    (operation.mapReadPositions f).readPositions = operation.readPositions.map f := by
  cases operation with
  | createTopic topic =>
    simp only [Operation.mapReadPositions, Operation.readPositions, List.map_map]
    rfl
  | changeConsumer topic change => cases change <;> rfl
  | _ => rfl

/-! ## Positions that are stored -/

/-- The effective position of a declaration that gives one. -/
theorem effectiveReadFrom_eq {c : DeclaredConsumer} {t : Timestamp} (h : c.readFrom = some t) :
    c.effectiveReadFrom = t.effective := by
  rw [DeclaredConsumer.effectiveReadFrom, h]
  rfl

namespace Timestamp

/-- The effective position is read back as itself unless it is a leap second inside a minute. -/
theorem written_eq_effective_iff {t : Timestamp} : t.written = t.effective ↔ t.LeapEndsMinute :=
  t.written_eq_wholeSeconds_iff

/-- What is stored is what the statement says of the position that was given. -/
theorem StoredAs.eq_written {t position : Timestamp} (h : t.StoredAs position) :
    position = t.written := by
  obtain ⟨operation, s, habout, hpositions, hs, hstored⟩ := h
  rw [Ddl.storedPositions?_statement hs habout, hpositions] at hstored
  exact (List.singleton_inj.1 (Option.some.inj hstored)).symm

/-- Every position can be given, and is stored as a statement says it. -/
theorem storedAs_written (t : Timestamp) : t.StoredAs t.written := by
  obtain ⟨s, hs⟩ := @exists_statement_setReadFrom "feed" "mail" rfl rfl t
  exact ⟨_, s, rfl, rfl, hs, Ddl.storedPositions?_statement hs rfl⟩

end Timestamp

/-- For a consumer whose position is stored as it was declared, a position is set only if the
declared one is a leap second inside a minute. The stored one is then the second after it, and the
effective one is set again. -/
theorem setReadFrom_mem_consumerChanges_iff {table : CodecTable} {declared : List DeclaredConsumer}
    {observed : List Consumer} {changes : List ConsumerChange} {c : DeclaredConsumer}
    {t : Timestamp} (h : consumerChanges table declared observed = .ok changes) (hc : c ∈ declared)
    (ht : c.readFrom = some t) (hstored : ∀ o ∈ observed, o.name = c.name → t.StoredAs o.readFrom)
    (position : Timestamp) : .setReadFrom c.name position ∈ changes ↔
      position = t.effective ∧ ¬t.LeapEndsMinute ∧ c.name ∈ observed.map Consumer.name := by
  have hnamed : .setReadFrom c.name position ∈ changes ↔
      .setReadFrom c.name position ∈ changesNamed c.name changes := by
    simp [changesNamed, ConsumerChange.consumer]
  have hblock := changesFor_eq_changesNamed h hc
  rw [hnamed]
  cases hlast : lastNamed? Consumer.name c.name observed with
  | none =>
    obtain ⟨codecs, -, hadd⟩ := changesFor_of_lastNamed?_eq_none hlast hblock
    rw [hadd]
    exact iff_of_false (by simp) fun h => not_mem_names_of_lastNamed? hlast h.2.2
  | some o =>
    have hmem := mem_of_lastNamed? hlast
    have hname := name_of_lastNamed? hlast
    have hthere : c.name ∈ observed.map Consumer.name := hname ▸ List.mem_map_of_mem hmem
    simp only [changesFor, hlast, changesOf_eq_ok_iff, effectiveReadFrom_eq ht,
      (hstored o hmem hname).eq_written] at hblock
    obtain ⟨codecs, -, hblock⟩ := hblock
    have hcodecs : .setReadFrom c.name position ∉
        (if codecs.isEmpty then [] else [ConsumerChange.setCodecs c.name codecs]) := by
      split <;> simp
    rw [hblock, List.mem_append, or_iff_left hcodecs]
    by_cases hleap : t.LeapEndsMinute
    · rw [if_pos (Timestamp.written_eq_effective_iff.2 hleap).symm]
      simp [hleap]
    · rw [if_neg (mt Eq.symm (Timestamp.written_eq_effective_iff.not.2 hleap)),
        List.mem_singleton]
      simp [hleap, hthere]

/-! ## All positions -/

/-- What statements make of read positions. The instants of a statement about a topic are read back
as what it says of the positions that its operation gives : their effective values, but for a leap
second that does not end a minute the second after it. An operation has the statement of the
operation with the effective positions, and operations with one statement are read back alike.
Every position can be written, and two are written alike exactly if they are read back alike. Where
the stored position of a consumer is the one in such a statement for the declared position, a
position is set exactly if the declared one is a leap second inside a minute. -/
theorem readPositions_survive :
    (∀ (operation : Operation) (s : String), operation.isAboutTopic = true →
      operation.statement = .ok s →
        Ddl.storedPositions? s = some (operation.readPositions.map Timestamp.written)) ∧
    (∀ t : Timestamp, (t.written = t.effective ↔ t.LeapEndsMinute) ∧
      (¬t.LeapEndsMinute → t.written.seconds = t.seconds + 1 ∧ t.written.nanos = 0)) ∧
    (∀ operation : Operation,
      (operation.mapReadPositions Timestamp.effective).readPositions =
          operation.readPositions.map Timestamp.effective ∧
        (operation.mapReadPositions Timestamp.effective).statement = operation.statement) ∧
    (∀ (a b : Operation) (s : String), a.isAboutTopic = true → b.isAboutTopic = true →
      a.statement = .ok s → b.statement = .ok s →
        a.readPositions.map Timestamp.written = b.readPositions.map Timestamp.written) ∧
    (∀ topic consumer : String, topic.toList.all Ddl.Quote.name.admits = true →
      consumer.toList.all Ddl.Quote.name.admits = true →
        (∀ t, ∃ s, (Operation.changeConsumer topic (.setReadFrom consumer t)).statement = .ok s) ∧
        ∀ t u, (Operation.changeConsumer topic (.setReadFrom consumer t)).statement =
            (Operation.changeConsumer topic (.setReadFrom consumer u)).statement ↔
          t.written = u.written) ∧
    ∀ (table : CodecTable) (declared : List DeclaredConsumer) (observed : List Consumer) changes,
      consumerChanges table declared observed = .ok changes → ∀ c ∈ declared, ∀ t,
        c.readFrom = some t → (∀ o ∈ observed, o.name = c.name → t.StoredAs o.readFrom) →
          ∀ position, .setReadFrom c.name position ∈ changes ↔
            position = t.effective ∧ ¬t.LeapEndsMinute ∧ c.name ∈ observed.map Consumer.name := by
  refine ⟨fun operation s habout hs => Ddl.storedPositions?_statement hs habout,
    fun t => ⟨Timestamp.written_eq_effective_iff, fun ht =>
      ⟨Timestamp.seconds_written ht, Timestamp.nanos_written ht⟩⟩,
    fun operation => ⟨readPositions_mapReadPositions _ operation,
      statement_mapReadPositions Timestamp.writeSeconds_wholeSeconds operation⟩, ?_,
    fun topic consumer htopic hconsumer => ⟨exists_statement_setReadFrom htopic hconsumer,
      statement_setReadFrom_eq_iff htopic hconsumer⟩,
    fun table declared observed changes h c hc t ht hstored =>
      setReadFrom_mem_consumerChanges_iff h hc ht hstored⟩
  intro a b s ha hb has hbs
  have hread := Ddl.storedPositions?_statement has ha
  rw [Ddl.storedPositions?_statement hbs hb] at hread
  exact (Option.some.inj hread).symm

/-- Half a second into a leap second, before 1970. -/
def leapBeforeEpoch : Timestamp :=
  ⟨-1, 1500000000, by decide, by decide⟩

/-- A nanosecond into the year 10000. -/
def afterYear9999 : Timestamp :=
  ⟨253402300800, 1, by decide, by decide⟩

/-- A topic read from both instants. -/
def oddlyRead : Operation :=
  .createTopic { path := "feed", consumers := [⟨"mail", [.raw], leapBeforeEpoch⟩,
    ⟨"audit", [], afterYear9999⟩] }

/-- The statement that creates the topic. -/
def oddlyReadStatement : String :=
  "CREATE TOPIC `feed`(\n" ++
  "\tCONSUMER `mail` WITH (supported_codecs = \"RAW\", " ++
  "read_from = Datetime(\"1969-12-31T23:59:60Z\")),\n" ++
  "\tCONSUMER `audit` WITH (read_from = Datetime(\"+10000-01-01T00:00:00Z\"))\n" ++
  ")\n"

theorem statement_oddlyRead : oddlyRead.statement = .ok oddlyReadStatement := by
  decide +kernel

/-- A consumer that is declared to read from the leap second. -/
def mailAtLeap : DeclaredConsumer :=
  { name := "mail", codecs := ["gzip"], readFrom := some leapBeforeEpoch }

/-- The consumer as it is stored. -/
def mailStored : Consumer :=
  ⟨"mail", [.raw], leapBeforeEpoch.wholeSeconds⟩

theorem leapEndsMinute_leapBeforeEpoch : leapBeforeEpoch.LeapEndsMinute := by
  decide

/-- A leap second that ends a minute and an instant after the year 9999 are said as their seconds,
and a consumer that is stored so keeps its position. -/
theorem readPositions_survive_leap :
    Ddl.storedPositions? oddlyReadStatement =
        some [leapBeforeEpoch.wholeSeconds, afterYear9999.wholeSeconds] ∧
      (oddlyRead.mapReadPositions Timestamp.effective).statement = .ok oddlyReadStatement ∧
      (Operation.changeConsumer "feed" (.setReadFrom "mail" leapBeforeEpoch)).statement ≠
        (Operation.changeConsumer "feed" (.setReadFrom "mail" .epoch)).statement ∧
      consumerChanges .standard [mailAtLeap] [mailStored] = .ok [.setCodecs "mail" [.gzip]] ∧
      ∀ position, .setReadFrom "mail" position ∉ [ConsumerChange.setCodecs "mail" [.gzip]] := by
  obtain ⟨hstored, hwritten, hsame, -, hnames, hchanges⟩ := readPositions_survive
  have hplan : consumerChanges .standard [mailAtLeap] [mailStored] =
      .ok [.setCodecs "mail" [.gzip]] := by
    rfl
  refine ⟨(hstored _ _ rfl statement_oddlyRead).trans (by decide),
    (hsame oddlyRead).2.trans statement_oddlyRead, fun hsame => ?_, hplan, fun position hset => ?_⟩
  · have hread := ((hnames "feed" "mail" rfl rfl).2 _ _).1 hsame
    revert hread
    decide
  · refine ((hchanges _ _ _ _ hplan mailAtLeap (List.mem_singleton_self _) leapBeforeEpoch rfl
      ?_ position).1 hset).2.1 leapEndsMinute_leapBeforeEpoch
    intro o ho _
    have hread : leapBeforeEpoch.written = mailStored.readFrom :=
      (hwritten leapBeforeEpoch).1.2 leapEndsMinute_leapBeforeEpoch
    rw [List.mem_singleton.1 ho, ← hread]
    exact leapBeforeEpoch.storedAs_written

/-- Three tenths of a second into a leap second that does not end a minute. -/
def leapInsideMinute : Timestamp :=
  ⟨5400, 1300000000, by decide, by decide⟩

/-- The second after it. -/
def afterLeapInsideMinute : Timestamp :=
  { Timestamp.epoch with seconds := 5401, seconds_bounds := by decide }

/-- A leap second that does not end a minute is read back as the second after it. Where that is
stored, the position is set once more. -/
theorem storedPositions_leapInsideMinute :
    (Operation.changeConsumer "feed" (.setReadFrom "mail" leapInsideMinute)).statement =
      .ok ("ALTER TOPIC `feed` " ++
        "ALTER CONSUMER `mail` SET (read_from = Datetime(\"1970-01-01T01:30:01Z\"))") ∧
    Timestamp.read? "1970-01-01T01:30:01Z" = some afterLeapInsideMinute ∧
    leapInsideMinute.effective ≠ afterLeapInsideMinute ∧
    consumerChanges .standard [{ name := "mail", readFrom := some leapInsideMinute }]
      [⟨"mail", [.raw], afterLeapInsideMinute⟩] =
        .ok [.setReadFrom "mail" leapInsideMinute.effective] := by
  decide +kernel

end SchemaPlan
