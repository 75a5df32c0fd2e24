import SchemaPlan.Planner
import SchemaPlan.Proofs.Address.RoundTrip
import SchemaPlan.Proofs.Plan.TopicConvergence
import SchemaPlan.Proofs.Topic.Resolution

/-!
# Topics that are created

`planTopic_settles` : a topic for which there is a plan to create it is, once it is there, confirmed
with a handle that names the address it was planned for, and planning for it again leaves only the
codecs of its consumers to be set, to what they are. The names that the new statements hold have
been written before, by the statement that created the topic, and a list of codecs can always be
written.
-/

namespace SchemaPlan

/-! ## What can be written -/

section Writing

open Ddl

/-- No codec has a character in its keyword that may not stand between quotes. -/
theorem exists_codecList (codecs : List Codec) : ∃ p, codecList codecs = .ok p := by
  have hadmitted : (",".intercalate (codecs.map Codec.keyword)).toList.all Quote.text.admits =
      true := by
    rw [String.toList_intercalate, List.map_map]
    refine Text.all_intercalate (by decide) (List.forall_mem_map.2 fun codec _ => ?_)
    cases codec <;> decide
  exact ⟨_, by rw [codecList, text, Quote.put, dif_pos hadmitted]; rfl⟩

/-- The statement that creates a topic holds the name of the topic and those of its consumers. -/
theorem exists_name_of_createTopic {t : Topic} {s : String}
    (h : (Operation.createTopic t).statement = .ok s) :
    (∃ p, name t.path = .ok p) ∧ ∀ c ∈ t.consumers, ∃ p, name c.name = .ok p := by
  simp only [Operation.statement, Operation.phrase, createTopic, map_eq_ok_iff, bind_eq_ok_iff,
    pure_eq_ok_iff] at h
  obtain ⟨_, ⟨path, hpath, definitions, hdefinitions, -⟩, -⟩ := h
  refine ⟨⟨path, hpath⟩, fun c hc => ?_⟩
  obtain ⟨definition, -, hdefinition⟩ := exists_mem_of_mapM hdefinitions hc
  simp only [consumerDefinition, bind_eq_ok_iff] at hdefinition
  obtain ⟨written, hwritten, -⟩ := hdefinition
  exact ⟨written, hwritten⟩

/-- Setting codecs can be written where the names can. -/
theorem exists_statement_setCodecs {topic consumer : String} {codecs : List Codec}
    (htopic : ∃ p, name topic = .ok p) (hconsumer : ∃ p, name consumer = .ok p)
    (hcodecs : codecs ≠ []) :
    ∃ s, (Operation.changeConsumer topic (.setCodecs consumer codecs)).statement = .ok s := by
  obtain ⟨path, hpath⟩ := htopic
  obtain ⟨written, hwritten⟩ := hconsumer
  obtain ⟨listed, hlisted⟩ := exists_codecList codecs
  have hsome : ¬codecs.isEmpty = true := by simpa using hcodecs
  have halter : alterTopicNamed topic = .ok (plain "ALTER TOPIC " ++ path) := by
    rw [alterTopicNamed, hpath]
    rfl
  have hentries : codecEntries codecs = .ok [setting "supported_codecs" listed] := by
    rw [codecEntries, if_neg hsome, hlisted]
    rfl
  simp only [Operation.statement, Operation.phrase, changeConsumer, map_eq_ok_iff,
    refuse_eq_ok_iff, bind_eq_ok_iff, pure_eq_ok_iff]
  exact ⟨_, _, ⟨_, halter, hsome, written, hwritten, _, hentries, rfl⟩, rfl⟩

end Writing

/-! ## Planning again -/

section Again

variable {table : CodecTable} {d : DeclaredTopic} {t : Topic} {operations : List Operation}

/-- An operation for each declared consumer with codecs, which sets them to those it has. -/
def RepeatsCodecs (d : DeclaredTopic) (t : Topic) (operations : List Operation) : Prop :=
  List.Forall₂ (fun c operation => ∃ o, consumersNamed c.name t.consumers = [o] ∧
      operation = .changeConsumer d.path (.setCodecs c.name o.codecs))
    (d.consumers.filter fun c => !c.codecs.isEmpty) operations

/-- For a topic that is as declared, the codecs of consumers are set once more and nothing else. -/
theorem topicOperations_of_resolve (h : d.resolve table = .ok t) :
    ∃ operations, topicOperations table d t = .ok operations ∧ RepeatsCodecs d t operations := by
  obtain ⟨hnames, hholds⟩ := holdsIn_of_resolve h
  obtain ⟨changes, hchanges, hrepeats⟩ := consumerChanges_of_holdsIn hnames hholds
  refine ⟨_, topicOperations_eq_ok_iff.2
    ⟨{}, topicDifference_of_settingsHold (settingsHold_of_resolve h), changes, hchanges, rfl⟩, ?_⟩
  rw [show (TopicSettings.isEmpty {}) = true from rfl, if_pos rfl, List.nil_append, RepeatsCodecs,
    List.forall₂_map_right_iff]
  have hfiltered : ∀ c ∈ d.consumers.filter fun c => !c.codecs.isEmpty,
      c.HoldsIn table t.consumers := fun c hc => hholds c (List.mem_filter.1 hc).1
  refine (List.forall₂_and_left _ _).2 ⟨hfiltered, hrepeats⟩ |>.imp fun c change hboth => ?_
  obtain ⟨⟨o, hnamed, -⟩, o', ho', hname, rfl⟩ := hboth
  have hmem : o' ∈ consumersNamed c.name t.consumers :=
    List.mem_filter.2 ⟨ho', decide_eq_true hname⟩
  rw [hnamed, List.mem_singleton] at hmem
  exact ⟨o, hnamed, hmem ▸ rfl⟩

/-- A consumer that codecs are declared for has codecs. -/
theorem DeclaredConsumer.HoldsIn.codecs_ne_nil {c : DeclaredConsumer} {consumers : List Consumer}
    {o : Consumer} (h : c.HoldsIn table consumers) (ho : consumersNamed c.name consumers = [o])
    (hc : c.codecs ≠ []) : o.codecs ≠ [] := by
  obtain ⟨o', ho', -, hcodecs⟩ := h
  obtain rfl : o = o' := List.singleton_inj.1 (ho.symm.trans ho')
  have hempty := CodecTable.isEmpty_of_lookupAll (hcodecs hc)
  rwa [← List.isEmpty_eq_false_iff, hempty, List.isEmpty_eq_false_iff]

/-- What sets codecs once more can be written if the creation of the topic can. -/
theorem exists_statements_of_repeatsCodecs (h : d.resolve table = .ok t) {s : String}
    (hs : (Operation.createTopic t).statement = .ok s)
    (hoperations : RepeatsCodecs d t operations) : ∃ ss, statements operations = .ok ss := by
  obtain ⟨hpath, hconsumers⟩ := exists_name_of_createTopic hs
  obtain ⟨-, hholds⟩ := holdsIn_of_resolve h
  obtain ⟨codecs, -, consumers, -, rfl⟩ := DeclaredTopic.resolve_eq_ok_iff.1 h
  have hdeclared : ∀ c ∈ d.consumers.filter fun c => !c.codecs.isEmpty,
      c.HoldsIn table consumers ∧ c.codecs ≠ [] := by
    intro c hc
    obtain ⟨hc, hlists⟩ := List.mem_filter.1 hc
    exact ⟨hholds c hc, by simpa using hlists⟩
  have hwritten : List.Forall₂ (fun operation _ => (∃ s, operation.statement = .ok s) ∧ True)
      operations (d.consumers.filter fun c => !c.codecs.isEmpty) := by
    refine ((List.forall₂_and_left _ _).2 ⟨hdeclared, hoperations⟩ |>.imp ?_).flip
    rintro c operation ⟨⟨hc, hlists⟩, o, hnamed, rfl⟩
    obtain ⟨hmem, hname⟩ := mem_of_consumersNamed hnamed
    exact ⟨exists_statement_setCodecs hpath (hname ▸ hconsumers o hmem)
      (hc.codecs_ne_nil hnamed hlists), trivial⟩
  exact exists_mapM_eq_ok ((List.forall₂_and_left _ _).1 hwritten).1

end Again

/-! ## Planners -/

section Planners

variable {planner : Planner Id} {a : Address} {declared : DeclaredTopic} {observed : Option Topic}
  {plan : Plan}

/-- A declaration is accepted exactly for its own path. -/
theorem checkPath_eq_ok_iff {path : String} :
    Planner.checkPath a path = .ok () ↔ a.path = path := by
  rw [Planner.checkPath]
  split
  · rename_i h
    exact iff_of_true rfl h
  · rename_i h
    exact iff_of_false (by simp) h

/-- Planning for an address compares the declaration with what the observer finds there. -/
theorem planTopic_eq_pure_iff (h : planner.observer.topic a.fullPath = .ok observed) :
    planner.planTopic a declared = pure plan ↔
      a.path = declared.path ∧ planTopic planner.codecs declared observed = .ok plan := by
  have hchain : planner.planTopic a declared =
      (liftM (do
        Planner.checkPath a declared.path
        planTopic planner.codecs declared observed) : ExceptT Error Id Plan) := by
    rw [Planner.planTopic, h]
    cases Planner.checkPath a declared.path with
    | error e => rfl
    | ok u => rfl
  rw [hchain, liftM_eq_pure_iff, bind_eq_ok_iff]
  simp only [← checkPath_eq_ok_iff]
  exact ⟨fun ⟨_, hcheck, hplan⟩ => ⟨hcheck, hplan⟩, fun ⟨hcheck, hplan⟩ => ⟨(), hcheck, hplan⟩⟩

/-- A topic that is observed is confirmed with its handle. -/
theorem confirmTopic_of_observed {t : Topic}
    (h : planner.observer.topic a.fullPath = .ok (some t)) :
    planner.confirmTopic a = pure a.handle := by
  rw [Planner.confirmTopic, h]
  rfl

/-- Where no topic is observed, the plan is the creation of the resolved one. -/
theorem planTopic_none_eq_create_iff {table : CodecTable} {s : String} :
    planTopic table declared none = .ok (.create s) ↔ declared.path.isEmpty = false ∧
      ∃ t, declared.resolve table = .ok t ∧ (Operation.createTopic t).statement = .ok s := by
  simp only [planTopic, refuse_eq_ok_iff, bind_eq_ok_iff, pure_eq_ok_iff, Plan.create.injEq,
    exists_eq_right, Bool.not_eq_true]

/-- Where a topic is observed, the plan is that of its operations. -/
theorem planTopic_some_eq_ok_iff {table : CodecTable} {t : Topic} :
    planTopic table declared (some t) = .ok plan ↔ declared.path.isEmpty = false ∧
      ∃ operations, topicOperations table declared t = .ok operations ∧
        Plan.ofOperations operations = .ok plan := by
  simp only [planTopic, refuse_eq_ok_iff, bind_eq_ok_iff, Bool.not_eq_true]

/-- Operations that can be written are a plan of their statements. -/
theorem ofOperations_of_statements {operations : List Operation} {ss : List String}
    (h : statements operations = .ok ss) :
    Plan.ofOperations operations = .ok (if ss.isEmpty then .upToDate else .alter ss) := by
  have hempty : operations.isEmpty = ss.isEmpty := by
    cases mapM_eq_ok_iff.1 h with
    | nil => rfl
    | cons _ _ => rfl
  rw [Plan.ofOperations, hempty, h]
  cases ss.isEmpty with
  | true => rfl
  | false => rfl

/-- Let there be nothing at an address, and let the plan for a topic there be to create it. Once the
topic that the declaration stands for is there, it is confirmed with a handle that names the
address, and the plan is to set, for each consumer that codecs are declared for, the codecs it has,
and nothing else : the topic is up to date if codecs are declared for no consumer. -/
theorem planTopic_settles {s : String} (ha : a.Built)
    (hnone : planner.observer.topic a.fullPath = .ok none)
    (hcreate : planner.planTopic a declared = pure (.create s)) :
    ∃ created, declared.resolve planner.codecs = .ok created ∧
      ∀ later : Observer Id, later.topic a.fullPath = .ok (some created) →
        (∃ handle, { planner with observer := later }.confirmTopic a = pure handle ∧
          Address.ofHandle handle = .ok a) ∧
        (∃ operations ss, RepeatsCodecs declared created operations ∧
          statements operations = .ok ss ∧
          { planner with observer := later }.planTopic a declared =
            pure (if ss.isEmpty then .upToDate else .alter ss)) ∧
        ((∀ c ∈ declared.consumers, c.codecs = []) →
          { planner with observer := later }.planTopic a declared = pure .upToDate) := by
  obtain ⟨hpath, hplan⟩ := (planTopic_eq_pure_iff hnone).1 hcreate
  obtain ⟨hnonempty, created, hresolve, hs⟩ := planTopic_none_eq_create_iff.1 hplan
  obtain ⟨operations, hoperations, hrepeats⟩ := topicOperations_of_resolve hresolve
  obtain ⟨ss, hss⟩ := exists_statements_of_repeatsCodecs hresolve hs hrepeats
  refine ⟨created, hresolve, fun later hlater => ?_⟩
  have hagain : ({ planner with observer := later } : Planner Id).planTopic a declared =
      pure (if ss.isEmpty then .upToDate else .alter ss) :=
    (planTopic_eq_pure_iff hlater).2 ⟨hpath, planTopic_some_eq_ok_iff.2
      ⟨hnonempty, operations, hoperations, ofOperations_of_statements hss⟩⟩
  refine ⟨⟨a.handle, confirmTopic_of_observed hlater, Address.ofHandle_handle ha.readable⟩,
    ⟨operations, ss, hrepeats, hss, hagain⟩, fun hunlisted => ?_⟩
  have hno : (declared.consumers.filter fun c => !c.codecs.isEmpty) = [] :=
    List.filter_eq_nil_iff.2 fun c hc => by simp [hunlisted c hc]
  rw [RepeatsCodecs, hno, List.forall₂_nil_left_iff] at hrepeats
  rw [hrepeats] at hss
  cases hss
  exact hagain

/-- A planner that finds nothing. -/
def emptyPlanner : Planner Id where
  observer := Store.observer {}

def feedAddress : Address := ⟨"h:2135", true, "/ru/b1g/etn", "feed"⟩

/-- The topic that `feedDeclared` stands for. -/
def feedCreated : Topic where
  path := "feed"
  retention := some "P2D"
  codecs := [.gzip, .raw]
  consumers := [⟨"mail", [.gzip], .epoch⟩, ⟨"search", [.raw, .gzip, .zstd], .epoch⟩]

def feedStatement : String :=
  "CREATE TOPIC `feed`(\n\tCONSUMER `mail` WITH (supported_codecs = \"GZIP\", " ++
  "read_from = Datetime(\"1970-01-01T00:00:00Z\")),\n" ++
  "\tCONSUMER `search` WITH (supported_codecs = \"RAW,GZIP,ZSTD\", " ++
  "read_from = Datetime(\"1970-01-01T00:00:00Z\"))\n)\nWITH (\n" ++
  "\tretention_period = Interval(\"P2D\"),\n\tsupported_codecs = \"GZIP,RAW\"\n)\n"

theorem statement_feedCreated :
    (Operation.createTopic feedCreated).statement = .ok feedStatement := by
  decide +kernel

/-- What is observed once the topic is there. -/
def feedObserver : Observer Id :=
  (({} : Store).putTopic feedAddress.fullPath feedCreated).observer

theorem planTopic_settles_feed :
    emptyPlanner.planTopic feedAddress feedDeclared = pure (.create feedStatement) ∧
    { emptyPlanner with observer := feedObserver }.confirmTopic feedAddress =
      pure "grpcs://h:2135/?database=/ru/b1g/etn&path=feed" ∧
    { emptyPlanner with observer := feedObserver }.planTopic feedAddress feedDeclared =
      pure (.alter
        ["ALTER TOPIC `feed` ALTER CONSUMER `mail` SET (supported_codecs = \"GZIP\")"]) := by
  have hbuilt : feedAddress.Built := .inl ⟨"h:2135", true, "/ru/b1g/etn", "feed", rfl⟩
  have hcreate : emptyPlanner.planTopic feedAddress feedDeclared = pure (.create feedStatement) :=
    (planTopic_eq_pure_iff rfl).2 ⟨rfl, planTopic_none_eq_create_iff.2
      ⟨rfl, feedCreated, rfl, statement_feedCreated⟩⟩
  obtain ⟨created, hresolve, hlater⟩ := planTopic_settles hbuilt rfl hcreate
  obtain rfl : feedCreated = created := Except.ok.inj hresolve
  obtain ⟨⟨handle, hconfirm, -⟩, ⟨operations, ss, hrepeats, hss, hagain⟩, -⟩ :=
    hlater feedObserver rfl
  have hrepeated : operations = [.changeConsumer "feed" (.setCodecs "mail" [.gzip])] := by
    cases hrepeats with
    | cons hmail hrest =>
      cases hrest
      obtain ⟨o, ho, rfl⟩ := hmail
      cases ho
      rfl
  subst hrepeated
  cases hss
  cases hconfirm
  exact ⟨hcreate, rfl, hagain⟩

end Planners

end SchemaPlan
