import SchemaPlan.Proofs.Topic.Resolution
import SchemaPlan.Topic.Mention

/-!
# The first mention that is refused

Looking a codec up finds the one that the text denotes, if it is in the table
(`CodecTable.lookup_eq_ok_iff`), so lists of names are read as `CodecTable.Reads` says. A
declaration is resolved step by step in the order of its mentions, and the first step that fails is
the one at the first mention that is refused : `StopsAt` says so of one step, `StopsAt.bind` and
`refusal?_append` of two in a row, and `DeclaredTopic.resolve_stopsAt` of the whole declaration. If
a codec is unknown, that mention is the first unknown codec, or a consumer that has been mentioned
twice before it (`refusal?_of_first_unknown`).
-/

namespace SchemaPlan

variable {table : CodecTable}

/-! ## Looking up codecs -/

namespace Codec

theorem ofName?_eq_some_iff {name : String} {codec : Codec} :
    ofName? name = some codec ↔ codec.name = name := by
  constructor
  · intro h
    simpa using List.find?_some h
  · rintro rfl
    cases codec <;> rfl

theorem ofText?_eq_some_iff {text : String} {codec : Codec} :
    ofText? text = some codec ↔ codec.DenotedBy text := by
  rw [ofText?, ofName?_eq_some_iff, DenotedBy, ← String.toList_inj, String.toList_ofList]

end Codec

namespace CodecTable

variable {name : String} {names : List String} {codec : Codec} {codecs : List Codec} {e : Error}

/-- A name is looked up as the codec of the table that it denotes. -/
theorem lookup_eq_ok_iff :
    table.lookup name = .ok codec ↔ codec ∈ table.allowed ∧ codec.DenotedBy name := by
  rw [← Codec.ofText?_eq_some_iff, lookup]
  cases h : Codec.ofText? name with
  | none => simp
  | some found =>
    by_cases hallowed : found ∈ table.allowed
    · simp only [if_pos hallowed, Except.ok.injEq, Option.some.injEq]
      exact ⟨by rintro rfl; exact ⟨hallowed, rfl⟩, And.right⟩
    · simp only [if_neg hallowed, Option.some.injEq, reduceCtorEq, false_iff, not_and]
      rintro hcodec rfl
      exact hallowed hcodec

/-- Codecs that have been looked up are those of the names, one for each. -/
theorem denotedBy_of_lookupAll (h : table.lookupAll names = .ok codecs) :
    List.Forall₂ (fun name codec => codec.DenotedBy name) names codecs :=
  (mapM_eq_ok_iff.1 h).imp fun _ _ hcodec => (lookup_eq_ok_iff.1 hcodec).2

theorem allowed_of_lookupAll (h : table.lookupAll names = .ok codecs) :
    ∀ codec ∈ codecs, codec ∈ table.allowed := by
  intro codec hcodec
  obtain ⟨name, -, hname⟩ := exists_of_mem_mapM h hcodec
  exact (lookup_eq_ok_iff.1 hname).1

/-- Names are looked up as their codecs, and no names as all codecs of the table. -/
theorem reads_of_lookupOrAll (h : table.lookupOrAll names = .ok codecs) :
    table.Reads names codecs := by
  cases names with
  | nil =>
    cases h
    exact .all
  | cons name names => exact .listed (List.cons_ne_nil _ _) (denotedBy_of_lookupAll h)

theorem allowed_of_lookupOrAll (h : table.lookupOrAll names = .ok codecs) :
    ∀ codec ∈ codecs, codec ∈ table.allowed := by
  cases names with
  | nil =>
    cases h
    exact fun _ hcodec => hcodec
  | cons name names => exact allowed_of_lookupAll h

end CodecTable

/-! ## Refusals -/

/-- The step stops exactly if there is a mention to refuse, and then with the error for it. -/
inductive StopsAt {α : Type} (path : String) : Except Error α → Option Mention → Prop
  | goesOn (a : α) : StopsAt path (.ok a) none
  | stops (m : Mention) : StopsAt path (.error (m.error path)) (some m)

/-- Two steps stop where the first one does, or else where the second one does. -/
theorem StopsAt.bind {α β : Type} {path : String} {x : Except Error α} {f : α → Except Error β}
    {m m' : Option Mention} (h : StopsAt path x m) (hnext : ∀ a, StopsAt path (f a) m') :
    StopsAt path (x >>= f) (m.or m') := by
  cases h with
  | goesOn a => exact hnext a
  | stops m => exact .stops m

theorem StopsAt.eq_error {α : Type} {path : String} {x : Except Error α} {m : Mention}
    (h : StopsAt path x (some m)) : x = .error (m.error path) := by
  cases h
  rfl

namespace CodecTable

variable {path : String} {seen : List String}

/-- The first refusal is that of the first mentions, or else that of the rest after them. -/
theorem refusal?_append (seen : List String) (mentions rest : List Mention) :
    table.refusal? seen (mentions ++ rest) = (table.refusal? seen mentions).or
      (table.refusal? ((mentionedConsumers mentions).reverse ++ seen) rest) := by
  induction mentions generalizing seen with
  | nil => rfl
  | cons m mentions ih =>
    cases m with
    | codec name =>
      rw [List.cons_append, refusal?, refusal?]
      split
      · rfl
      · exact ih seen
    | consumer name =>
      rw [List.cons_append, refusal?, refusal?]
      split
      · rfl
      · rw [ih, mentionedConsumers, List.reverse_cons, List.append_assoc]
        rfl

theorem mentionedConsumers_map_codec (names : List String) :
    mentionedConsumers (names.map .codec) = [] := by
  induction names with
  | nil => rfl
  | cons _ _ ih => exact ih

/-- A codec is not found exactly if it is unknown. -/
theorem lookup_stopsAt (name : String) : StopsAt path (table.lookup name)
    (if table.Unknown name then some (.codec name) else none) := by
  cases h : table.lookup name with
  | ok codec =>
    obtain ⟨hallowed, hdenoted⟩ := lookup_eq_ok_iff.1 h
    rw [if_neg fun hunknown => hunknown codec hallowed hdenoted]
    exact .goesOn codec
  | error e =>
    have hunknown : table.Unknown name := fun codec hallowed hdenoted => by
      rw [lookup_eq_ok_iff.2 ⟨hallowed, hdenoted⟩] at h
      cases h
    rw [if_pos hunknown, eq_unknownCodec_of_lookup h]
    exact .stops (.codec name)

/-- Looking names up stops at the first one that is unknown. -/
theorem lookupAll_stopsAt (seen names : List String) :
    StopsAt path (table.lookupAll names) (table.refusal? seen (names.map .codec)) := by
  induction names with
  | nil => exact .goesOn []
  | cons name names ih =>
    have hrefusal : table.refusal? seen ((name :: names).map .codec) =
        (if table.Unknown name then some (.codec name) else none).or
          ((table.refusal? seen (names.map .codec)).or none) := by
      rw [List.map_cons, refusal?]
      split <;> simp
    rw [hrefusal, lookupAll, List.mapM_cons]
    exact (lookup_stopsAt name).bind fun codec => ih.bind fun codecs => .goesOn (codec :: codecs)

theorem lookupOrAll_stopsAt (seen names : List String) :
    StopsAt path (table.lookupOrAll names) (table.refusal? seen (names.map .codec)) := by
  cases names with
  | nil => exact .goesOn table.allowed
  | cons name names => exact lookupAll_stopsAt seen (name :: names)

end CodecTable

/-- Declared consumers are resolved up to the first mention that is refused. -/
theorem DeclaredConsumer.resolveAll_stopsAt {path : String} (seen : List String)
    (consumers : List DeclaredConsumer) :
    StopsAt path (resolveAll table (fun name => .rejected (.duplicateTopicConsumer path name)) seen
      consumers) (table.refusal? seen (consumers.flatMap mentions)) := by
  induction consumers generalizing seen with
  | nil => exact .goesOn []
  | cons c consumers ih =>
    rw [List.flatMap_cons, mentions, List.cons_append, CodecTable.refusal?, resolveAll]
    split
    · exact .stops (.consumer c.name)
    · rw [CodecTable.refusal?_append, CodecTable.mentionedConsumers_map_codec, List.reverse_nil,
        List.nil_append, ← Option.or_none (o := table.refusal? (c.name :: seen) (c.codecs.map _)),
        ← Option.or_none (o := table.refusal? (c.name :: seen) (consumers.flatMap _))]
      refine StopsAt.bind ?_ fun consumer => (ih _).bind fun rest => .goesOn (consumer :: rest)
      exact (CodecTable.lookupOrAll_stopsAt _ c.codecs).bind fun codecs => .goesOn _

/-- A declaration is resolved up to the first mention that is refused. -/
theorem DeclaredTopic.resolve_stopsAt (d : DeclaredTopic) :
    StopsAt d.path (d.resolve table) (table.refusal? [] d.mentions) := by
  rw [mentions, CodecTable.refusal?_append, CodecTable.mentionedConsumers_map_codec,
    List.reverse_nil, List.nil_append,
    ← Option.or_none (o := table.refusal? [] (d.consumers.flatMap _))]
  exact (CodecTable.lookupOrAll_stopsAt [] d.codecs).bind fun codecs =>
    (DeclaredConsumer.resolveAll_stopsAt [] d.consumers).bind fun consumers => .goesOn _

/-! ## The first unknown codec -/

section FirstUnknown

variable {mentions : List Mention} {name : String}

/-- Where a codec is unknown there is a first one. -/
theorem exists_first_unknown (hmem : .codec name ∈ mentions) (hname : table.Unknown name) :
    ∃ before first after, mentions = before ++ .codec first :: after ∧ table.Unknown first ∧
      ∀ other, .codec other ∈ before → ¬table.Unknown other := by
  induction mentions with
  | nil => exact absurd hmem List.not_mem_nil
  | cons m mentions ih =>
    by_cases hm : ∃ first, m = .codec first ∧ table.Unknown first
    · obtain ⟨first, rfl, hfirst⟩ := hm
      exact ⟨[], first, mentions, rfl, hfirst, fun _ h => absurd h List.not_mem_nil⟩
    · have hrest : .codec name ∈ mentions := by
        rcases List.mem_cons.1 hmem with rfl | hrest
        · exact absurd ⟨name, rfl, hname⟩ hm
        · exact hrest
      obtain ⟨before, first, after, rfl, hfirst, hknown⟩ := ih hrest
      refine ⟨m :: before, first, after, rfl, hfirst, fun other hother => ?_⟩
      rcases List.mem_cons.1 hother with rfl | hother
      · exact fun hunknown => hm ⟨other, rfl, hunknown⟩
      · exact hknown other hother

/-- Where all codecs are known, the first consumer that is mentioned again is refused. -/
theorem refusal?_of_known {before : List Mention}
    (hknown : ∀ other, .codec other ∈ before → ¬table.Unknown other) (seen : List String) :
    table.refusal? seen before =
      (repeatsAfter seen (mentionedConsumers before)).head?.map .consumer := by
  induction before generalizing seen with
  | nil => rfl
  | cons m before ih =>
    have hrest := ih fun other hother => hknown other (List.mem_cons_of_mem m hother)
    cases m with
    | codec other =>
      rw [CodecTable.refusal?, if_neg (hknown other List.mem_cons_self), hrest,
        mentionedConsumers]
    | consumer other =>
      rw [CodecTable.refusal?, mentionedConsumers, repeatsAfter, hrest]
      split
      · rfl
      · rfl

/-- The first unknown codec is refused, unless a consumer has been mentioned twice before. -/
theorem refusal?_of_first_unknown {before : List Mention} (hname : table.Unknown name)
    (hknown : ∀ other, .codec other ∈ before → ¬table.Unknown other) (after : List Mention) :
    table.refusal? [] (before ++ .codec name :: after) =
      ((repeats (mentionedConsumers before)).head?.map .consumer).or
        (some (.codec name)) := by
  rw [CodecTable.refusal?_append, refusal?_of_known hknown, CodecTable.refusal?, if_pos hname,
    repeats]

end FirstUnknown

end SchemaPlan
