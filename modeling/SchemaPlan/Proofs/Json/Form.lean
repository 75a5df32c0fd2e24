import SchemaPlan.Json.Form
import SchemaPlan.Proofs.Json.Reader
import SchemaPlan.Proofs.Step

/-!
# Forms that read back what is written

`ReadsAs form write back` : the form reads what is written of a value `a` as `back a`, also from the
text of the document (`ReadsAs.read?`). `ReadsBack form write` : it reads it as the value itself.
What is written as a record gives its fields in their order, each once or not at all (`IsRecord`),
so a field is read by looking it up among the members, also where a record of other fields is asked
for (`IsRecord.exists_fields?`).
-/

namespace SchemaPlan.Json

/-! ## Numbers in values -/

namespace Value

theorem onlyNaturals_null : null.OnlyNaturals := by
  simp [OnlyNaturals, tokens]

theorem onlyNaturals_bool (b : Bool) : (bool b).OnlyNaturals := by
  simp [OnlyNaturals, tokens]

theorem onlyNaturals_natural (n : Nat) : (natural n).OnlyNaturals := by
  simp [OnlyNaturals, tokens]

theorem onlyNaturals_string (s : String) : (string s).OnlyNaturals := by
  simp [OnlyNaturals, tokens]

/-- The tokens of items spell no number if the items spell none. -/
theorem number_notMem_moreItems {items : List Value} (h : ∀ v ∈ items, v.OnlyNaturals)
    (spelling : String) : .number spelling ∉ moreItems items := by
  induction items with
  | nil => simp [moreItems]
  | cons v items ih =>
    obtain ⟨hv, hitems⟩ := List.forall_mem_cons.1 h
    simpa [moreItems, ih hitems] using hv spelling

/-- An array has only the numbers of its items. -/
theorem onlyNaturals_array {items : List Value} (h : ∀ v ∈ items, v.OnlyNaturals) :
    (array items).OnlyNaturals := by
  intro spelling
  cases items with
  | nil => simp [tokens]
  | cons v items =>
    obtain ⟨hv, hitems⟩ := List.forall_mem_cons.1 h
    simpa [tokens, number_notMem_moreItems hitems] using hv spelling

theorem number_notMem_moreMembers {members : List (String × Value)}
    (h : ∀ m ∈ members, m.2.OnlyNaturals) (spelling : String) :
    .number spelling ∉ moreMembers members := by
  induction members with
  | nil => simp [moreMembers]
  | cons m members ih =>
    obtain ⟨hm, hmembers⟩ := List.forall_mem_cons.1 h
    simpa [moreMembers, ih hmembers] using hm spelling

/-- An object has only the numbers of its members. -/
theorem onlyNaturals_object {members : List (String × Value)}
    (h : ∀ m ∈ members, m.2.OnlyNaturals) : (object members).OnlyNaturals := by
  intro spelling
  cases members with
  | nil => simp [tokens]
  | cons m members =>
    obtain ⟨hm, hmembers⟩ := List.forall_mem_cons.1 h
    simpa [tokens, number_notMem_moreMembers hmembers] using hm spelling

end Value

/-! ## Forms and what is written -/

variable {α : Type} {form : Value → Option α} {write : α → Value} {back : α → α}

/-- The form reads what is written of a value `a` as `back a`, and nothing from `null`. -/
structure ReadsAs (form : Value → Option α) (write : α → Value) (back : α → α) : Prop where
  onlyNaturals (a : α) : (write a).OnlyNaturals
  form_write (a : α) : form (write a) = some (back a)
  form_null : form .null = none

/-- The form reads what is written of a value as the value. -/
abbrev ReadsBack (form : Value → Option α) (write : α → Value) : Prop :=
  ReadsAs form write fun a => a

namespace ReadsAs

/-- A value is read from its document as from what is written of it. -/
theorem read? (h : ReadsAs form write back) (a : α) :
    (Json.read? (write a).write).bind form = some (back a) := by
  rw [read?_write (h.onlyNaturals a), Option.bind_some, h.form_write]

/-- A list is read item by item. -/
theorem list (h : ReadsAs form write back) :
    ReadsAs (Value.list? form) (Value.list write) (List.map back) where
  onlyNaturals items := Value.onlyNaturals_array <| by
    rw [List.forall_mem_map]
    exact fun a _ => h.onlyNaturals a
  form_write items := by
    rw [Value.list, Value.list?, mapM_map_eq_some fun a _ => h.form_write a]
  form_null := rfl

/-- A value that may be absent is read as there where it is written. -/
theorem orNull?_write (h : ReadsAs form write back) (a : α) :
    Value.orNull? form (write a) = some (some (back a)) := by
  have hread := h.form_write a
  cases hv : write a with
  | null =>
    rw [hv, h.form_null] at hread
    cases hread
  | _ => simp_all [Value.orNull?]

theorem onlyNaturals_orNull (h : ReadsAs form write back) (a : Option α) :
    (Value.orNull write a).OnlyNaturals := by
  cases a with
  | none => exact Value.onlyNaturals_null
  | some a => exact h.onlyNaturals a

/-- A value that is left out if it is absent. -/
theorem getD_map_orNull? (h : ReadsAs form write back) (a : Option α) :
    (a.map (Value.orNull? form ∘ write)).getD (some none) = some (a.map back) := by
  cases a with
  | none => rfl
  | some a => exact h.orNull?_write a

end ReadsAs

namespace ReadsBack

theorem string : ReadsBack Value.string? Value.string :=
  ⟨Value.onlyNaturals_string, fun _ => rfl, rfl⟩

theorem bool : ReadsBack Value.bool? Value.bool :=
  ⟨Value.onlyNaturals_bool, fun _ => rfl, rfl⟩

theorem word : ReadsBack Value.word? Value.word where
  onlyNaturals n := Value.onlyNaturals_natural n.toNat
  form_write n := by
    rw [Value.word, Value.word?, if_pos n.toNat_lt_size, UInt64.ofNat_toNat]
  form_null := rfl

theorem list (h : ReadsBack form write) : ReadsBack (Value.list? form) (Value.list write) where
  onlyNaturals := (ReadsAs.list h).onlyNaturals
  form_write items := by rw [(ReadsAs.list h).form_write, List.map_id']
  form_null := rfl

theorem strings : ReadsBack (Value.list? Value.string?) Value.strings :=
  string.list

/-- Each case is read from its name. -/
theorem case {cases : List (String × α)} {name : α → String}
    (h : ∀ a, cases.lookup (name a) = some a) :
    ReadsBack (Value.case? cases) fun a => .string (name a) :=
  ⟨fun _ => Value.onlyNaturals_string _, h, rfl⟩

/-- A value that may be absent is read back, also from `null`. -/
theorem orNull?_orNull (h : ReadsBack form write) (a : Option α) :
    Value.orNull? form (Value.orNull write a) = some a := by
  cases a with
  | none => rfl
  | some a => exact h.orNull?_write a

/-- A value that is left out if it is absent is read back. -/
theorem getD_map_orNull? (h : ReadsBack form write) (a : Option α) :
    (a.map (Value.orNull? form ∘ write)).getD (some none) = some a := by
  rw [ReadsAs.getD_map_orNull? h, Option.map_id']

/-- A list that is left out if it is empty. -/
theorem getD_map_ite {form : Value → Option (List α)} {write : List α → Value}
    (h : ReadsBack form write) (items : List α) :
    ((if items = [] then none else some (write items)).map form).getD (some []) = some items := by
  cases items with
  | nil => rfl
  | cons a items => exact h.form_write (a :: items)

end ReadsBack

/-! ## Records -/

/-- The members give fields in the order of `names`, each once or not at all. -/
structure InOrder (names : List String) (members : Fields) : Prop where
  keys : (members.map Prod.fst).Sublist names
  onlyNaturals : ∀ m ∈ members, m.2.OnlyNaturals

namespace InOrder

variable {names names' : List String} {members members' : Fields}

theorem nil : InOrder [] [] :=
  ⟨.slnil, fun _ h => absurd h List.not_mem_nil⟩

/-- A field in front of others comes first. -/
theorem cons {name : String} {v : Value} (hv : v.OnlyNaturals) (h : InOrder names members) :
    InOrder (name :: names) ((name, v) :: members) :=
  ⟨h.keys.cons_cons name, List.forall_mem_cons.2 ⟨hv, h.onlyNaturals⟩⟩

/-- Members in order stay so behind members of the names in front. -/
theorem append (h : InOrder names members) (h' : InOrder names' members') :
    InOrder (names ++ names') (members ++ members') where
  keys := by
    rw [List.map_append]
    exact h.keys.append h'.keys
  onlyNaturals := List.forall_mem_append.2 ⟨h.onlyNaturals, h'.onlyNaturals⟩

/-- A field may be left out. -/
theorem absent (name : String) : InOrder [name] [] :=
  ⟨List.nil_sublist _, fun _ h => absurd h List.not_mem_nil⟩

/-- A field that is left out if its value is absent. -/
theorem ifSome {name : String} (h : ReadsAs form write back) (a : Option α) :
    InOrder [name] (memberIfSome name write a) := by
  cases a with
  | none => exact absent name
  | some a => exact nil.cons (h.onlyNaturals a)

/-- A field that is left out if its list is empty. -/
theorem ifAny {name : String} {form : Value → Option (List α)} {write : List α → Value}
    (h : ReadsBack form write) (items : List α) :
    InOrder [name] (memberIfAny name write items) := by
  cases items with
  | nil => exact absent name
  | cons a items => exact nil.cons (h.onlyNaturals (a :: items))

end InOrder

/-- The members of an object. -/
def Value.members : Value → Fields
  | .object members => members
  | _ => []

/-- The value is an object whose members give fields in the order of `names`. -/
inductive IsRecord : List String → Value → Prop
  | object {names : List String} {members : Fields} (h : InOrder names members) :
    IsRecord names (.object members)

namespace IsRecord

variable {names : List String} {v : Value}

theorem onlyNaturals (h : IsRecord names v) : v.OnlyNaturals := by
  cases h with
  | object h => exact Value.onlyNaturals_object h.onlyNaturals

/-- The fields of a record are its members. -/
theorem namedFields? (h : IsRecord names v) (hnames : names.Nodup) :
    v.namedFields? names = some v.members := by
  cases h with
  | @object members h =>
    have hknown : members.filter (fun m => m.1 ∈ names) = members :=
      List.filter_eq_self.2 fun m hm =>
        decide_eq_true (h.keys.subset (List.mem_map_of_mem hm))
    rw [Value.namedFields?, hknown, if_pos (hnames.sublist h.keys)]
    rfl

/-- A record is read with its members as fields. -/
theorem fields? (h : IsRecord names v) (hnames : names.Nodup) :
    v.fields? names = some v.members := by
  rw [← h.namedFields? hnames]
  cases h
  rfl

end IsRecord

/-- The form of a record reads what is written as a record as it reads the members. -/
theorem ReadsAs.record {names : List String} (hnames : names.Nodup)
    (hrecord : ∀ a, IsRecord names (write a)) (hnull : form .null = none)
    (h : ∀ a, (write a).fields? names = some (write a).members → form (write a) = some (back a)) :
    ReadsAs form write back :=
  ⟨fun a => (hrecord a).onlyNaturals, fun a => h a ((hrecord a).fields? hnames), hnull⟩

/-! ## Fields -/

namespace Fields

@[simp] theorem lookup_cons (name key : String) (v : Value) (fields : Fields) :
    List.lookup key ((name, v) :: fields) = if key = name then some v else fields.lookup key := by
  by_cases h : key = name
  · simp [h]
  · simp [List.lookup_cons, h, beq_eq_false_iff_ne.2 h]

@[simp] theorem lookup_memberIfSome (name key : String) (a : Option α) :
    (memberIfSome name write a).lookup key = if key = name then a.map write else none := by
  cases a with
  | none => simp [memberIfSome]
  | some a => simp [memberIfSome]

@[simp] theorem lookup_memberIfAny {write : List α → Value} (name key : String) (items : List α) :
    (memberIfAny name write items).lookup key =
      if key = name ∧ items ≠ [] then some (write items) else none := by
  cases items with
  | nil => simp [memberIfAny]
  | cons a items => simp [memberIfAny]

@[simp] theorem lookup_ite (c : Prop) [Decidable c] (name key : String) (v : Value) :
    List.lookup key (if c then [] else [(name, v)]) = if key = name ∧ ¬c then some v else none := by
  by_cases hc : c
  · simp [hc]
  · simp [hc]

variable (fields : Fields) (name : String)

/-- A field that has to be there is looked up and read. -/
@[simp] theorem required?_eq_bind : fields.required? name form = (fields.lookup name).bind form :=
  rfl

/-- A field that is left out has the default. -/
@[simp] theorem withDefault?_eq_getD (default : α) :
    fields.withDefault? name default form =
      ((fields.lookup name).map form).getD (some default) := by
  rw [withDefault?]
  cases fields.lookup name <;> rfl

/-- A field that is left out is absent. -/
@[simp] theorem optional?_eq_getD :
    fields.optional? name form = ((fields.lookup name).map (Value.orNull? form)).getD (some none) :=
  withDefault?_eq_getD fields name none

/-- Leaving out members of other names does not change what a name is looked up as. -/
theorem lookup_filter {names : List String} {key : String} (hkey : key ∈ names) :
    (fields.filter fun m => m.1 ∈ names).lookup key = fields.lookup key := by
  induction fields with
  | nil => rfl
  | cons m fields ih =>
    obtain ⟨name, v⟩ := m
    by_cases hname : name ∈ names
    · rw [List.filter_cons_of_pos (by simpa using hname), lookup_cons, lookup_cons, ih]
    · have hne : key ≠ name := fun h => hname (h ▸ hkey)
      rw [List.filter_cons_of_neg (by simpa using hname), lookup_cons, ih, if_neg hne]

end Fields

/-- A record does not give the fields of other names. -/
theorem IsRecord.lookup_eq_none {names : List String} {v : Value} (h : IsRecord names v)
    {key : String} (hkey : key ∉ names) : v.members.lookup key = none := by
  cases h with
  | @object members h =>
    refine List.lookup_eq_none_iff.2 fun m hm => bne_iff_ne.2 ?_
    rintro rfl
    exact hkey (h.keys.subset (List.mem_map_of_mem hm))

/-- Where other fields are asked for, a record gives those of them that it has. -/
theorem IsRecord.exists_fields? {names : List String} {v : Value} (h : IsRecord names v)
    (hnames : names.Nodup) (names' : List String) :
    ∃ fields, v.fields? names' = some fields ∧
      ∀ key ∈ names', fields.lookup key = v.members.lookup key := by
  cases h with
  | @object members h =>
    have hsub : ((members.filter fun m => m.1 ∈ names').map Prod.fst).Sublist names :=
      (List.filter_sublist.map _).trans h.keys
    refine ⟨_, ?_, fun key => Fields.lookup_filter members⟩
    rw [Value.fields?, Value.namedFields?, if_pos (hnames.sublist hsub)]
    simp

end SchemaPlan.Json
