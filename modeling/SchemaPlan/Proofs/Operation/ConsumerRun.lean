import Mathlib.Data.List.Nodup
import SchemaPlan.Operation.Executable
import SchemaPlan.Topic.Agreement

/-!
# Running changes of consumers

`consumersAfter` is what a list of changes makes of the consumers of a topic. A run leaves alone
every consumer that none of its changes names (`filter_consumersAfter`), and the consumers of one
name are changed by themselves : what a run makes of them depends on the changes of that name alone
(`consumersNamed_consumersAfter_eq`). A run that can be executed keeps names distinct
(`nodup_consumersAfter`). `afterAll_changeConsumers` carries runs over to topics.
-/

namespace SchemaPlan

variable {consumers : List Consumer} {changes : List ConsumerChange} {name : String}

/-- What a list of changes makes of the consumers of a topic. -/
def consumersAfter (consumers : List Consumer) (changes : List ConsumerChange) : List Consumer :=
  changes.foldl ConsumerChange.onConsumers consumers

/-- Whether changes can be made one after the other, from `consumers` on. -/
def ExecutesOn (consumers : List Consumer) : List ConsumerChange → Prop
  | [] => True
  | change :: changes =>
    change.Executable consumers ∧ ExecutesOn (change.onConsumers consumers) changes

/-! ## Runs of changes -/

@[simp] theorem consumersAfter_nil : consumersAfter consumers [] = consumers :=
  rfl

@[simp] theorem consumersAfter_cons (change : ConsumerChange) :
    consumersAfter consumers (change :: changes) =
      consumersAfter (change.onConsumers consumers) changes :=
  rfl

/-- A run is made in two parts. -/
theorem consumersAfter_append (first second : List ConsumerChange) :
    consumersAfter consumers (first ++ second) =
      consumersAfter (consumersAfter consumers first) second :=
  List.foldl_append

/-- A run can be executed if its second part can after its first. -/
theorem executesOn_append {first second : List ConsumerChange} :
    ExecutesOn consumers (first ++ second) ↔
      ExecutesOn consumers first ∧ ExecutesOn (consumersAfter consumers first) second := by
  induction first generalizing consumers with
  | nil => simp [ExecutesOn]
  | cons change first ih => simp [ExecutesOn, ih, and_assoc]

/-! ## What changes leave alone -/

section Frame

variable {p : String → Bool}

/-- Changing the consumers of one name leaves the others alone. -/
theorem filter_changeNamed {change : Consumer → Consumer} (hname : ∀ c, (change c).name = c.name)
    (hp : p name = false) :
    (changeNamed name change consumers).filter (fun c => p c.name) =
      consumers.filter fun c => p c.name := by
  induction consumers with
  | nil => rfl
  | cons c consumers ih =>
    rw [changeNamed, List.map_cons, ← changeNamed]
    by_cases hc : c.name = name
    · rw [if_pos hc, List.filter_cons_of_neg (by simp [hname, hc, hp]), ih,
        List.filter_cons_of_neg (by simp [hc, hp])]
    · rw [if_neg hc, List.filter_cons, ih, List.filter_cons]

/-- A change leaves the consumers of other names alone. -/
theorem filter_onConsumers {change : ConsumerChange} (hp : p change.consumer = false) :
    (change.onConsumers consumers).filter (fun c => p c.name) =
      consumers.filter fun c => p c.name := by
  cases change with
  | add c =>
    have hc : p c.name = false := hp
    rw [ConsumerChange.onConsumers, List.filter_append, List.filter_cons_of_neg (by simp [hc]),
      List.filter_nil, List.append_nil]
  | setReadFrom _ _ => exact filter_changeNamed (fun _ => rfl) hp
  | setCodecs _ _ => exact filter_changeNamed (fun _ => rfl) hp

/-- A run leaves the consumers alone that none of its changes names. -/
theorem filter_consumersAfter (hp : ∀ change ∈ changes, p change.consumer = false) :
    (consumersAfter consumers changes).filter (fun c => p c.name) =
      consumers.filter fun c => p c.name := by
  induction changes generalizing consumers with
  | nil => rfl
  | cons change changes ih =>
    obtain ⟨hchange, hp⟩ := List.forall_mem_cons.1 hp
    rw [consumersAfter_cons, ih hp, filter_onConsumers hchange]

/-- A consumer that no change names is left alone. -/
theorem consumersNamed_consumersAfter (h : ∀ change ∈ changes, change.consumer ≠ name) :
    consumersNamed name (consumersAfter consumers changes) = consumersNamed name consumers :=
  filter_consumersAfter (p := fun n => n = name) fun change hchange => by
    simpa using h change hchange

end Frame

/-! ## The consumers of one name -/

/-- A name is there exactly if some consumer has it. -/
theorem mem_names_iff_consumersNamed_ne_nil :
    name ∈ consumers.map Consumer.name ↔ consumersNamed name consumers ≠ [] := by
  simp [consumersNamed, List.filter_eq_nil_iff]

theorem consumersNamed_append (first second : List Consumer) :
    consumersNamed name (first ++ second) =
      consumersNamed name first ++ consumersNamed name second :=
  List.filter_append _ _

/-- A change that keeps names is made to every consumer of its name. -/
theorem consumersNamed_changeNamed (change : Consumer → Consumer)
    (hname : ∀ c, (change c).name = c.name) :
    consumersNamed name (changeNamed name change consumers) =
      (consumersNamed name consumers).map change := by
  induction consumers with
  | nil => rfl
  | cons c consumers ih =>
    rw [changeNamed, List.map_cons, ← changeNamed, consumersNamed, consumersNamed]
    by_cases hc : c.name = name
    · rw [if_pos hc, List.filter_cons_of_pos (by simp [hname, hc]),
        List.filter_cons_of_pos (by simp [hc]), List.map_cons, ← consumersNamed, ih, consumersNamed]
    · rw [if_neg hc, List.filter_cons_of_neg (by simp [hc]),
        List.filter_cons_of_neg (by simp [hc]), ← consumersNamed, ih, consumersNamed]

/-- The changes of the consumers of one name, in order. -/
def changesNamed (name : String) (changes : List ConsumerChange) : List ConsumerChange :=
  changes.filter fun change => change.consumer = name

theorem changesNamed_append (first second : List ConsumerChange) :
    changesNamed name (first ++ second) = changesNamed name first ++ changesNamed name second :=
  List.filter_append _ _

theorem changesNamed_eq_self (h : ∀ change ∈ changes, change.consumer = name) :
    changesNamed name changes = changes :=
  List.filter_eq_self.2 fun change hchange => decide_eq_true (h change hchange)

theorem changesNamed_eq_nil (h : ∀ change ∈ changes, change.consumer ≠ name) :
    changesNamed name changes = [] :=
  List.filter_eq_nil_iff.2 fun change hchange heq => h change hchange (of_decide_eq_true heq)

/-- A change of a name makes of the consumers of that name what it would make of them alone. -/
theorem consumersNamed_onConsumers {change : ConsumerChange} (hname : change.consumer = name) :
    consumersNamed name (change.onConsumers consumers) =
      change.onConsumers (consumersNamed name consumers) := by
  have hset : ∀ f : Consumer → Consumer, (∀ c, (f c).name = c.name) →
      consumersNamed name (changeNamed name f consumers) =
        changeNamed name f (consumersNamed name consumers) := by
    intro f hf
    rw [consumersNamed_changeNamed f hf, changeNamed]
    exact List.map_congr_left fun c hc => (if_pos (by simpa using (List.mem_filter.1 hc).2)).symm
  cases change with
  | add c =>
    have hc : c.name = name := hname
    rw [ConsumerChange.onConsumers, consumersNamed_append]
    simp [consumersNamed, ConsumerChange.onConsumers, hc]
  | setReadFrom _ readFrom =>
    cases hname
    exact hset (fun c => { c with readFrom := readFrom }) fun _ => rfl
  | setCodecs _ codecs =>
    cases hname
    exact hset (fun c => { c with codecs := codecs }) fun _ => rfl

/-- What a run makes of the consumers of a name is what the changes of that name make of them. -/
theorem consumersNamed_consumersAfter_eq (name : String) (consumers : List Consumer)
    (changes : List ConsumerChange) : consumersNamed name (consumersAfter consumers changes) =
      consumersAfter (consumersNamed name consumers) (changesNamed name changes) := by
  induction changes generalizing consumers with
  | nil => rfl
  | cons change changes ih =>
    rw [consumersAfter_cons, ih, changesNamed, changesNamed, List.filter_cons]
    by_cases hname : change.consumer = name
    · rw [if_pos (by simpa using hname), consumersAfter_cons, consumersNamed_onConsumers hname]
    · have hother : consumersNamed name (change.onConsumers consumers) =
          consumersNamed name consumers :=
        filter_onConsumers (p := fun n => n = name) (by simpa using hname)
      rw [if_neg (by simpa using hname), hother]

/-! ## Distinct names -/

theorem names_changeNamed (change : Consumer → Consumer) (hname : ∀ c, (change c).name = c.name) :
    (changeNamed name change consumers).map Consumer.name = consumers.map Consumer.name := by
  rw [changeNamed, List.map_map]
  refine List.map_congr_left fun c _ => ?_
  rw [Function.comp_apply]
  split
  · exact hname c
  · rfl

/-- A change that can be made keeps the names of consumers distinct. -/
theorem nodup_onConsumers {change : ConsumerChange} (h : change.Executable consumers)
    (hnames : (consumers.map Consumer.name).Nodup) :
    ((change.onConsumers consumers).map Consumer.name).Nodup := by
  cases change with
  | add c =>
    rw [ConsumerChange.onConsumers, List.map_append, List.map_singleton]
    exact List.Nodup.append hnames (List.nodup_singleton _) (List.disjoint_singleton.2 h)
  | setReadFrom _ readFrom =>
    rw [ConsumerChange.onConsumers,
      names_changeNamed (fun c => { c with readFrom := readFrom }) fun _ => rfl]
    exact hnames
  | setCodecs _ codecs =>
    rw [ConsumerChange.onConsumers,
      names_changeNamed (fun c => { c with codecs := codecs }) fun _ => rfl]
    exact hnames

/-- Changes that can be made one after the other keep the names of consumers distinct. -/
theorem nodup_consumersAfter (h : ExecutesOn consumers changes)
    (hnames : (consumers.map Consumer.name).Nodup) :
    ((consumersAfter consumers changes).map Consumer.name).Nodup := by
  induction changes generalizing consumers with
  | nil => exact hnames
  | cons change changes ih => exact ih h.2 (nodup_onConsumers h.1 hnames)

/-! ## Topics -/

namespace Topic

variable (t : Topic) (path : String)

theorem afterAll_append (first second : List Operation) :
    t.afterAll (first ++ second) = (t.afterAll first).afterAll second :=
  List.foldl_append

/-- Changes of consumers do to a topic what they do to its consumers. -/
theorem afterAll_changeConsumers (changes : List ConsumerChange) :
    t.afterAll (changes.map (.changeConsumer path)) =
      { t with consumers := consumersAfter t.consumers changes } := by
  induction changes generalizing t with
  | nil => rfl
  | cons change changes ih =>
    rw [List.map_cons, afterAll, List.foldl_cons, ← afterAll, ih]
    rfl

/-- In a run of changes that can be executed, each is executable in the state before it. -/
theorem executableOnTopic_of_executesOn {changes : List ConsumerChange}
    (h : ExecutesOn t.consumers changes) {before after : List Operation} {operation : Operation}
    (hsplit : changes.map (.changeConsumer path) = before ++ operation :: after) :
    operation.ExecutableOnTopic (t.afterAll before) := by
  obtain ⟨first, rest, rfl, rfl, hrest⟩ := List.map_eq_append_iff.1 hsplit
  obtain ⟨change, second, rfl, rfl, rfl⟩ := List.map_eq_cons_iff.1 hrest
  rw [afterAll_changeConsumers]
  exact (executesOn_append.1 h).2.1

end Topic

end SchemaPlan
