import Statline.Proofs.Document.RoundTrip

namespace Statline

namespace Json

/-- The record with another value in one of its fields. -/
def withField (document : Json) (name : String) (value : Json) : Json :=
  match document with
  | obj fields => obj (fields.filter (·.1 ≠ name) ++ [(name, value)])
  | other => other

end Json

namespace Document

variable {α : Type} [Vocabulary α] {text : String} {member : α}

theorem parse_eq_ok :
    Vocabulary.parse α text = .ok member ↔ Vocabulary.ofName? text = some member := by
  unfold Vocabulary.parse
  split
  next other found => simp [found]
  next unknown => simp [unknown]

variable [Titled α]

theorem mem_all [Distinct α] (member : α) : member ∈ (Vocabulary.all : List α) :=
  List.mem_of_find?_eq_some (Distinct.memberTitled_written member)

/-- Where callers name members as documents title them, they mean the same by a text. -/
theorem ofName?_eq_memberTitled
    (titled : ∀ member ∈ (Vocabulary.all : List α), Titled.written member = Vocabulary.name member)
    (long : text ∉ (Vocabulary.shorthands : List (String × α)).map (·.1)) :
    Vocabulary.ofName? text = memberTitled α text := by
  have unlisted : (Vocabulary.shorthands : List (String × α)).lookup text = none :=
    List.lookup_eq_none_iff.mpr fun entry listed =>
      bne_iff_ne.mpr fun same => long (same ▸ List.mem_map_of_mem listed)
  rw [Vocabulary.ofName?, unlisted, Option.none_or]
  exact List.find?_congr fun member listed => by rw [titled member listed]

/-- A text means the same to callers and in documents, unless it is one of the shorthands, which
callers may use and documents may not. The names in documents are those that the titles give. -/
structure NamedAlike (α : Type) [Vocabulary α] [Titled α] [Document α]
    (shorthands : List (String × α)) (text : String) : Prop where
  alike_iff : (∀ member : α,
      Vocabulary.parse α text = .ok member ↔ read (Json.str text) = some member) ↔
    text ∉ shorthands.map (·.1)
  shortened : ∀ member, (text, member) ∈ shorthands →
    Vocabulary.parse α text = .ok member ∧ (read (Json.str text) : Option α) = none
  loaded : ∀ document, Json.parse? document = some (.str text) → ∀ member : α,
    load α document = .ok member ↔ read (Json.str text) = some member
  titled : (read (Json.str text) : Option α) =
    (Vocabulary.all : List α).find? fun member => Titled.written member = text
  written : ∀ member : α, Vocabulary.name member = Titled.written member ∧
    write member = Json.str (Vocabulary.name member)
  returned : ∀ member : α, Vocabulary.parse α (Vocabulary.name member) = .ok member ∧
    load α (toText member) = .ok member

theorem load_of_parsed {β : Type} [Document β] {document : String} {json : Json} {value : β}
    (spelled : Json.parse? document = some json) :
    load β document = .ok value ↔ read json = some value := by
  rw [load, spelled, Option.bind_some]
  cases (read json : Option β) <;> simp

theorem load_toText_member [Distinct α] [Document α]
    (reads : ∀ json, (read json : Option α) = readMember α json)
    (writes : ∀ member : α, write member = writeMember member) (member : α) :
    load α (toText member) = .ok member := by
  have same : read (write member) = some member := by
    rw [writes, reads, readMember_writeMember]
  have textual : (write member).Textual := by
    rw [writes]
    exact textual_writeMember member
  have legible : ∀ x ∈ (write member).doubles, x.isFinite → Json.Legible x := by
    rw [writes]
    nofun
  exact (load_text same textual legible).1

theorem namedAlike [Distinct α] [Document α]
    (titled : ∀ member ∈ (Vocabulary.all : List α), Titled.written member = Vocabulary.name member)
    (once : ∀ entry ∈ (Vocabulary.shorthands : List (String × α)),
      (Vocabulary.shorthands : List (String × α)).lookup entry.1 = some entry.2)
    (untitled : ∀ entry ∈ (Vocabulary.shorthands : List (String × α)),
      memberTitled α entry.1 = none)
    (reads : ∀ json, (read json : Option α) = readMember α json)
    (writes : ∀ member : α, write member = writeMember member) (text : String) :
    NamedAlike α Vocabulary.shorthands text := by
  have named (member : α) : Titled.written member = Vocabulary.name member :=
    titled member (mem_all member)
  have shortened : ∀ member, (text, member) ∈ (Vocabulary.shorthands : List (String × α)) →
      Vocabulary.parse α text = .ok member ∧ (read (Json.str text) : Option α) = none := by
    intro member listed
    rw [parse_eq_ok, reads, Vocabulary.ofName?, once _ listed]
    exact ⟨rfl, untitled _ listed⟩
  have long (member : α) : Vocabulary.name member ∉
      (Vocabulary.shorthands : List (String × α)).map (·.1) := by
    intro listed
    obtain ⟨entry, short, same⟩ := List.mem_map.mp listed
    have unread := untitled entry short
    rw [same, ← named, Distinct.memberTitled_written] at unread
    cases unread
  refine ⟨⟨fun alike listed => ?_, fun long member => ?_⟩, shortened,
    fun document spelled member => load_of_parsed spelled, reads _,
    fun member => ⟨(named member).symm, ?_⟩,
    fun member => ⟨parse_eq_ok.mpr ?_, load_toText_member reads writes member⟩⟩
  · obtain ⟨⟨_, member⟩, short, rfl⟩ := List.mem_map.mp listed
    obtain ⟨accepted, unreadable⟩ := shortened member short
    rw [alike, unreadable] at accepted
    cases accepted
  · rw [parse_eq_ok, ofName?_eq_memberTitled titled long, reads]
    rfl
  · rw [writes, writeMember, named]
  · rw [ofName?_eq_memberTitled titled (long member), ← named, Distinct.memberTitled_written]

/-- Whatever stands in the field is read by itself, and the rest of the record as it was. -/
def ReadsField {α β : Type} [Document α] [Document β] (whole : β) (field : String)
    (set : α → β) : Prop :=
  ∀ json, read ((write whole).withField field json) = (read json).map set

theorem readsField_bucket (c : Contribution) :
    ReadsField c "bucket" fun bucket : Bucket => { c with bucket } := by
  intro json
  simp [read, write, readContribution, writeContribution, Json.withField, record,
    Option.map_eq_bind]

theorem readsField_mode (c : CapContribution) :
    ReadsField c "mode" fun mode : CapMode => { c with mode } := by
  obtain ⟨system, dimension, mode, value, priority, scope, realm, tags⟩ := c
  intro json
  cases realm <;> cases tags <;>
    simp [read, write, readCapContribution, writeCapContribution, Json.withField, record,
      readRealm, Option.map_eq_bind]

theorem readsField_scope (c : CapContribution) :
    ReadsField c "scope" fun scope : Layer => { c with scope } := by
  obtain ⟨system, dimension, mode, value, priority, scope, realm, tags⟩ := c
  intro json
  cases realm <;> cases tags <;>
    simp [read, write, readCapContribution, writeCapContribution, Json.withField, record,
      readRealm, Option.map_eq_bind]

theorem readsField_acrossPolicy (plan : LayerPlan) :
    ReadsField plan "across_policy" fun policy : LayerPolicy => { plan with policy } := by
  intro json
  simp [read, write, readLayerPlan, writeLayerPlan, Json.withField, record, Option.map_eq_bind]

theorem readsField_evictionPolicy (settings : CacheSettings) :
    ReadsField settings "eviction_policy" fun policy : EvictionPolicy =>
      { settings with policy } := by
  intro json
  simp [read, write, readCacheSettings, writeCacheSettings, Json.withField, record,
    Option.map_eq_bind]

theorem read_withOrder (plan : LayerPlan) (items : List Json) :
    read ((write plan).withField "order" (.arr items)) =
      (items.mapM read).map fun order : List Layer => { plan with order } := by
  simp [read, write, readLayerPlan, writeLayerPlan, Json.withField, record, readList, Json.arr?,
    Option.map_eq_bind]

/-- In a rule an operator is named as callers name it. -/
theorem read_withOperator (rule : Rule) (named : text ≠ "") :
    read ((write rule).withField "operator" (.str text)) =
      (read (Json.str text)).map fun operator : Operator =>
        { rule with operator := some operator } := by
  have said : (read (Json.str text) : Option Operator) = Vocabulary.ofName? text :=
    (ofName?_eq_memberTitled (by decide) List.not_mem_nil).symm
  obtain ⟨usePipeline, operator, clampDefault⟩ := rule
  rw [said]
  cases operator <;>
    simp [read, write, readRule, writeRule, Json.withField, record, readOperator, named,
      Option.map_eq_bind, Option.bind_assoc]

/-- A text means a member of one of the six sets to callers exactly if it does in a document, by
itself or in the records that hold such a member, unless it is a shorthand for an eviction policy:
only callers may leave out the scope of two of them. What is written for a member is its name, and
is read as the member by both. -/
theorem names_alike (text : String) :
    Json.parse? (Json.str text).compactText = some (.str text) ∧
    NamedAlike Bucket [] text ∧ NamedAlike Operator [] text ∧ NamedAlike CapMode [] text ∧
    NamedAlike Layer [] text ∧ NamedAlike LayerPolicy [] text ∧
    NamedAlike EvictionPolicy [("lru", .allkeysLru), ("lfu", .allkeysLfu)] text ∧
    (∀ c : Contribution, ReadsField c "bucket" fun bucket : Bucket => { c with bucket }) ∧
    (text ≠ "" → ∀ rule : Rule,
      read ((write rule).withField "operator" (.str text)) =
        (read (Json.str text)).map fun operator : Operator =>
          { rule with operator := some operator }) ∧
    (∀ c : CapContribution, (ReadsField c "mode" fun mode : CapMode => { c with mode }) ∧
      ReadsField c "scope" fun scope : Layer => { c with scope }) ∧
    (∀ (plan : LayerPlan) (items : List Json),
      read ((write plan).withField "order" (.arr items)) =
        (items.mapM read).map fun order : List Layer => { plan with order }) ∧
    (∀ plan : LayerPlan,
      ReadsField plan "across_policy" fun policy : LayerPolicy => { plan with policy }) ∧
    ∀ settings : CacheSettings, ReadsField settings "eviction_policy"
      fun policy : EvictionPolicy => { settings with policy } := by
  refine ⟨(Json.parse?_text (Json.textual_str text) nofun).1,
    namedAlike (by decide) (by decide) (by decide) (fun _ => rfl) (fun _ => rfl) text,
    namedAlike (by decide) (by decide) (by decide) (fun _ => rfl) (fun _ => rfl) text,
    namedAlike (by decide) (by decide) (by decide) (fun _ => rfl) (fun _ => rfl) text,
    namedAlike (by decide) (by decide) (by decide) (fun _ => rfl) (fun _ => rfl) text,
    namedAlike (by decide) (by decide) (by decide) (fun _ => rfl) (fun _ => rfl) text,
    namedAlike (by decide) (by decide) (by decide) (fun _ => rfl) (fun _ => rfl) text,
    readsField_bucket, fun named rule => read_withOperator rule named,
    fun c => ⟨readsField_mode c, readsField_scope c⟩, read_withOrder, readsField_acrossPolicy,
    readsField_evictionPolicy⟩

/-- A shorthand is a policy for callers, and unreadable in a document. -/
theorem not_alike_of_shorthand :
    ¬∀ (text : String) (policy : EvictionPolicy),
      Vocabulary.parse EvictionPolicy text = .ok policy ↔
        load EvictionPolicy (Json.str text).compactText = .ok policy := by
  intro alike
  have loaded := (alike "lru" .allkeysLru).mp rfl
  exact absurd loaded (by decide +kernel)

end Document

end Statline
