import Statline.Document.Settings
import Statline.Proofs.Json.RoundTrip
import Statline.Proofs.Table

namespace Statline.Document

variable {α : Type} {read : Json → Option α} {write : α → Json}

@[simp] theorem required_some (read : Json → Option α) (json : Json) :
    required read (some json) = read json := rfl

@[simp] theorem optional_some (absent : α) (read : Json → Option α) (json : Json) :
    optional absent read (some json) = read json := rfl

@[simp] theorem optional_none (absent : α) (read : Json → Option α) :
    optional absent read none = some absent := rfl

@[simp] theorem readText_str (text : String) : readText (.str text) = some text := rfl

@[simp] theorem readBool_bool (value : Bool) : readBool (.bool value) = some value := rfl

@[simp] theorem readFloat_float (x : Float) : readFloat (.float x) = some x := rfl

theorem mapM_map_eq_some {β : Type} {read : β → Option α} {write : α → β}
    (h : ∀ item, read (write item) = some item) (items : List α) :
    (items.map write).mapM read = some items := by
  have undone : read ∘ write = fun item => pure item := funext h
  rw [List.mapM_map, undone, List.mapM_pure, List.map_id']
  rfl

@[simp] theorem readList_writeList (h : ∀ item, read (write item) = some item) (items : List α) :
    readList read (writeList write items) = some items :=
  mapM_map_eq_some h items

@[simp] theorem readList_writeTexts (texts : List String) :
    readList readText (writeList .str texts) = some texts :=
  readList_writeList readText_str texts

@[simp] theorem readTable_writeTable (h : ∀ value, read (write value) = some value)
    (table : Table α) : readTable read (writeTable write table) = some table := by
  have entries : (table.entries.map fun entry => (entry.1, write entry.2)).mapM (readEntry read) =
      some table.entries :=
    mapM_map_eq_some (fun entry => by rw [readEntry, h, Option.map_some]) table.entries
  simp [readTable, writeTable, Json.obj?, entries, Table.ofList_entries]

@[simp] theorem readInt_writeInt (n : Int64) : readInt (writeInt n) = some n := by
  rw [readInt, writeInt, Json.int?, if_pos, Option.map_some, Int64.ofInt_toInt]
  rw [Bool.and_eq_true, decide_eq_true_eq, decide_eq_true_eq]
  exact ⟨n.minValue_le_toInt, n.toInt_le⟩

@[simp] theorem readWord_writeNat (n : UInt64) : readWord (writeNat n.toNat) = some n := by
  have fits := n.toNat_lt_size
  rw [readWord, readNat, writeNat, Json.int?, if_pos, Option.map_some, Option.map_some,
    Int.toNat_natCast, UInt64.ofNat_toNat]
  rw [Bool.and_eq_true, decide_eq_true_eq, decide_eq_true_eq]
  omega

/-- No two members of the set are written alike. -/
class Distinct (α : Type) [Vocabulary α] [Titled α] : Prop where
  memberTitled_written : ∀ member : α, memberTitled α (Titled.written member) = some member

instance : Distinct Bucket := ⟨fun member => by cases member <;> rfl⟩

instance : Distinct CapMode := ⟨fun member => by cases member <;> rfl⟩

instance : Distinct Layer := ⟨fun member => by cases member <;> rfl⟩

instance : Distinct LayerPolicy := ⟨fun member => by cases member <;> rfl⟩

instance : Distinct Operator := ⟨fun member => by cases member <;> rfl⟩

instance : Distinct EvictionPolicy := ⟨fun member => by cases member <;> rfl⟩

@[simp] theorem readMember_writeMember [Vocabulary α] [Titled α] [Distinct α] (member : α) :
    readMember α (writeMember member) = some member :=
  Distinct.memberTitled_written member

@[simp] theorem textual_writeList {items : List α} :
    (writeList write items).Textual ↔ ∀ item ∈ items, (write item).Textual := by
  simp [writeList]

@[simp] theorem textual_writeTable {table : Table α} :
    (writeTable write table).Textual ↔ table.Every fun _ value => (write value).Textual := by
  rw [writeTable, Json.textual_obj, List.forall_mem_map]
  simp only [Table.Every, Table.get?_eq_some_iff, Prod.forall]

@[simp] theorem textual_writeInt (n : Int64) : (writeInt n).Textual := by
  have high : n.toInt ≤ 9223372036854775807 := n.toInt_le
  have size : UInt64.size = 18446744073709551616 := rfl
  rw [writeInt, Json.textual_int]
  exact ⟨n.minValue_le_toInt, by omega⟩

@[simp] theorem textual_writeWord (n : UInt64) : (writeNat n.toNat).Textual := by
  have low : Int64.minValue.toInt = -9223372036854775808 := rfl
  rw [writeNat, Json.textual_int]
  exact ⟨by omega, Int.ofNat_lt.mpr n.toNat_lt_size⟩

@[simp] theorem textual_writeMember [Titled α] (member : α) : (writeMember member).Textual :=
  Json.textual_str _

end Statline.Document
