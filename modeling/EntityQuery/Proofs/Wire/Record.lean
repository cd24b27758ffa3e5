import EntityQuery.Proofs.Outcome
import EntityQuery.Wire.Record

/-!
# The slots of a record

A record has one slot for each field of its form. The slot holds what an object has under the name
of the field, or what an array has at its place. `RecordForm.slots_eq_ok_iff` says so, and which
values have the form: objects without repetitions that name no other fields where the form is
closed, and arrays that are not too long.
-/

namespace EntityQuery

/-- The field of a record: by its name in an object, and by its place in an array. -/
def Json.field? (name : String) (place : Nat) : Json → Option Json
  | .object fields => fields.lookup name
  | .array items => items[place]?
  | _ => none

/-- What is found under a name stands there with it. -/
theorem mem_of_lookup {α β : Type} [BEq α] [LawfulBEq α] {k : α} {b : β} {l : List (α × β)}
    (h : l.lookup k = some b) : (k, b) ∈ l := by
  obtain ⟨front, back, rfl, -⟩ := List.lookup_eq_some_iff.mp h
  exact List.mem_append_right _ List.mem_cons_self

namespace RecordForm

variable {form : RecordForm} {fields : List (String × Json)} {j : Json}
  {slots : List (Option Json)}

/-- A value has the form of the record, whatever its fields are. -/
def Fits (form : RecordForm) : Json → Prop
  | .object fields =>
    form.repeats fields = false ∧ (form.closed = true → form.knowsAll fields = true)
  | .array items => items.length ≤ form.names.length
  | _ => False

/-- A closed form has no fields of other names. -/
theorem lookup_of_knowsAll (h : form.knowsAll fields = true) {name : String}
    (other : name ∉ form.names) : fields.lookup name = none := by
  rw [List.lookup_eq_none_iff]
  intro field mem
  rw [bne_iff_ne]
  rintro rfl
  exact other (List.contains_iff_mem.mp (List.all_eq_true.mp h field mem))

theorem mapIdx_getElem? {α : Type} {items : List Json} {names : List α}
    (h : items.length ≤ names.length) :
    names.mapIdx (fun i _ => items[i]?) =
      items.map some ++ List.replicate (names.length - items.length) none := by
  apply List.ext_getElem (by simp; omega)
  intro i hi _
  rw [List.getElem_mapIdx, List.getElem_append]
  split
  · next inside =>
    rw [List.length_map] at inside
    rw [List.getElem_map, List.getElem?_eq_getElem inside]
  · next outside =>
    rw [List.length_map, Nat.not_lt] at outside
    rw [List.getElem_replicate, List.getElem?_eq_none outside]

/-- **The slots of a value** of the form are its fields, by name or by place. -/
theorem slots_eq_ok_iff : form.slots j = .ok slots ↔
    form.Fits j ∧ slots = form.names.mapIdx fun place name => j.field? name place := by
  cases j with
  | object fields =>
    have byName : form.names.mapIdx (fun _ name => fields.lookup name) =
        form.names.map fun name => fields.lookup name :=
      List.ext_getElem (by simp) fun _ _ _ => by simp
    simp only [RecordForm.slots, slotsOfFields, Fits, Json.field?, byName]
    cases form.repeats fields <;> cases form.closed <;> cases form.knowsAll fields <;>
      simp [eq_comm]
  | array items =>
    simp only [RecordForm.slots, slotsOfItems, Fits, Json.field?]
    split
    · next long => simp [Nat.not_le_of_lt long]
    · next short =>
      rw [Nat.not_lt] at short
      rw [mapIdx_getElem? short, Except.ok.injEq, eq_comm]
      simp [short]
  | _ => simp [RecordForm.slots, Fits]

/-- What is put together from the slots of a value is put together from its fields. -/
theorem bind_slots_eq_ok_iff {α : Type} {ofSlots : List (Option Json) → Except WireError α} {a : α} :
    (form.slots j >>= ofSlots) = .ok a ↔
      form.Fits j ∧ ofSlots (form.names.mapIdx fun place name => j.field? name place) = .ok a := by
  rw [Outcome.bind_eq_ok_iff]
  constructor
  · rintro ⟨slots, hs, h⟩
    obtain ⟨fits, rfl⟩ := slots_eq_ok_iff.mp hs
    exact ⟨fits, h⟩
  · rintro ⟨fits, h⟩
    exact ⟨_, slots_eq_ok_iff.mpr ⟨fits, rfl⟩, h⟩

end RecordForm

end EntityQuery
