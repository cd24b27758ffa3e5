import EntityQuery.Schema

/-!
# A small schema

Authors and their books: a family of two entity types with members of every sort. An author has a
name and an age, perhaps a book that is the best known, and perhaps a list of books; a book has a
title and perhaps a list of tags.
-/

namespace EntityQuery.Shelf

/-- A book. -/
structure Book where
  title : String
  /-- Keywords, if there are any. -/
  tags : Option (List String)
deriving DecidableEq

/-- An author. -/
structure Author where
  name : String
  age : Int32
  /-- The best known book. -/
  known : Option Book
  /-- All books. -/
  books : Option (List Book)
deriving DecidableEq

/-- The entity types. -/
inductive Kind where
  | author
  | book
deriving DecidableEq, Repr

/-- The entities of a type. -/
def Entity : Kind → Type
  | .author => Author
  | .book => Book

/-- The name of a type. -/
def name : Kind → String
  | .author => "Author"
  | .book => "Book"

/-- The tags of a book as a value. -/
def tagValue (b : Book) : Value :=
  match b.tags with
  | some tags => .list (tags.map .string)
  | none => .null

/-- The members of a type. -/
def fields : (kind : Kind) → List (Field Kind Entity kind)
  | .author => [
    ⟨"name", .value .string fun a : Author => .string a.name⟩,
    ⟨"age", .value .int32 fun a : Author => .int32 a.age⟩,
    ⟨"known", .one .book Author.known⟩,
    ⟨"books", .many .book Author.books⟩]
  | .book => [
    ⟨"title", .value .string fun b : Book => .string b.title⟩,
    ⟨"tags", .value (.list .string) tagValue⟩]

/-- The schema of authors and books. -/
abbrev schema : Schema := ⟨Kind, Entity, name, fields⟩

/-- The getters read what the types of the members promise. -/
theorem wellTyped : schema.WellTyped := by
  intro kind name type get h e
  obtain ⟨field, hf, eq⟩ := Option.map_eq_some_iff.mp h
  have mem : field ∈ fields kind := List.mem_of_find?_eq_some hf
  clear h hf
  cases kind with
  | author =>
    simp only [fields, List.mem_cons, List.not_mem_nil, or_false] at mem
    rcases mem with rfl | rfl | rfl | rfl <;> cases eq
    · exact .string _
    · exact .int32 _
  | book =>
    simp only [fields, List.mem_cons, List.not_mem_nil, or_false] at mem
    rcases mem with rfl | rfl <;> cases eq
    · exact .string _
    · change (tagValue e).HasType _
      unfold tagValue
      split
      · refine .list fun v hv => ?_
        obtain ⟨tag, -, rfl⟩ := List.mem_map.mp hv
        exact .string tag
      · exact .null _

end EntityQuery.Shelf
