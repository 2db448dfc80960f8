import Mathlib.Data.List.Basic
/-!
# RowReader — reading a column of a query's row

A row has the columns its query selects; a driver is asked for one by two texts, the second the column's name.  What the
first stands for is the driver's: one puts it before the name (`Prefixed`), another goes by the name alone (`byName`).
Where the two texts together are no selected column, the first kind reads nothing (`Prefixed.read_eq_none`).
-/
namespace Kirino
namespace Lib

/-- Whether a driver finds a column: in the columns selected, under the two texts. -/
structure RowReader where
  reads : List String → String → String → Bool

namespace RowReader

variable {α : Type}

/-- The column's value, when the driver finds it. -/
def read (r : RowReader) (columns : List String) (pre col : String) (value : α) : Option α :=
  if r.reads columns pre col then some value else none

/-- The first text goes before the column's name. -/
def Prefixed (r : RowReader) : Prop := ∀ columns pre col, r.reads columns pre col = decide (pre ++ col ∈ columns)

/-- Every selected column is found under the text. -/
def ReadsAll (r : RowReader) (columns : List String) (pre : String) : Prop :=
  ∀ col ∈ columns, r.reads columns pre col = true

instance (r : RowReader) (columns : List String) (pre : String) : Decidable (r.ReadsAll columns pre) :=
  inferInstanceAs (Decidable (∀ col ∈ columns, _ = true))

/-- The first of some columns that is not found. -/
def firstUnread (r : RowReader) (columns : List String) (pre : String) (cols : List String) : Option String :=
  cols.find? (fun col => !r.reads columns pre col)

def prefixed : RowReader := ⟨fun columns pre col => decide (pre ++ col ∈ columns)⟩

def byName : RowReader := ⟨fun columns _ col => decide (col ∈ columns)⟩

theorem prefixed_prefixed : prefixed.Prefixed := fun _ _ _ => rfl

theorem byName_readsAll (columns : List String) (pre : String) : byName.ReadsAll columns pre :=
  fun _ h => decide_eq_true h

variable {r : RowReader} {columns : List String} {pre col : String}

theorem read_of_reads (h : r.reads columns pre col = true) (value : α) : r.read columns pre col value = some value :=
  if_pos h

theorem Prefixed.read_eq_none (h : r.Prefixed) (hno : pre ++ col ∉ columns) (value : α) :
    r.read columns pre col value = none := by
  unfold read
  rw [h, decide_eq_false hno]
  rfl

theorem firstUnread_of_readsAll {cols : List String} (h : r.ReadsAll columns pre) (hsub : cols ⊆ columns) :
    r.firstUnread columns pre cols = none := by
  refine List.find?_eq_none.2 (fun col hcol => ?_)
  simp [h col (hsub hcol)]

theorem Prefixed.firstUnread_cons (h : r.Prefixed) (hno : pre ++ col ∉ columns) (cols : List String) :
    r.firstUnread columns pre (col :: cols) = some col := by
  unfold firstUnread
  rw [List.find?_cons_of_pos]
  rw [h, decide_eq_false hno]
  rfl

end RowReader
end Lib
end Kirino
