import StompyMux.Library.Table

-- Rows of the database: the columns that the game owns, among others that it must not touch.
namespace StompyMux.Persistence

open Library Library.Fallible

inductive Cell where
  | Null
  | Integer (value : Int)
  | Number (bits : UInt64)
  | Text (value : List Char)
  | Blob (bytes : List UInt8)
  deriving DecidableEq

-- The owned columns of a row, each once.
abbrev Fields := List (String × Cell)

-- All columns of a row outside its key, also those that only the database knows.
abbrev Row := String → Cell

-- A column of a key.
inductive KeyCell where
  | Integer (value : Int)
  | Text (value : String)
  deriving DecidableEq

instance : Coe Int KeyCell := ⟨KeyCell.Integer⟩

def KeyCell.describe : KeyCell → String
  | .Integer value => "Integer(" ++ toString value ++ ")"
  | .Text value => "Text(" ++ value.quote ++ ")"

-- A table with the columns of its key, what a new row holds where it is not told, and the
-- constraints on a row.
structure Schema (K : Type) where
  name : String
  key : K → List (String × KeyCell)
  defaults : Row
  check : K → Row → Bool

def notNull (columns : List String) (row : Row) : Bool := columns.all (fun column => row column ≠ .Null)

def Schema.describe {K : Type} (schema : Schema K) (key : K) : String :=
  let cells := (schema.key key).map (fun column => column.1 ++ ": " ++ column.2.describe)
  schema.name ++ " row for " ++ ", ".intercalate cells

def assign (fields : Fields) (row : Row) : Row := fun column => (fields.lookup column).getD (row column)

def Holds (fields : Fields) (row : Row) : Prop := assign fields row = row

def Stores : Option Fields → Option Row → Prop
  | some fields, some row => Holds fields row
  | none, none => True
  | _, _ => False

section Assign

variable (fields : Fields) (row : Row)

variable (column : String) (value : Cell)

theorem assign_of_lookup (h : fields.lookup column = some value) :
    assign fields row column = value := by
  rw [assign, h, Option.getD_some]

theorem assign_of_not_mem (h : column ∉ fields.map Prod.fst) :
    assign fields row column = row column := by
  have hnone : fields.lookup column = none := by
    rw [List.lookup_eq_none_iff]
    intro field hfield
    refine bne_iff_ne.mpr fun heq => h (List.mem_map.mpr ⟨field, hfield, heq.symm⟩)
  rw [assign, hnone, Option.getD_none]

theorem holds_assign : Holds fields (assign fields row) := by
  funext column
  cases h : fields.lookup column with
  | none => rw [assign, h, Option.getD_none]
  | some value => rw [assign_of_lookup _ _ _ _ h, assign_of_lookup _ _ _ _ h]

omit row in
theorem mem_of_lookup (h : fields.lookup column = some value) : (column, value) ∈ fields := by
  obtain ⟨before, after, rfl, -⟩ := List.lookup_eq_some_iff.mp h
  exact List.mem_append_right _ List.mem_cons_self

theorem value_of_holds (h : Holds fields row)
    (hlookup : fields.lookup column = some value) : row column = value := by
  rw [← h, assign_of_lookup fields row column value hlookup]

theorem holds_of_read (h : ∀ field ∈ fields, field.2 = row field.1) : Holds fields row := by
  funext column
  cases hlookup : fields.lookup column with
  | none => rw [assign, hlookup, Option.getD_none]
  | some value =>
      rw [assign_of_lookup _ _ _ _ hlookup]
      exact h _ (mem_of_lookup fields column value hlookup)

theorem lookup_of_mem (hnodup : (fields.map Prod.fst).Nodup) {column : String} {value : Cell}
    (h : (column, value) ∈ fields) : fields.lookup column = some value := by
  induction fields with
  | nil => contradiction
  | cons field fields ih =>
      rw [List.map_cons, List.nodup_cons] at hnodup
      rcases List.mem_cons.mp h with h | h
      · rw [← h, List.lookup_cons_self]
      · have hne : (column == field.1) = false :=
          beq_false_of_ne fun heq => hnodup.1 (heq ▸ List.mem_map.mpr ⟨(column, value), h, rfl⟩)
        rw [List.lookup_cons, hne]
        exact ih hnodup.2 h

theorem holds_iff (hnodup : (fields.map Prod.fst).Nodup) :
    Holds fields row ↔ ∀ field ∈ fields, row field.1 = field.2 := by
  refine ⟨fun h field hfield => ?_, fun h => holds_of_read fields row fun field hfield => (h field hfield).symm⟩
  exact value_of_holds fields row field.1 field.2 h (lookup_of_mem fields hnodup hfield)

theorem lookup_filter (p : String × Cell → Bool) (column : String)
    (hnodup : (fields.map Prod.fst).Nodup) :
    (fields.filter p).lookup column = (fields.lookup column).filter (fun value => p (column, value)) := by
  induction fields with
  | nil => rfl
  | cons field fields ih =>
      obtain ⟨name, value⟩ := field
      rw [List.map_cons, List.nodup_cons] at hnodup
      have ih := ih hnodup.2
      by_cases hname : column = name
      · subst hname
        have hrest : fields.lookup column = none := by
          rw [List.lookup_eq_none_iff]
          intro other hother
          refine bne_iff_ne.mpr fun heq => hnodup.1 (List.mem_map.mpr ⟨other, hother, heq.symm⟩)
        rw [List.lookup_cons_self, List.filter_cons]
        split
        · rename_i hp
          rw [List.lookup_cons_self, Option.filter_some, if_pos hp]
        · rename_i hp
          rw [ih, hrest, Option.filter_some, if_neg hp, Option.filter_none]
      · have hne : (column == name) = false := beq_false_of_ne hname
        rw [List.lookup_cons, hne, List.filter_cons]
        split
        · rw [List.lookup_cons, hne]
          exact ih
        · exact ih

end Assign

section Decode

variable (stored : Row)

def getInteger (column : String) : Except Error Int :=
  match stored column with
  | .Integer value => .ok value
  | _ => .error ["error occurred while decoding column " ++ column]

def getText (column : String) : Except Error (List Char) :=
  match stored column with
  | .Text value => .ok value
  | _ => .error ["error occurred while decoding column " ++ column]

theorem getInteger_eq (column : String) (value : Int) :
    getInteger stored column = .ok value ↔ stored column = .Integer value := by
  unfold getInteger
  cases stored column <;> simp

theorem getText_eq (column : String) (value : List Char) :
    getText stored column = .ok value ↔ stored column = .Text value := by
  unfold getText
  cases stored column <;> simp

end Decode

variable {K : Type} [DecidableEq K] (schema : Schema K) (t : Table K Row)

-- A statement that must affect one row.
def update (key : K) (values : Fields) : Except Error (Table K Row) := do
  let stored ← ofOption ("expected one " ++ schema.describe key ++ "; found 0") (t.get? key)
  ensure (schema.check key (assign values stored)) ("CHECK constraint failed: " ++ schema.name)
  .ok (t.change key (assign values))

theorem update_ok {key : K} {values : Fields} {stored : Row} (h : t.get? key = some stored)
    (hc : schema.check key (assign values stored)) :
    update schema t key values = .ok (t.change key (assign values)) :=
  bind_ok (ofOption_ok h) (bind_ok (ensure_ok hc) rfl)

def row (key : K) (before : Option Fields) (after : Fields) : Except Error (Table K Row × Bool) :=
  match before with
  | some before =>
      let changed := after.filter (fun field => before.lookup field.1 ≠ some field.2)
      if changed = [] then .ok (t, false)
      else do
        let t ← update schema t key changed
        .ok (t, true)
  | none => do
      ensure (schema.check key (assign after schema.defaults)) ("CHECK constraint failed: " ++ schema.name)
      let t ← withContext ("writing " ++ schema.describe key) (t.insert key (assign after schema.defaults))
      .ok (t, true)

theorem assign_changed {before after : Fields} {stored : Row} (hnodup : (after.map Prod.fst).Nodup)
    (h : Holds before stored) :
    assign (after.filter (fun field => before.lookup field.1 ≠ some field.2)) stored =
      assign after stored := by
  funext column
  rw [assign, assign, lookup_filter after _ column hnodup]
  cases hafter : after.lookup column with
  | none => rfl
  | some value =>
      rw [Option.filter_some]
      split
      · rfl
      · rename_i hsame
        -- The database has the value already.
        have hbefore : before.lookup column = some value := by simpa using hsame
        rw [Option.getD_none, Option.getD_some, ← h, assign_of_lookup _ _ _ _ hbefore]

-- Columns whose values the game does not change are as they were.
theorem row_changed {key : K} {before after : Fields} {stored : Row} (hget : t.get? key = some stored)
    (hc : schema.check key
      (assign (after.filter (fun field => before.lookup field.1 ≠ some field.2)) stored)) :
    ∃ t' changed, row schema t key (some before) after = .ok (t', changed) ∧
      ∀ j, t'.get? j = if j = key then
        some (assign (after.filter (fun field => before.lookup field.1 ≠ some field.2)) stored)
      else t.get? j := by
  unfold row
  dsimp only
  by_cases hchanged : after.filter (fun field => before.lookup field.1 ≠ some field.2) = []
  · rw [if_pos hchanged]
    refine ⟨t, false, rfl, fun j => ?_⟩
    split
    · rename_i hj
      rw [hj, hget, hchanged]
      rfl
    · rfl
  · rw [if_neg hchanged, update_ok schema t hget hc]
    refine ⟨_, true, rfl, fun j => ?_⟩
    rw [Table.get?_change]
    split
    · rename_i hj
      rw [hj, hget, Option.map_some]
    · rfl

theorem assign_changed_column (before after : Fields) (stored : Row) (hnodup : (after.map Prod.fst).Nodup)
    (column : String) (old new : Cell) (hbefore : before.lookup column = some old)
    (hafter : after.lookup column = some new) :
    assign (after.filter (fun field => before.lookup field.1 ≠ some field.2)) stored column =
      if old = new then stored column else new := by
  rw [assign, lookup_filter after _ column hnodup, hafter, Option.filter_some]
  by_cases hsame : old = new
  · rw [if_pos hsame, if_neg (by simpa [hbefore] using hsame)]
    rfl
  · rw [if_neg hsame, if_pos (by simpa [hbefore] using hsame)]
    rfl

theorem row_ok (key : K) (before : Option Fields) (after : Fields) (hnodup : (after.map Prod.fst).Nodup)
    (hc : schema.check key (assign after ((t.get? key).getD schema.defaults)))
    (h : Stores before (t.get? key)) :
    ∃ t' changed, row schema t key before after = .ok (t', changed) ∧
      ∀ j, t'.get? j =
        if j = key then some (assign after ((t.get? key).getD schema.defaults)) else t.get? j := by
  cases hget : t.get? key with
  | none =>
      rw [hget] at h hc
      cases before with
      | some before => exact h.elim
      | none =>
          obtain ⟨t', hinsert, ht'⟩ := t.insert_ok key (assign after schema.defaults) hget
          refine ⟨t', true, ?_, ht'⟩
          exact bind_ok (ensure_ok hc) (bind_ok (withContext_ok hinsert) rfl)
  | some stored =>
      rw [hget] at h hc
      cases before with
      | none => exact h.elim
      | some before =>
          have hassign := assign_changed hnodup h
          rw [Option.getD_some, ← hassign]
          exact row_changed schema t hget (hassign.symm ▸ hc)

end StompyMux.Persistence
