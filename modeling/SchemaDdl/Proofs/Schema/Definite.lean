import SchemaDdl.Proofs.Schema.Equivalence
import SchemaDdl.Proofs.Schema.Snapshot

/-!
# Defaults that are read

An undefined number is not equal to itself, so a column with such a default counts as changed when
it is compared with itself. No text denotes an undefined number, and no default that is read holds
one.
-/

namespace SchemaDdl

open Json

theorem Binary64.isNaN_of_isFinite {number : Binary64} (finite : number.isFinite = true) :
    number.isNaN = false := by
  have below := of_decide_eq_true finite
  exact decide_eq_false (by omega)

theorem Json.Value.isDefinite_of_fits {depth : Nat} {value : Value}
    (fits : value.Fits false depth) : value.IsDefinite := by
  induction fits with
  | null => exact .null
  | bool value => exact .bool value
  | integer => exact .integer _
  | float finite => exact .float _ (Binary64.isNaN_of_isFinite finite)
  | string text => exact .string text
  | array _ _ each => exact .array _ each
  | object _ _ each => exact .object _ each
  | unreadable allowed => cases allowed

theorem Literal.isDefinite_of_fits {depth : Nat} {literal : Literal}
    (fits : literal.encode.Fits false depth) : literal.IsDefinite := by
  cases literal with
  | float value =>
    cases (fits_choice.mp fits).2 with
    | float finite => exact Binary64.isNaN_of_isFinite finite
  | json value => exact Value.isDefinite_of_fits (fits_choice.mp fits).2
  | _ => trivial

theorem Default.isDefinite_of_fits {depth : Nat} {default : Default}
    (fits : default.encode.Fits false depth) : default.IsDefinite := by
  cases default with
  | literal value => exact Literal.isDefinite_of_fits (fits_choice.mp fits).2
  | _ => trivial

/-! ## Schemas -/

theorem Json.Value.fits_member {holes : Bool} {depth : Nat} {members : List (String × Value)}
    (key : String) {value : Value} (fits : (Value.object members).Fits holes depth)
    (among : (key, value) ∈ members) : value.Fits holes (depth + 1) := by
  cases fits with
  | object _ each => exact each _ among

theorem Json.Value.fits_item {α : Type} {holes : Bool} {depth : Nat} {encode : α → Value}
    {items : List α} (fits : (Value.array (items.map encode)).Fits holes depth) {item : α}
    (among : item ∈ items) : (encode item).Fits holes (depth + 1) := by
  cases fits with
  | array _ each => exact each _ (List.mem_map_of_mem among)

theorem Column.isDefinite_of_fits {depth : Nat} {column : Column}
    (fits : column.encode.Fits false depth) :
    ∀ default ∈ column.default, default.IsDefinite := by
  intro default found
  rw [Option.mem_def] at found
  unfold Column.encode at fits
  have member : default.encode.Fits false (depth + 1) :=
    Value.fits_member "default" fits (by simp [memberIfSome, found])
  exact Default.isDefinite_of_fits member

theorem Table.isDefinite_of_fits {depth : Nat} {table : Table}
    (fits : table.encode.Fits false depth) :
    ∀ column ∈ table.columns, ∀ default ∈ column.default, default.IsDefinite := by
  intro column among
  unfold Table.encode at fits
  have columns : (Value.array (table.columns.map Column.encode)).Fits false (depth + 1) :=
    Value.fits_member "columns" fits (by simp)
  exact Column.isDefinite_of_fits (Value.fits_item columns among)

theorem Schema.wellFormed_of_ofText? {text : String} {schema : Schema}
    (found : Schema.ofText? text = some schema) {table : Table} (member : table ∈ schema.tables)
    (columns : Apart (·.name == ·.name) table.columns)
    (indexes : Apart (·.name == ·.name) table.indexes) : table.WellFormed := by
  rcases Option.bind_eq_some_iff.mp found with ⟨value, read, decoded⟩
  have fits := (Schema.survives (fits_of_read read) decoded).fits
  unfold Schema.encode at fits
  have tables : (Value.array (schema.tables.map Table.encode)).Fits false 1 :=
    Value.fits_member "tables" fits (by simp)
  exact ⟨columns, indexes, Table.isDefinite_of_fits (Value.fits_item tables member)⟩

end SchemaDdl
