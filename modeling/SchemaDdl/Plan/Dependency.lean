import SchemaDdl.Schema.Model

/-!
# Dependency order

An order of tables in which a table comes after the tables that its foreign keys refer to. Among the
tables that could come next, the one declared first does. A table does not wait for itself, nor for
a table that is not there; tables of a cycle, and those that wait for one, come last as declared.
-/

namespace SchemaDdl

/-! ## Placing numbered items -/

def firstReady? (dependencies : List (List Nat)) (placed : List Nat) : Option Nat :=
  (List.range dependencies.length).find? fun item =>
    !placed.contains item && (dependencies[item]?.getD []).all placed.contains

/-- The items in the order in which they get ready, after those that are placed. -/
def placeReady (dependencies : List (List Nat)) : (count : Nat) → (placed : List Nat) → List Nat
  | 0, placed => placed
  | count + 1, placed =>
      match firstReady? dependencies placed with
      | some item => placeReady dependencies count (placed ++ [item])
      | none => placed

/-! ## Tables -/

def tableDependencies (defaultSchema : String) (tables : List Table) (place : Nat)
    (table : Table) : List Nat :=
  (table.referencedTables.filterMap fun target =>
    tables.findIdx? (·.qualifiedName.agrees defaultSchema target)).filter (· != place)

/-- An order of tables by their places: those that could be put after all they refer to, and those
that could not. -/
structure DependencyOrder where
  placed : List Nat
  stuck : List Nat
deriving DecidableEq, Repr

namespace DependencyOrder

def ofTables (defaultSchema : String) (tables : List Table) : DependencyOrder :=
  let dependencies := tables.mapIdx (tableDependencies defaultSchema tables)
  let placed := placeReady dependencies tables.length []
  { placed, stuck := (List.range tables.length).filter (!placed.contains ·) }

/-- All places in their order. -/
def order (order : DependencyOrder) : List Nat :=
  order.placed ++ order.stuck

def isAcyclic (order : DependencyOrder) : Bool :=
  order.stuck.isEmpty

end DependencyOrder

def inDependencyOrder (defaultSchema : String) (tables : List Table) : List Table :=
  (DependencyOrder.ofTables defaultSchema tables).order.filterMap (tables[·]?)

def dependencyCycle (defaultSchema : String) (tables : List Table) : List Table :=
  (DependencyOrder.ofTables defaultSchema tables).stuck.filterMap (tables[·]?)

end SchemaDdl
