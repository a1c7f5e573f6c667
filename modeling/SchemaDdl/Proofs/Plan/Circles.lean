import Mathlib.Order.Bounds.Defs
import SchemaDdl.Proofs.Plan.Dependency

/-!
# Tables that a dependency order cannot place

At every place of a dependency order stands the first of the tables that are left and refer to none
that is left. So the order ends where every table that is left refers to another one, and these are
the tables from which a circle of references can be reached: a table on a circle is never ready, and
neither is a table that waits for it.
-/

namespace SchemaDdl

/-! ## Placing numbered items -/

section

variable {dependencies : List (List Nat)} {placed : List Nat} {item : Nat}

def readyItems (dependencies : List (List Nat)) (placed : List Nat) : Set Nat :=
  { item | item < dependencies.length ∧ item ∉ placed ∧
    ∀ other ∈ waitedFor dependencies item, other ∈ placed }

theorem isLeast_of_firstReady? (ready : firstReady? dependencies placed = some item) :
    IsLeast (readyItems dependencies placed) item := by
  refine ⟨ready_of_firstReady? ready, fun other otherReady => ?_⟩
  by_contra earlier
  rcases otherReady with ⟨_, unplaced, waits⟩
  have refused : other ∈ placed ∨ ∃ awaited ∈ waitedFor dependencies other, awaited ∉ placed := by
    simpa [waitedFor] using
      (List.find?_range_eq_some.mp ready).2.2 other (Nat.lt_of_not_le earlier)
  rcases refused with held | ⟨awaited, waited, missing⟩
  · exact unplaced held
  · exact missing (waits awaited waited)

namespace Placement

theorem firstReady?_take (placement : Placement dependencies placed) {place : Nat}
    (found : placed[place]? = some item) :
    firstReady? dependencies (placed.take place) = some item := by
  induction placement with
  | start => cases found
  | @next placed last before ready induction =>
      rcases Nat.lt_or_ge place placed.length with earlier | late
      · rw [List.getElem?_append_left earlier] at found
        rw [List.take_append_of_le_length earlier.le]
        exact induction found
      · have bound := (List.getElem?_eq_some_iff.mp found).1
        rw [List.length_append, List.length_singleton] at bound
        obtain rfl : place = placed.length := by omega
        rw [List.getElem?_concat_length] at found
        rw [List.take_left, ready, found]

/-- An item that is placed waits for no item on a circle, directly or through others: the first such
item would have been placed before what it waits for. -/
theorem not_reachesCircle (placement : Placement dependencies placed) :
    ∀ item ∈ placed,
      ¬ReachesCircle (fun left right => right ∈ waitedFor dependencies left) item := by
  induction placement with
  | start => nofun
  | next _ ready induction =>
      intro item member reaches
      rcases List.mem_append.mp member with member | member
      · exact induction item member reaches
      · rw [List.mem_singleton.mp member] at reaches
        rcases reaches.exists_waits with ⟨other, waited, otherReaches⟩
        exact induction other ((ready_of_firstReady? ready).2.2 other waited) otherReaches

end Placement

end

/-! ## Tables -/

/-- Whether the table at a place depends on the table at another one: a name among its foreign keys
means this other table first of all tables. -/
def DependsOn (defaultSchema : String) (tables : List Table) (place other : Nat) : Prop :=
  ∃ table, tables[place]? = some table ∧ other ≠ place ∧
    ∃ name ∈ table.foreignKeyTargets,
      tables.findIdx? (·.qualifiedName.agrees defaultSchema name) = some other

section

variable {defaultSchema : String} {tables : List Table} {place : Nat}

theorem waitsFor_eq_dependsOn : WaitsFor defaultSchema tables = DependsOn defaultSchema tables := by
  funext place other
  exact propext waitsFor_iff

namespace DependencyOrder

/-- The places of the tables that are not among those placed `before` and depend on none but
these. -/
def readyPlaces (defaultSchema : String) (tables : List Table) (before : List Nat) : Set Nat :=
  { place | place < tables.length ∧ place ∉ before ∧
    ∀ other, DependsOn defaultSchema tables place other → other ∈ before }

theorem readyItems_tableDependencies (before : List Nat) :
    readyItems (tables.mapIdx (tableDependencies defaultSchema tables)) before =
      readyPlaces defaultSchema tables before := by
  unfold readyPlaces
  rw [← waitsFor_eq_dependsOn]
  simp only [readyItems, List.length_mapIdx]
  rfl

theorem mem_stuck_iff :
    place ∈ (ofTables defaultSchema tables).stuck ↔
      place < tables.length ∧ ReachesCircle (DependsOn defaultSchema tables) place := by
  rw [← waitsFor_eq_dependsOn]
  have finished : firstReady? (tables.mapIdx (tableDependencies defaultSchema tables))
      (ofTables defaultSchema tables).placed = none :=
    firstReady?_placeReady .start (by simp)
  have stuck : place ∈ (ofTables defaultSchema tables).stuck ↔
      place < tables.length ∧ place ∉ (ofTables defaultSchema tables).placed := by
    simp [ofTables]
  rw [stuck]
  refine and_congr_right fun bound => ⟨fun unplaced => ?_, fun reaches placed => ?_⟩
  · by_contra free
    refine unplaced (mem_of_stuck finished ?_ free (by simpa using bound))
    intro item other waits
    simpa using WaitsFor.lt_length waits
  · exact placement_placed.not_reachesCircle place placed reaches

theorem isLeast_of_getElem?_placed {turn : Nat}
    (found : (ofTables defaultSchema tables).placed[turn]? = some place) :
    IsLeast (readyPlaces defaultSchema tables ((ofTables defaultSchema tables).placed.take turn))
      place := by
  rw [← readyItems_tableDependencies]
  exact isLeast_of_firstReady? (placement_placed.firstReady?_take found)

theorem sorted_stuck : (ofTables defaultSchema tables).stuck.Pairwise (· < ·) :=
  List.Pairwise.filter _ List.pairwise_lt_range

theorem isAcyclic_iff :
    (ofTables defaultSchema tables).isAcyclic = true ↔
      ∀ place, ¬Relation.TransGen (DependsOn defaultSchema tables) place place := by
  rw [isAcyclic, List.isEmpty_iff, List.eq_nil_iff_forall_not_mem]
  constructor
  · intro empty place circle
    have bound : place < tables.length := by
      rcases Relation.TransGen.head'_iff.mp circle with ⟨_, ⟨_, found, _⟩, _⟩
      exact (List.getElem?_eq_some_iff.mp found).1
    exact empty place (mem_stuck_iff.mpr ⟨bound, place, .refl, circle⟩)
  · intro acyclic place member
    rcases mem_stuck_iff.mp member with ⟨_, other, _, circle⟩
    exact acyclic other circle

/-- The dependency order of some tables is a stable topological order: it holds every place once. It
ends with the places, as declared, from which a circle of dependencies can be reached; before these,
the next table is always the first one left that depends on none that is left. Nothing is left over
exactly when there is no circle. -/
theorem ofTables_isStable (defaultSchema : String) (tables : List Table) :
    (ofTables defaultSchema tables).order.Perm (List.range tables.length) ∧
    (ofTables defaultSchema tables).stuck <:+ (ofTables defaultSchema tables).order ∧
    (ofTables defaultSchema tables).stuck.Pairwise (· < ·) ∧
    (∀ place, place ∈ (ofTables defaultSchema tables).stuck ↔
      place < tables.length ∧ ReachesCircle (DependsOn defaultSchema tables) place) ∧
    (∀ turn place, (ofTables defaultSchema tables).order[turn]? = some place →
      place ∉ (ofTables defaultSchema tables).stuck →
        IsLeast (readyPlaces defaultSchema tables
          ((ofTables defaultSchema tables).order.take turn)) place) ∧
    ((ofTables defaultSchema tables).isAcyclic = true ↔
      ∀ place, ¬Relation.TransGen (DependsOn defaultSchema tables) place place) := by
  refine ⟨perm_order, List.suffix_append .., sorted_stuck, fun _ => mem_stuck_iff, ?_,
    isAcyclic_iff⟩
  intro turn place found free
  unfold order at found ⊢
  rcases Nat.lt_or_ge turn (ofTables defaultSchema tables).placed.length with early | late
  · rw [List.getElem?_append_left early] at found
    rw [List.take_append_of_le_length early.le]
    exact isLeast_of_getElem?_placed found
  · rw [List.getElem?_append_right late] at found
    exact absurd (List.mem_of_getElem? found) free

end DependencyOrder

end

end SchemaDdl
