import Mathlib.Data.Fintype.Card
import Mathlib.Data.Fintype.EquivFin
import Mathlib.Logic.Relation
import SchemaDdl.Proofs.Plan.Matching

/-!
# Tables in dependency order

A dependency order is a rearrangement of the tables that it was made for: those that could be
placed, and after them those that could not. Without a circle of references every table is placed,
and it comes after all tables that it refers to.
-/

namespace SchemaDdl

/-! ## Circles -/

/-- Whether a circle of items that wait for one another can be reached from an item. -/
def ReachesCircle {α : Type} (waits : α → α → Prop) (item : α) : Prop :=
  ∃ other, Relation.ReflTransGen waits item other ∧ Relation.TransGen waits other other

namespace ReachesCircle

variable {α : Type} {waits : α → α → Prop} {item other : α}

theorem of_waits (reaches : ReachesCircle waits other) (waited : waits item other) :
    ReachesCircle waits item := by
  rcases reaches with ⟨last, path, circle⟩
  exact ⟨last, path.head waited, circle⟩

theorem exists_waits (reaches : ReachesCircle waits item) :
    ∃ other, waits item other ∧ ReachesCircle waits other := by
  rcases reaches with ⟨last, path, circle⟩
  rcases path.cases_head with rfl | ⟨other, waited, rest⟩
  · rcases Relation.TransGen.head'_iff.mp circle with ⟨other, waited, back⟩
    exact ⟨other, waited, item, back, circle⟩
  · exact ⟨other, waited, last, rest, circle⟩

end ReachesCircle

/-! ## Placing numbered items -/

def waitedFor (dependencies : List (List Nat)) (item : Nat) : List Nat :=
  dependencies[item]?.getD []

section

variable {dependencies : List (List Nat)} {placed : List Nat} {item : Nat}

inductive Placement (dependencies : List (List Nat)) : List Nat → Prop
  | start : Placement dependencies []
  | next {placed : List Nat} {item : Nat} (before : Placement dependencies placed)
      (ready : firstReady? dependencies placed = some item) :
      Placement dependencies (placed ++ [item])

theorem ready_of_firstReady? (ready : firstReady? dependencies placed = some item) :
    item < dependencies.length ∧ item ∉ placed ∧
      ∀ other ∈ waitedFor dependencies item, other ∈ placed := by
  have bound := List.mem_range.mp (List.mem_of_find?_eq_some ready)
  have accepted := List.find?_some ready
  simp only [Bool.and_eq_true, Bool.not_eq_true', List.contains_eq_mem, decide_eq_false_iff_not,
    List.all_eq_true, decide_eq_true_eq] at accepted
  exact ⟨bound, accepted⟩

theorem exists_waitedFor_of_stuck (stuck : firstReady? dependencies placed = none)
    (bound : item < dependencies.length) (unplaced : item ∉ placed) :
    ∃ other ∈ waitedFor dependencies item, other ∉ placed := by
  have refused := List.find?_eq_none.mp stuck item (List.mem_range.mpr bound)
  simpa [unplaced, waitedFor] using refused

namespace Placement

theorem bounded (placement : Placement dependencies placed) :
    ∀ item ∈ placed, item < dependencies.length := by
  induction placement with
  | start => nofun
  | next _ ready induction =>
      intro item member
      rcases List.mem_append.mp member with member | member
      · exact induction item member
      · rw [List.mem_singleton.mp member]
        exact (ready_of_firstReady? ready).1

theorem nodup (placement : Placement dependencies placed) : placed.Nodup := by
  induction placement with
  | start => exact .nil
  | next _ ready induction =>
      refine induction.append (List.nodup_singleton _) ?_
      intro item member same
      rw [List.mem_singleton.mp same] at member
      exact (ready_of_firstReady? ready).2.1 member

theorem closed (placement : Placement dependencies placed) :
    ∀ item ∈ placed, ∀ other ∈ waitedFor dependencies item, other ∈ placed := by
  induction placement with
  | start => nofun
  | next _ ready induction =>
      intro item member other waited
      apply List.mem_append_left
      rcases List.mem_append.mp member with member | member
      · exact induction item member other waited
      · rw [List.mem_singleton.mp member] at waited
        exact (ready_of_firstReady? ready).2.2 other waited

theorem pairwise (placement : Placement dependencies placed) :
    placed.Pairwise fun earlier later => later ∉ waitedFor dependencies earlier := by
  induction placement with
  | start => exact .nil
  | next before ready induction =>
      refine List.pairwise_append.mpr ⟨induction, List.pairwise_singleton .., ?_⟩
      intro earlier member later last waited
      rw [List.mem_singleton.mp last] at waited
      exact (ready_of_firstReady? ready).2.1 (before.closed earlier member _ waited)

theorem mem_of_length_le (placement : Placement dependencies placed)
    (full : dependencies.length ≤ placed.length) (bound : item < dependencies.length) :
    item ∈ placed := by
  have subset : placed ⊆ List.range dependencies.length := fun item member =>
    List.mem_range.mpr (placement.bounded item member)
  have same := (List.subperm_of_subset placement.nodup subset).perm_of_length_le (by simpa)
  exact same.mem_iff.mpr (List.mem_range.mpr bound)

end Placement

theorem placement_placeReady {count : Nat} (placement : Placement dependencies placed) :
    Placement dependencies (placeReady dependencies count placed) := by
  induction count generalizing placed with
  | zero => exact placement
  | succ count induction =>
      unfold placeReady
      split
      · exact induction (.next placement ‹_›)
      · exact placement

theorem firstReady?_placeReady {count : Nat} (placement : Placement dependencies placed)
    (turns : dependencies.length ≤ count + placed.length) :
    firstReady? dependencies (placeReady dependencies count placed) = none := by
  induction count generalizing placed with
  | zero =>
      cases ready : firstReady? dependencies placed with
      | none => simpa [placeReady] using ready
      | some item =>
          rcases ready_of_firstReady? ready with ⟨bound, unplaced, _⟩
          exact absurd (placement.mem_of_length_le (by simpa using turns) bound) unplaced
  | succ count induction =>
      unfold placeReady
      split
      · refine induction (.next placement ‹_›) ?_
        simp only [List.length_append, List.length_singleton]
        omega
      · assumption

theorem mem_of_stuck (stuck : firstReady? dependencies placed = none)
    (bounded : ∀ item, ∀ other ∈ waitedFor dependencies item, other < dependencies.length)
    (free : ¬ReachesCircle (fun left right => right ∈ waitedFor dependencies left) item)
    (bound : item < dependencies.length) : item ∈ placed := by
  let Waits (left right : Nat) : Prop := right ∈ waitedFor dependencies left
  let Free := { item : Fin dependencies.length // ¬ReachesCircle Waits item.val }
  let After (later earlier : Free) : Prop := Relation.TransGen Waits earlier.1.val later.1.val
  have transitive : IsTrans Free After := ⟨fun _ _ _ first second => second.trans first⟩
  have irreflexive : Std.Irrefl After := ⟨fun item circle => item.2 ⟨item.1.val, .refl, circle⟩⟩
  have wellFounded : WellFounded After := Finite.wellFounded_of_trans_of_irrefl After
  suffices all : ∀ item : Free, item.1.val ∈ placed from all ⟨⟨item, bound⟩, free⟩
  -- Had an item no place, an item that it waits for would have none either.
  intro item
  induction item using wellFounded.induction with | _ item induction
  by_contra unplaced
  rcases exists_waitedFor_of_stuck stuck item.1.isLt unplaced with ⟨other, waited, otherUnplaced⟩
  have otherFree : ¬ReachesCircle Waits other := fun reaches => item.2 (reaches.of_waits waited)
  exact otherUnplaced (induction ⟨⟨other, bounded _ other waited⟩, otherFree⟩ (.single waited))

end

/-! ## Tables and their references -/

namespace Table

def RefersTo (defaultSchema : String) (table target : Table) : Prop :=
  ∃ name ∈ table.foreignKeyTargets, target.qualifiedName.agrees defaultSchema name = true

theorem mem_referencedTables {table : Table} {name : QualifiedName} :
    name ∈ table.referencedTables ↔ name ∈ table.foreignKeyTargets := by
  have collected : ∀ found names : List QualifiedName,
      name ∈ names.foldl (fun found name => if found.contains name then found else name :: found)
        found ↔ name ∈ found ∨ name ∈ names := by
    intro found names
    induction names generalizing found with
    | nil => simp
    | cons first names induction =>
        rw [List.foldl_cons, induction, List.mem_cons]
        split
        · have held : first ∈ found := List.contains_iff_mem.mp ‹_›
          constructor
          · exact Or.imp_right .inr
          · intro either
            rcases either with old | rfl | new
            · exact .inl old
            · exact .inl held
            · exact .inr new
        · rw [List.mem_cons, or_assoc, or_left_comm]
  unfold referencedTables
  rw [List.mem_reverse, collected]
  simp

end Table

def LeadsTo (defaultSchema : String) (tables : List Table) (table target : Table) : Prop :=
  table ∈ tables ∧ target ∈ tables ∧ table ≠ target ∧ table.RefersTo defaultSchema target

/-- Whether foreign keys among some tables lead from none of them back to itself, save for those of
a table to itself. -/
def WithoutCycles (defaultSchema : String) (tables : List Table) : Prop :=
  ∀ table, ¬Relation.TransGen (LeadsTo defaultSchema tables) table table

theorem WithoutCycles.of_rank {defaultSchema : String} {tables : List Table} (rank : Table → Nat)
    (lower : ∀ table target, LeadsTo defaultSchema tables table target → rank target < rank table) :
    WithoutCycles defaultSchema tables := by
  have path : ∀ table target, Relation.TransGen (LeadsTo defaultSchema tables) table target →
      rank target < rank table := by
    intro table target leads
    induction leads with
    | single leads => exact lower _ _ leads
    | tail _ leads induction => exact (lower _ _ leads).trans induction
  exact fun table circle => Nat.lt_irrefl _ (path table table circle)

section

variable {defaultSchema : String} {tables : List Table} {place other : Nat}

/-- Whether the table at a place waits for the table at another one. -/
def WaitsFor (defaultSchema : String) (tables : List Table) (place other : Nat) : Prop :=
  other ∈ waitedFor (tables.mapIdx (tableDependencies defaultSchema tables)) place

theorem waitsFor_iff :
    WaitsFor defaultSchema tables place other ↔
      ∃ table, tables[place]? = some table ∧ other ≠ place ∧
        ∃ name ∈ table.foreignKeyTargets,
          tables.findIdx? (·.qualifiedName.agrees defaultSchema name) = some other := by
  unfold WaitsFor waitedFor
  rw [List.getElem?_mapIdx]
  cases tables[place]? with
  | none => simp
  | some table =>
      simp only [Option.map_some, Option.getD_some, tableDependencies, List.mem_filter,
        List.mem_filterMap, Table.mem_referencedTables, bne_iff_ne, Option.some.injEq,
        exists_eq_left']
      exact and_comm

theorem WaitsFor.lt_length (waits : WaitsFor defaultSchema tables place other) :
    other < tables.length := by
  rcases waitsFor_iff.mp waits with ⟨_, _, _, name, _, located⟩
  exact (List.findIdx?_eq_some_iff_getElem.mp located).1

theorem waitsFor_of_refersTo (apart : NamedApart defaultSchema Table.qualifiedName tables)
    {table target : Table} (found : tables[place]? = some table)
    (otherFound : tables[other]? = some target) (different : other ≠ place)
    (refers : table.RefersTo defaultSchema target) :
    WaitsFor defaultSchema tables place other := by
  rcases refers with ⟨name, member, same⟩
  refine waitsFor_iff.mpr ⟨table, found, different, name, member, ?_⟩
  rcases List.getElem?_eq_some_iff.mp otherFound with ⟨bound, rfl⟩
  refine List.findIdx?_eq_some_iff_getElem.mpr ⟨bound, same, ?_⟩
  intro earlier before alsoSame
  have both := QualifiedName.agrees_trans alsoSame (QualifiedName.agrees_symm same)
  have differ := List.pairwise_iff_getElem.mp apart earlier other (before.trans bound) bound before
  cases both.symm.trans differ

theorem WaitsFor.leadsTo (apart : NamedApart defaultSchema Table.qualifiedName tables)
    (waits : WaitsFor defaultSchema tables place other) :
    ∃ table target, tables[place]? = some table ∧ tables[other]? = some target ∧
      LeadsTo defaultSchema tables table target := by
  rcases waitsFor_iff.mp waits with ⟨table, found, different, name, member, located⟩
  rcases List.findIdx?_eq_some_iff_getElem.mp located with ⟨bound, same, _⟩
  rcases List.getElem?_eq_some_iff.mp found with ⟨placeBound, rfl⟩
  refine ⟨tables[place], tables[other], found, List.getElem?_eq_getElem bound,
    List.getElem_mem placeBound, List.getElem_mem bound, ?_, name, member, same⟩
  have distinct : tables.Nodup := apart.nodup fun _ => QualifiedName.agrees_self _
  exact fun equal => different (distinct.getElem_inj_iff.mp equal).symm

theorem not_waitsFor_circle (apart : NamedApart defaultSchema Table.qualifiedName tables)
    (acyclic : WithoutCycles defaultSchema tables) :
    ¬Relation.TransGen (WaitsFor defaultSchema tables) place place := by
  have path : ∀ {last : Nat}, Relation.TransGen (WaitsFor defaultSchema tables) place last →
      ∃ table target, tables[place]? = some table ∧ tables[last]? = some target ∧
        Relation.TransGen (LeadsTo defaultSchema tables) table target := by
    intro last waits
    induction waits with
    | single waits =>
        rcases waits.leadsTo apart with ⟨table, target, found, targetFound, leads⟩
        exact ⟨table, target, found, targetFound, .single leads⟩
    | tail _ waits induction =>
        rcases induction with ⟨table, middle, found, middleFound, path⟩
        rcases waits.leadsTo apart with ⟨again, target, againFound, targetFound, leads⟩
        cases middleFound.symm.trans againFound
        exact ⟨table, target, found, targetFound, path.tail leads⟩
  intro circle
  rcases path circle with ⟨table, target, found, targetFound, back⟩
  cases found.symm.trans targetFound
  exact acyclic table back

end

/-! ## The order of tables -/

namespace DependencyOrder

variable {defaultSchema : String} {tables : List Table}

theorem placement_placed :
    Placement (tables.mapIdx (tableDependencies defaultSchema tables))
      (ofTables defaultSchema tables).placed :=
  placement_placeReady .start

theorem perm_order : (ofTables defaultSchema tables).order.Perm (List.range tables.length) := by
  have placed : (ofTables defaultSchema tables).placed.Perm
      ((List.range tables.length).filter ((ofTables defaultSchema tables).placed.contains ·)) := by
    refine (List.perm_ext_iff_of_nodup placement_placed.nodup (List.nodup_range.filter _)).mpr ?_
    intro place
    simp only [List.mem_filter, List.mem_range, List.contains_eq_mem, decide_eq_true_eq]
    refine ⟨fun member => ⟨?_, member⟩, And.right⟩
    simpa using placement_placed.bounded place member
  exact (placed.append_right _).trans (List.filter_append_perm ..)

theorem stuck_eq_nil (apart : NamedApart defaultSchema Table.qualifiedName tables)
    (acyclic : WithoutCycles defaultSchema tables) :
    (ofTables defaultSchema tables).stuck = [] := by
  have finished : firstReady? (tables.mapIdx (tableDependencies defaultSchema tables))
      (ofTables defaultSchema tables).placed = none :=
    firstReady?_placeReady .start (by simp)
  refine List.filter_eq_nil_iff.mpr fun place member => ?_
  have placed : place ∈ (ofTables defaultSchema tables).placed := by
    refine mem_of_stuck finished ?_ ?_ (by simpa using member)
    · intro item other waits
      simpa using WaitsFor.lt_length waits
    · rintro ⟨_, _, circle⟩
      exact not_waitsFor_circle apart acyclic circle
  simpa [ofTables] using placed

end DependencyOrder

section

variable {defaultSchema : String} {tables : List Table} {table : Table}

theorem perm_inDependencyOrder : (inDependencyOrder defaultSchema tables).Perm tables := by
  have all : ∀ tables : List Table,
      (List.range tables.length).filterMap (tables[·]?) = tables := by
    intro tables
    induction tables with
    | nil => rfl
    | cons first others induction =>
        rw [List.length_cons, List.range_succ_eq_map]
        simpa [List.filterMap_map, Function.comp_def] using induction
  exact (DependencyOrder.perm_order.filterMap _).trans (by rw [all])

theorem mem_inDependencyOrder : table ∈ inDependencyOrder defaultSchema tables ↔ table ∈ tables :=
  perm_inDependencyOrder.mem_iff

theorem pairwise_inDependencyOrder (apart : NamedApart defaultSchema Table.qualifiedName tables)
    (acyclic : WithoutCycles defaultSchema tables) :
    (inDependencyOrder defaultSchema tables).Pairwise fun earlier later =>
      ¬earlier.RefersTo defaultSchema later := by
  unfold inDependencyOrder DependencyOrder.order
  rw [DependencyOrder.stuck_eq_nil apart acyclic, List.append_nil, List.pairwise_filterMap]
  have placement : Placement (tables.mapIdx (tableDependencies defaultSchema tables))
      (DependencyOrder.ofTables defaultSchema tables).placed := DependencyOrder.placement_placed
  refine (placement.pairwise.and placement.nodup).imp ?_
  intro place other separate table found target otherFound refers
  exact separate.1 (waitsFor_of_refersTo apart found otherFound separate.2.symm refers)

end

end SchemaDdl
