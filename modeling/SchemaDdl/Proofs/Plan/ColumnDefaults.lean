import SchemaDdl.Proofs.Plan.Columns
import SchemaDdl.Proofs.Sql.Reading
import SchemaDdl.Proofs.Writing.Default

/-!
# Defaults after an alteration

On the Postgres family a column that stays has its default set or dropped by statements of its own,
which also give up the numbering by a sequence and the expression of a computed column. What is left
in the end is read off the texts of these statements, one after another.
-/

namespace SchemaDdl

/-! ## What statements ask for a column -/

/-- What a statement asks for a column: the text behind its name, where the statement alters that
column of the table. -/
def Target.columnCommand? (target : Target) (table : QualifiedName) (name : String)
    (statement : Statement) : Option String :=
  (Text.after? (target.alterTableText table s!"ALTER COLUMN {target.identifier name} ").toList
    statement.sql.toList).map String.ofList

/-- What statements ask for a column, in their order. -/
def Target.columnCommands (target : Target) (table : QualifiedName) (name : String)
    (statements : List Statement) : List String :=
  statements.filterMap (target.columnCommand? table name)

def Action.alterationOf? (name : String) : Action → Option (Column × ColumnAction)
  | .alterColumn _ column action => if column.name = name then some (column, action) else none
  | _ => none

namespace Target

variable {target : Target} {table : QualifiedName} {name : String} {statement : Statement}

theorem toList_alterTableText (action : String) : (target.alterTableText table action).toList =
    "ALTER TABLE ".toList
      ++ ((target.qualified table).toList ++ (" ".toList ++ action.toList)) := by
  unfold alterTableText
  simp only [toString, String.toList_append, List.append_assoc]

theorem columnCommand?_of_alterTableText {action : String}
    (text : statement.sql = target.alterTableText table action) :
    target.columnCommand? table name statement =
      (Text.after? ("ALTER COLUMN ".toList ++ ((target.identifier name).toList ++ [' ']))
        action.toList).map String.ofList := by
  have beginning : s!"ALTER COLUMN {target.identifier name} ".toList =
      "ALTER COLUMN ".toList ++ ((target.identifier name).toList ++ [' ']) := by
    simp only [toString, String.toList_append, List.append_assoc]
    rfl
  simp only [columnCommand?, text, toList_alterTableText, Text.after?_append_append, beginning]

theorem columnCommand?_of_alterColumn {column command : String}
    (text : statement.sql =
      target.alterTableText table s!"ALTER COLUMN {target.identifier column} {command}") :
    target.columnCommand? table name statement = if column = name then some command else none := by
  have separated : ∀ rest : List Char, ∀ next ∈ (' ' :: rest).head?, Sql.EndsName next := by
    intro rest next found
    rw [← Option.some.inj found]
    exact ⟨by decide, by decide⟩
  have shape : s!"ALTER COLUMN {target.identifier column} {command}".toList =
      "ALTER COLUMN ".toList
        ++ ((target.identifier column).toList ++ ([' '] ++ command.toList)) := by
    simp only [toString, String.toList_append, List.append_assoc]
    rfl
  rw [columnCommand?_of_alterTableText text, shape, Text.after?_append_append]
  split
  · rename_i same
    rw [same, ← List.append_assoc, Text.after?_append, Option.map_some, String.ofList_toList]
  · rename_i other
    rw [Option.map_eq_none_iff]
    refine Option.eq_none_iff_forall_ne_some.mpr fun rest found => other ?_
    -- A reader would take the text for either name.
    have equal := Text.after?_eq_some_iff.mp found
    rw [List.append_assoc, List.singleton_append, List.singleton_append] at equal
    have read := congrArg (Sql.readName? target.family) equal
    rw [identifier, identifier, Sql.readName?_identifier (separated _),
      Sql.readName?_identifier (separated _)] at read
    exact (Prod.mk.inj (Option.some.inj read)).1

theorem columnCommand?_eq_none_of_beginning {action : String}
    (text : statement.sql = target.alterTableText table action)
    (other : action.toList.take 2 ≠ ['A', 'L']) :
    target.columnCommand? table name statement = none := by
  rw [columnCommand?_of_alterTableText text, Option.map_eq_none_iff]
  refine Option.eq_none_iff_forall_ne_some.mpr fun rest found => other ?_
  rw [Text.after?_eq_some_iff.mp found]
  rfl

theorem columnCommand?_eq_none_of_head (other : statement.sql.toList.head? ≠ some 'A') :
    target.columnCommand? table name statement = none := by
  rw [columnCommand?, toList_alterTableText, Option.map_eq_none_iff]
  refine Option.eq_none_iff_forall_ne_some.mpr fun rest found => other ?_
  rw [Text.after?_eq_some_iff.mp found]
  rfl

/-- What is read in the statement of an action: the command of the change that it makes in a column
of the name, and else nothing. -/
def ReadsAs (target : Target) (table : Table) (name : String) (action : Action)
    (statement : Statement) : Prop :=
  match action.alterationOf? name with
  | none => target.columnCommand? table.qualifiedName name statement = none
  | some (column, change) => ∃ text,
      target.columnActionText table.qualifiedName column change = .ok text ∧
        target.columnCommand? table.qualifiedName name statement = some text

variable {change : TableChange} {action : Action}

theorem readsAs_alterColumn {column : Column} {kind : ColumnAction}
    (written : target.statement (.alterColumn change.new column kind) = .ok statement) :
    target.ReadsAs change.new name (.alterColumn change.new column kind) statement := by
  rcases statement_eq_ok_iff.mp written with ⟨sql, textOk, rfl⟩
  rcases bind_eq_ok_iff.mp (whole_eq_ok_iff.mp textOk) with ⟨text, commandOk, equal⟩
  have shape : sql = target.alterTableText change.new.qualifiedName
      s!"ALTER COLUMN {target.identifier column.name} {text}" := (Except.ok.inj equal).symm
  have read := @columnCommand?_of_alterColumn target change.new.qualifiedName name
    (target.statementWith (.alterColumn change.new column kind) sql) column.name text shape
  unfold ReadsAs Action.alterationOf?
  by_cases named : column.name = name
  · rw [if_pos named] at read
    simp only [named, if_true]
    exact ⟨text, commandOk, read⟩
  · rw [if_neg named] at read
    simp only [named, if_false]
    exact read

theorem readsAs_addColumn {column : Column} {again : Bool}
    (written : target.statement (.addColumn change.new column again) = .ok statement) :
    target.ReadsAs change.new name (.addColumn change.new column again) statement := by
  rcases statement_eq_ok_iff.mp written with ⟨sql, textOk, rfl⟩
  rcases bind_eq_ok_iff.mp (whole_eq_ok_iff.mp textOk) with ⟨definition, _, equal⟩
  exact columnCommand?_eq_none_of_beginning (Except.ok.inj equal).symm (by simp [toString])

theorem readsAs_dropColumn {column : String}
    (written : target.statement (.dropColumn change.new.qualifiedName column) = .ok statement) :
    target.ReadsAs change.new name (.dropColumn change.new.qualifiedName column) statement := by
  cases written
  exact columnCommand?_eq_none_of_beginning rfl (by simp [toString])

theorem readsAs_rest (rest : change.AltersRest action)
    (written : target.statement action = .ok statement) :
    target.ReadsAs change.new name action statement := by
  rcases statement_eq_ok_iff.mp written with ⟨sql, textOk, rfl⟩
  cases rest with
  | added constraint subject =>
      rcases bind_eq_ok_iff.mp (whole_eq_ok_iff.mp textOk) with ⟨_, _, equal⟩
      exact columnCommand?_eq_none_of_beginning (Except.ok.inj equal).symm (by simp [toString])
  | dropped name subject =>
      cases textOk
      exact columnCommand?_eq_none_of_beginning rfl (by simp [toString])
  | replaced name constraint subject =>
      rcases bind_eq_ok_iff.mp (whole_eq_ok_iff.mp textOk) with ⟨_, _, equal⟩
      have shape : sql = target.alterTableText change.new.qualifiedName
          (s!"DROP CONSTRAINT IF EXISTS {target.identifier name}"
            ++ s!", ADD {target.constraintText constraint}") := by
        rw [← Except.ok.inj equal]
        unfold dropConstraintText alterTableText
        exact String.append_assoc
      exact columnCommand?_eq_none_of_beginning shape (by simp [toString])
  | primaryKey =>
      have beginning (first second : Bool) (dropped added columns : String) : (Text.listed
          ((if first then [] else [s!"DROP CONSTRAINT IF EXISTS {dropped}"])
            ++ if second then []
              else [s!"ADD CONSTRAINT {added}" ++ s!" PRIMARY KEY ({columns})"])).toList.take 2 ≠
            ['A', 'L'] := by
        cases first <;> cases second <;> simp [Text.listed, Text.join, toString]
      exact columnCommand?_eq_none_of_beginning (Except.ok.inj textOk).symm
        (beginning _ _ _ _ _)
  | setting setting =>
      have beginning : (target.settingText setting).toList.take 2 ≠ ['A', 'L'] := by
        unfold settingText
        cases setting <;> simp [toString]
      exact columnCommand?_eq_none_of_beginning (Except.ok.inj textOk).symm beginning
  | refused construct => cases textOk
  | comment comment =>
      have beginning (object comment : String) :
          s!"COMMENT ON TABLE {object} IS {comment}".toList.head? ≠ some 'A' := by
        simp [toString]
      have text : target.commentTableText change.new.qualifiedName comment = sql :=
        Except.ok.inj textOk
      exact columnCommand?_eq_none_of_head (text ▸ beginning _ _)

/-- The statements of an alteration are read as its actions: an action on a column of another name,
or on something else than a column, leaves nothing to be read. -/
theorem readsAs_of_part (part : change.AltersPart action)
    (written : target.statement action = .ok statement) :
    target.ReadsAs change.new name action statement := by
  cases part with
  | column column kind => exact readsAs_alterColumn written
  | columnComment column comment =>
      rcases statement_eq_ok_iff.mp written with ⟨sql, textOk, rfl⟩
      have beginning (object column comment : String) :
          (s!"COMMENT ON COLUMN {object}.{column}" ++ s!" IS {comment}").toList.head? ≠
            some 'A' := by
        simp [toString]
      have text : target.commentColumnText change.new.qualifiedName column comment = sql :=
        Except.ok.inj textOk
      exact columnCommand?_eq_none_of_head (text ▸ beginning _ _ _)
  | rest rest => exact readsAs_rest rest written

theorem readsAs_of_mem_actions (postgres : target.family = .postgres)
    (member : action ∈ change.actions target.capabilities target.options.comments)
    (written : target.statement action = .ok statement) :
    target.ReadsAs change.new name action statement := by
  rw [TableChange.actions_of_postgres postgres, List.mem_append, List.mem_append, List.mem_append]
    at member
  rcases member with ((added | removed) | altered) | rest
  · rcases List.mem_map.mp added with ⟨column, _, rfl⟩
    exact readsAs_addColumn written
  · rcases List.mem_map.mp removed with ⟨column, _, rfl⟩
    exact readsAs_dropColumn written
  · rcases List.mem_flatMap.mp altered with ⟨pair, _, member⟩
    cases regenerates : pair.regenerates with
    | false =>
        have part := TableChange.AltersPart.of_mem_columnActions regenerates action member
        exact readsAs_of_part part written
    | true =>
        rw [TableChange.columnActions_of_regenerates regenerates] at member
        rcases List.mem_pair.mp member with rfl | rfl
        · exact readsAs_dropColumn written
        · exact readsAs_addColumn written
  · exact readsAs_of_part (TableChange.AltersPart.of_mem_tableActions action rest) written

end Target

/-! ## What is changed of a column -/

open ColumnAction in
/-- The changes of the type, the default and the numbering of a column that keeps its place. -/
def ColumnChange.valueAlterations (pair : ColumnChange) : List ColumnAction :=
  (if pair.typeChanged then [setType !pair.widening] else [])
    ++ (if pair.nullabilityChanged then
        [if pair.new.nullable then dropNotNull else setNotNull] else [])
    ++ (if pair.defaultChanged && !pair.new.autoIncrement then [setDefault] else [])
    ++ (if !pair.identityChanged then []
      else if pair.new.autoIncrement then
        (if !DeclaredType.isInteger pair.old.canonicalType then [convertToInteger] else [])
          ++ [addIdentity]
      else [dropIdentity])

def ColumnChange.alterations (pair : ColumnChange) : List ColumnAction :=
  pair.valueAlterations ++ if pair.generatedChanged then [ColumnAction.dropExpression] else []

theorem ColumnChange.alterations_of_not_isChange {pair : ColumnChange}
    (unchanged : pair.isChange = false) : pair.alterations = [] := by
  simp only [isChange, isStructural, Bool.or_eq_false_iff] at unchanged
  simp [alterations, valueAlterations, unchanged]

theorem filterMap_actionIf {α : Type} {condition : Bool} {action : Action} {f : Action → Option α} :
    (actionIf condition action).filterMap f = if condition then (f action).toList else [] := by
  cases condition with
  | false => rfl
  | true => cases found : f action <;> simp [actionIf, found]

namespace TableChange

variable {change : TableChange} {capabilities : Capabilities} {comments : Bool} {name : String}
  {pair : ColumnChange}

open ColumnAction in
theorem filterMap_alterationOf?_identityActions :
    (change.identityActions pair).filterMap (Action.alterationOf? pair.new.name) =
      (if !pair.identityChanged then []
        else if pair.new.autoIncrement then
          (if !DeclaredType.isInteger pair.old.canonicalType then [convertToInteger] else [])
            ++ [addIdentity]
        else [dropIdentity]).map (pair.new, ·) := by
  have own (kind : ColumnAction) : Action.alterationOf? pair.new.name
      (.alterColumn change.new pair.new kind) = some (pair.new, kind) := if_pos rfl
  unfold identityActions
  split
  · rfl
  · split
    · rw [List.filterMap_append, filterMap_actionIf, own, List.map_append]
      cases DeclaredType.isInteger pair.old.canonicalType <;> simp [own]
    · simp [own]

theorem filterMap_alterationOf?_columnActions (inPlace : pair.regenerates = false) :
    (change.columnActions comments pair).filterMap (Action.alterationOf? pair.new.name) =
      pair.alterations.map (pair.new, ·) := by
  have own (kind : ColumnAction) : Action.alterationOf? pair.new.name
      (.alterColumn change.new pair.new kind) = some (pair.new, kind) := if_pos rfl
  have comment (comment : Option String) : Action.alterationOf? pair.new.name
      (.commentColumn change.new.qualifiedName pair.new.name comment) = none := rfl
  have constraints : ([ColumnConstraint.unique, .foreignKey, .check].flatMap
      (ColumnConstraint.actions change.old change.new pair)).filterMap
        (Action.alterationOf? pair.new.name) = [] := by
    refine List.filterMap_eq_nil_iff.mpr (List.forall_mem_flatMap.mpr fun constraint _ => ?_)
    intro action member
    rcases constraint.of_mem_actions member with
      ⟨_, _, rfl⟩ | ⟨_, _, _, _, rfl⟩ | ⟨_, _, _, rfl⟩ <;> rfl
  have mapped (condition : Bool) (kind : ColumnAction) :
      (if condition then [(pair.new, kind)] else []) =
        (if condition then [kind] else []).map (pair.new, ·) := by
    cases condition <;> rfl
  unfold columnActions
  rw [inPlace]
  simp only [Bool.false_eq_true, if_false, List.filterMap_append, filterMap_actionIf, own, comment,
    Option.toList_some, Option.toList_none, ite_self, constraints, List.append_nil, mapped,
    filterMap_alterationOf?_identityActions, ColumnChange.alterations,
    ColumnChange.valueAlterations, List.map_append]

theorem alterationOf?_of_mem_columnActions {action : Action}
    (member : action ∈ change.columnActions comments pair) (other : pair.new.name ≠ name) :
    action.alterationOf? name = none := by
  cases regenerates : pair.regenerates with
  | true =>
      rw [columnActions_of_regenerates regenerates] at member
      rcases List.mem_pair.mp member with rfl | rfl <;> rfl
  | false =>
      cases AltersColumn.of_mem_columnActions regenerates action member with
      | column kind => exact if_neg other
      | _ => rfl

theorem eq_of_mem_altered (distinct : (change.new.columns.map (·.name)).Nodup)
    (keeps : change.KeepsColumn pair) {other : ColumnChange} (member : other ∈ change.altered)
    (named : other.new.name = pair.new.name) : other = pair := by
  have held := (mem_altered.mp member).1
  have new : other.new = pair.new := List.inj_on_of_nodup_map distinct held.1 keeps.1 named
  have old : some other.old = some pair.old := by
    rw [← held.2, ← keeps.2, named]
  cases other
  cases pair
  cases new
  cases old
  rfl

/-- Of all that is done to a table, what is done to a column that stays and is not computed is the
changes of that column. -/
theorem filterMap_alterationOf?_actions (postgres : capabilities.family = .postgres)
    (distinct : (change.new.columns.map (·.name)).Nodup) (keeps : change.KeepsColumn pair)
    (plain : pair.new.isGenerated = false) :
    (change.actions capabilities comments).filterMap (Action.alterationOf? pair.new.name) =
      pair.alterations.map (pair.new, ·) := by
  have inPlace : pair.regenerates = false := by
    rw [ColumnChange.regenerates, plain, Bool.and_false]
  have added : change.columnAdditions.filterMap (Action.alterationOf? pair.new.name) = [] :=
    List.filterMap_eq_nil_iff.mpr (List.forall_mem_map.mpr fun _ _ => rfl)
  have removed : change.columnRemovals.filterMap (Action.alterationOf? pair.new.name) = [] :=
    List.filterMap_eq_nil_iff.mpr (List.forall_mem_map.mpr fun _ _ => rfl)
  have rest (comments : Bool) : (change.tableActions capabilities comments).filterMap
      (Action.alterationOf? pair.new.name) = [] := by
    refine List.filterMap_eq_nil_iff.mpr fun action member => ?_
    cases AltersRest.of_mem_tableActions action member <;> rfl
  rw [actions_of_postgres postgres, List.filterMap_append, List.filterMap_append,
    List.filterMap_append, added, removed, rest, List.append_nil, List.nil_append, List.nil_append,
    List.filterMap_flatMap]
  have others (pairs : List ColumnChange) (apart : ∀ other ∈ pairs, other.new.name ≠ pair.new.name)
      (comments : Bool) : pairs.flatMap (fun other =>
        (change.columnActions comments other).filterMap
          (Action.alterationOf? pair.new.name)) = [] :=
    List.flatMap_eq_nil_iff.mpr fun other among => List.filterMap_eq_nil_iff.mpr fun _ member =>
      alterationOf?_of_mem_columnActions member (apart other among)
  cases changed : pair.isChange with
  | false =>
      rw [ColumnChange.alterations_of_not_isChange changed]
      refine others change.altered (fun other member named => ?_) _
      rw [eq_of_mem_altered distinct keeps member named] at member
      exact Bool.eq_false_iff.mp changed (mem_altered.mp member).2
  | true =>
      -- The names tell the pair from those in front of it and from those behind it.
      rcases List.append_of_mem (mem_altered.mpr ⟨keeps, changed⟩) with ⟨front, back, split⟩
      have names : ((change.altered.map (·.new)).map (·.name)).Nodup :=
        (map_new_altered_sublist.map _).nodup distinct
      rw [split, List.map_map, List.map_append, List.map_cons, List.nodup_middle,
        List.nodup_cons, List.mem_append, not_or] at names
      have front (other : ColumnChange) (member : other ∈ front) :
          other.new.name ≠ pair.new.name := fun same =>
        names.1.1 (List.mem_map.mpr ⟨other, member, same⟩)
      have back (other : ColumnChange) (member : other ∈ back) :
          other.new.name ≠ pair.new.name := fun same =>
        names.1.2 (List.mem_map.mpr ⟨other, member, same⟩)
      rw [split, List.flatMap_append, List.flatMap_cons, others _ front, others _ back,
        filterMap_alterationOf?_columnActions inPlace, List.nil_append, List.append_nil]

end TableChange

/-! ## The commands for a column -/

namespace Target

variable {target : Target} {change : TableChange} {pair : ColumnChange} {name : String}
  {actions : List Action} {statements : List Statement} {table : Table}

theorem forall₂_columnCommands
    (read : List.Forall₂ (target.ReadsAs table name) actions statements) :
    List.Forall₂ (fun alteration command =>
        target.columnActionText table.qualifiedName alteration.1 alteration.2 = .ok command)
      (actions.filterMap (Action.alterationOf? name))
      (target.columnCommands table.qualifiedName name statements) := by
  induction read with
  | nil => exact .nil
  | @cons action statement actions statements head tail induction =>
      unfold ReadsAs at head
      rw [columnCommands, List.filterMap_cons, List.filterMap_cons]
      cases found : action.alterationOf? name with
      | none =>
          rw [found] at head
          rw [head]
          exact induction
      | some alteration =>
          rw [found] at head
          rcases head with ⟨text, textOk, command⟩
          rw [command]
          exact .cons textOk induction

theorem columnCommands_of_alterTable (postgres : target.family = .postgres)
    (written : target.alterTable change = .ok statements)
    (distinct : (change.new.columns.map (·.name)).Nodup) (keeps : change.KeepsColumn pair)
    (plain : pair.new.isGenerated = false) :
    List.Forall₂ (fun action command =>
        target.columnActionText change.new.qualifiedName pair.new action = .ok command)
      pair.alterations
      (target.columnCommands change.new.qualifiedName pair.new.name statements) := by
  have done := List.forall₂_iff_zip.mp (mapM_eq_ok_iff.mp written)
  have read : List.Forall₂ (target.ReadsAs change.new pair.new.name)
      (change.actions target.capabilities target.options.comments) statements :=
    List.forall₂_iff_zip.mpr ⟨done.1, fun member =>
      readsAs_of_mem_actions postgres (List.of_mem_zip member).1 (done.2 member)⟩
  have commands := forall₂_columnCommands read
  rw [TableChange.filterMap_alterationOf?_actions postgres distinct keeps plain] at commands
  exact List.forall₂_map_left_iff.mp commands

end Target

/-! ## Defaults in the database -/

/-- What the database fills a column with where no value is given: the next number of a sequence, an
expression or nothing. -/
inductive StoredDefault where
  | sequence
  | clause (text : Option String)
deriving DecidableEq, Repr

/-- The default of a column after a command for it. -/
def StoredDefault.after (held : StoredDefault) (command : String) : StoredDefault :=
  if command = "DROP DEFAULT" then .clause none
  else match Text.after? "SET DEFAULT ".toList command.toList with
    | some text => .clause (some (String.ofList text))
    | none => held

/-- The default that a column of a table has in the database. -/
def Target.storedDefault (target : Target) (table : Table) (column : Column) :
    Attempt StoredDefault :=
  if column.autoIncrement && !target.options.identityColumns then .ok .sequence
  else (Sql.defaultClause? target.capabilities table.qualifiedName column).map .clause

/-- The default of a column after statements, as far as they are about that column. -/
def Target.defaultAfter (target : Target) (table : QualifiedName) (name : String)
    (held : StoredDefault) (statements : List Statement) : StoredDefault :=
  (target.columnCommands table name statements).foldl .after held

/-- Whether no command sets a default before a later one makes a computed column an ordinary one. -/
def ExpressionsLeaveFirst (commands : List String) : Prop :=
  commands.Pairwise fun first second =>
    ¬((∃ text, first = "SET DEFAULT " ++ text) ∧ second = "DROP EXPRESSION")

namespace ColumnAction

/-- The default after a change of a column whose new default is given. -/
def defaultAfter (identityColumns : Bool) (new : Option String) (held : StoredDefault) :
    ColumnAction → StoredDefault
  | .setDefault => .clause new
  | .dropIdentity => if identityColumns then held else .clause none
  | _ => held

def defaultCommand : Option String → String
  | some text => "SET DEFAULT " ++ text
  | none => "DROP DEFAULT"

/-- Whether a command leaves both the default and the expression of a column alone. -/
structure IsIdle (command : String) : Prop where
  keepsDefault : command ≠ "DROP DEFAULT"
  keepsExpression : command ≠ "DROP EXPRESSION"
  setsNothing : Text.after? "SET DEFAULT ".toList command.toList = none

inductive Asks (identityColumns : Bool) (new : Option String) : ColumnAction → String → Prop
  | default : Asks identityColumns new .setDefault (defaultCommand new)
  | identity : Asks identityColumns new .dropIdentity
      (if identityColumns then "DROP IDENTITY IF EXISTS" else "DROP DEFAULT")
  | expression : Asks identityColumns new .dropExpression "DROP EXPRESSION"
  | other {action : ColumnAction} {command : String} (notDefault : action ≠ .setDefault)
      (notIdentity : action ≠ .dropIdentity) (notExpression : action ≠ .dropExpression)
      (idle : IsIdle command) : Asks identityColumns new action command

variable {target : Target} {table : QualifiedName} {column : Column} {command : String}
  {held : StoredDefault} {new : Option String} {action : ColumnAction} {identityColumns : Bool}

theorem isIdle_type (rest : String) : IsIdle ("TYPE " ++ rest) := by
  have head : ("TYPE " ++ rest).toList.head? = some 'T' := by simp
  have other {text : String} (different : text.toList.head? ≠ some 'T') : "TYPE " ++ rest ≠ text :=
    fun same => different (same ▸ head)
  refine ⟨other (by decide), other (by decide), ?_⟩
  rw [String.toList_append]
  rfl

theorem asks_of_columnActionText
    (rendered : action = .setDefault →
      Sql.defaultClause? target.capabilities table column = .ok new)
    (written : target.columnActionText table column action = .ok command) :
    Asks target.options.identityColumns new action command := by
  cases action with
  | setType convert =>
      rcases bind_eq_ok_iff.mp written with ⟨type, _, equal⟩
      have shape : "TYPE " ++ (type ++ (Target.phraseIfSome column.collation target.collateText
          ++ Target.phrase convert (target.conversionText column type))) = command := by
        rw [← Except.ok.inj equal, ← String.append_assoc, ← String.append_assoc]
        rfl
      exact .other nofun nofun nofun (shape ▸ isIdle_type _)
  | convertToInteger =>
      rcases bind_eq_ok_iff.mp written with ⟨type, _, equal⟩
      have shape : "TYPE " ++ (type ++ target.conversionText column type) = command := by
        rw [← Except.ok.inj equal, ← String.append_assoc]
        rfl
      exact .other nofun nofun nofun (shape ▸ isIdle_type _)
  | setNotNull =>
      cases written
      exact .other nofun nofun nofun ⟨by decide, by decide, by decide⟩
  | dropNotNull =>
      cases written
      exact .other nofun nofun nofun ⟨by decide, by decide, by decide⟩
  | addIdentity =>
      rcases bind_eq_ok_iff.mp written with ⟨_, _, equal⟩
      cases equal
      exact .other nofun nofun nofun ⟨by decide, by decide, by decide⟩
  | setDefault =>
      rcases bind_eq_ok_iff.mp written with ⟨clause, clauseOk, equal⟩
      cases Except.ok.inj (clauseOk.symm.trans (rendered rfl))
      have shape : defaultCommand new = command := by
        cases new <;> exact Except.ok.inj equal
      exact shape ▸ .default
  | dropIdentity => exact Except.ok.inj written ▸ .identity
  | dropExpression => exact Except.ok.inj written ▸ .expression

theorem defaultCommand_some_ne (text : String) {other : String}
    (different : other.toList.head? ≠ some 'S') : defaultCommand (some text) ≠ other := by
  have head : (defaultCommand (some text)).toList.head? = some 'S' := by
    unfold defaultCommand
    simp
  exact fun same => different (same ▸ head)

theorem after?_defaultCommand (text : String) : Text.after? "SET DEFAULT ".toList
    (defaultCommand (some text)).toList = some text.toList := by
  unfold defaultCommand
  rw [String.toList_append, Text.after?_append]

theorem setsDefault_iff_isSome : (∃ text, command = "SET DEFAULT " ++ text) ↔
    (Text.after? "SET DEFAULT ".toList command.toList).isSome = true := by
  rw [Option.isSome_iff_exists]
  simp only [Text.after?_eq_some_iff]
  constructor
  · rintro ⟨text, rfl⟩
    exact ⟨text.toList, String.toList_append⟩
  · rintro ⟨text, equal⟩
    exact ⟨String.ofList text, String.toList_inj.mp (by simp [equal])⟩

namespace Asks

theorem after_eq (asks : Asks identityColumns new action command) :
    held.after command = action.defaultAfter identityColumns new held := by
  cases asks with
  | default =>
      cases new with
      | none => rfl
      | some text =>
          rw [StoredDefault.after, if_neg (defaultCommand_some_ne text (by decide)),
            after?_defaultCommand]
          exact congrArg (StoredDefault.clause <| some ·) String.ofList_toList
  | identity => cases identityColumns <;> rfl
  | expression => rfl
  | other notDefault notIdentity notExpression idle =>
      rw [StoredDefault.after, if_neg idle.keepsDefault, idle.setsNothing]
      cases action <;> first | rfl | contradiction

theorem setsDefault_iff (asks : Asks identityColumns new action command) :
    (∃ text, command = "SET DEFAULT " ++ text) ↔ action = .setDefault ∧ new.isSome = true := by
  rw [setsDefault_iff_isSome]
  cases asks with
  | default =>
      cases new with
      | none => exact iff_of_false (by decide) fun holds => Bool.false_ne_true holds.2
      | some text =>
          rw [after?_defaultCommand]
          exact iff_of_true rfl ⟨rfl, rfl⟩
  | identity => exact iff_of_false (by cases identityColumns <;> decide) nofun
  | expression => exact iff_of_false (by decide) nofun
  | other notDefault notIdentity notExpression idle =>
      rw [idle.setsNothing]
      exact iff_of_false Bool.false_ne_true fun holds => notDefault holds.1

theorem dropsExpression_iff (asks : Asks identityColumns new action command) :
    command = "DROP EXPRESSION" ↔ action = .dropExpression := by
  cases asks with
  | default =>
      refine iff_of_false ?_ nofun
      cases new with
      | none => decide
      | some text => exact defaultCommand_some_ne text (by decide)
  | identity => exact iff_of_false (by cases identityColumns <;> decide) nofun
  | expression => exact iff_of_true rfl rfl
  | other notDefault notIdentity notExpression idle =>
      exact iff_of_false idle.keepsExpression notExpression

end Asks

end ColumnAction

/-! ## What is left after all commands -/

section

variable {identityColumns : Bool} {new : Option String} {held : StoredDefault}

theorem foldl_after_eq {actions : List ColumnAction} {commands : List String}
    (asks : List.Forall₂ (ColumnAction.Asks identityColumns new) actions commands) :
    commands.foldl StoredDefault.after held =
      actions.foldl (ColumnAction.defaultAfter identityColumns new) held := by
  induction asks generalizing held with
  | nil => rfl
  | cons head _ induction => rw [List.foldl_cons, List.foldl_cons, head.after_eq, induction]

theorem expressionsLeaveFirst_iff {actions : List ColumnAction} {commands : List String}
    (asks : List.Forall₂ (ColumnAction.Asks identityColumns new) actions commands) :
    ExpressionsLeaveFirst commands ↔ actions.Pairwise fun first second =>
      ¬((first = .setDefault ∧ new.isSome = true) ∧ second = .dropExpression) := by
  induction asks with
  | nil => exact iff_of_true .nil .nil
  | @cons action command actions commands head tail induction =>
      have later : (∃ second ∈ commands, second = "DROP EXPRESSION") ↔
          ∃ second ∈ actions, second = ColumnAction.dropExpression := by
        constructor
        · rintro ⟨second, member, drops⟩
          rcases exists_of_forall₂ tail member with ⟨action, among, asks⟩
          exact ⟨action, among, asks.dropsExpression_iff.mp drops⟩
        · rintro ⟨second, member, drops⟩
          rcases exists_of_forall₂ tail.flip member with ⟨command, among, asks⟩
          exact ⟨command, among, asks.dropsExpression_iff.mpr drops⟩
      unfold ExpressionsLeaveFirst at induction ⊢
      rw [List.pairwise_cons, List.pairwise_cons, induction, ← head.setsDefault_iff]
      refine and_congr_left fun _ => ?_
      have first : (∀ second ∈ commands,
          ¬((∃ text, command = "SET DEFAULT " ++ text) ∧ second = "DROP EXPRESSION")) ↔
            ((∃ text, command = "SET DEFAULT " ++ text) →
              ¬∃ second ∈ commands, second = "DROP EXPRESSION") := by
        grind
      rw [first, later]
      grind

variable {pair : ColumnChange}

theorem foldl_defaultAfter_alterations (plain : pair.new.autoIncrement = false) :
    pair.alterations.foldl (ColumnAction.defaultAfter identityColumns new) held =
      if pair.old.autoIncrement && !identityColumns then .clause none
      else if pair.defaultChanged then .clause new else held := by
  have numbered : pair.identityChanged = pair.old.autoIncrement := by
    rw [ColumnChange.identityChanged, plain]
    cases pair.old.autoIncrement <;> rfl
  have type : ∀ held, (if pair.typeChanged then [ColumnAction.setType !pair.widening]
      else []).foldl (ColumnAction.defaultAfter identityColumns new) held = held := by
    intro held
    split <;> rfl
  have nullability : ∀ held, (if pair.nullabilityChanged then
      [if pair.new.nullable then ColumnAction.dropNotNull else .setNotNull]
      else []).foldl (ColumnAction.defaultAfter identityColumns new) held = held := by
    intro held
    cases pair.nullabilityChanged <;> cases pair.new.nullable <;> rfl
  have expression : ∀ held, (if pair.generatedChanged then [ColumnAction.dropExpression]
      else []).foldl (ColumnAction.defaultAfter identityColumns new) held = held := by
    intro held
    split <;> rfl
  simp only [ColumnChange.alterations, ColumnChange.valueAlterations, numbered, plain,
    List.foldl_append, type, nullability,
    expression, Bool.not_false, Bool.and_true, Bool.false_eq_true, if_false]
  cases pair.defaultChanged <;> cases pair.old.autoIncrement <;> cases identityColumns <;> rfl

theorem dropExpression_not_mem_valueAlterations :
    ColumnAction.dropExpression ∉ pair.valueAlterations := by
  unfold ColumnChange.valueAlterations
  cases pair.new.nullable <;> simp <;> split <;> simp

theorem setDefault_mem_valueAlterations (plain : pair.new.autoIncrement = false) :
    ColumnAction.setDefault ∈ pair.valueAlterations ↔ pair.defaultChanged = true := by
  unfold ColumnChange.valueAlterations
  rw [plain]
  cases pair.new.nullable <;> simp

theorem pairwise_alterations_iff {needed : Prop} (plain : pair.new.autoIncrement = false) :
    (pair.alterations.Pairwise fun first second =>
      ¬((first = .setDefault ∧ needed) ∧ second = .dropExpression)) ↔
        ¬(pair.generatedChanged = true ∧ pair.defaultChanged = true ∧ needed) := by
  have front : pair.valueAlterations.Pairwise fun first second =>
      ¬((first = .setDefault ∧ needed) ∧ second = .dropExpression) :=
    List.pairwise_of_forall_mem_list fun _ _ second member holds =>
      dropExpression_not_mem_valueAlterations (holds.2 ▸ member)
  have last (second : ColumnAction) :
      second ∈ (if pair.generatedChanged then [ColumnAction.dropExpression] else []) →
        pair.generatedChanged = true := by
    intro member
    split at member
    · assumption
    · cases member
  rw [ColumnChange.alterations, List.pairwise_append, ← setDefault_mem_valueAlterations plain]
  constructor
  · rintro ⟨_, _, apart⟩ ⟨generated, default, needed⟩
    refine apart .setDefault default .dropExpression ?_ ⟨⟨rfl, needed⟩, rfl⟩
    rw [if_pos generated]
    exact List.mem_singleton_self _
  · intro apart
    refine ⟨front, ?_, fun first member second among holds => ?_⟩
    · split
      · exact List.pairwise_singleton ..
      · exact .nil
    · exact apart ⟨last second among, holds.1.1 ▸ member, holds.1.2⟩

end

/-! ## Whether defaults converge -/

/-- When a column that is neither numbered nor computed any more ends up with the default that it
should have. If its numbers came from a sequence, it should have none; otherwise a new default is
set and an old one should be written as before. -/
def Target.DefaultArrives (target : Target) (change : TableChange) (pair : ColumnChange) : Prop :=
  if pair.old.autoIncrement && !target.options.identityColumns then pair.new.default = none
  else pair.defaultChanged = true ∨
    Sql.defaultClause? target.capabilities change.new.qualifiedName pair.new =
      Sql.defaultClause? target.capabilities change.old.qualifiedName pair.old

theorem Sql.defaultClause?_eq_none_iff {capabilities : Capabilities} {table : QualifiedName}
    {column : Column} (plain : column.isGenerated = false) :
    defaultClause? capabilities table column = .ok none ↔ column.default = none := by
  unfold defaultClause?
  cases column.default with
  | none => simp
  | some value =>
      simp only [plain, Bool.false_eq_true, if_false]
      split <;> simp

namespace Target

variable {target : Target} {change : TableChange} {pair : ColumnChange}
  {statements : List Statement} {before : StoredDefault}

theorem exists_asks_of_alterTable (postgres : target.family = .postgres)
    (written : target.alterTable change = .ok statements)
    (distinct : (change.new.columns.map (·.name)).Nodup) (keeps : change.KeepsColumn pair)
    (unnumbered : pair.new.autoIncrement = false) (plain : pair.new.isGenerated = false) :
    ∃ new, (pair.defaultChanged = true →
        Sql.defaultClause? target.capabilities change.new.qualifiedName pair.new = .ok new) ∧
      List.Forall₂ (ColumnAction.Asks target.options.identityColumns new) pair.alterations
        (target.columnCommands change.new.qualifiedName pair.new.name statements) := by
  have commands := columnCommands_of_alterTable postgres written distinct keeps plain
  have changes : .setDefault ∈ pair.alterations ↔ pair.defaultChanged = true := by
    rw [ColumnChange.alterations, List.mem_append, setDefault_mem_valueAlterations unnumbered]
    cases pair.generatedChanged <;> simp
  have rendered : ∃ new, pair.defaultChanged = true →
      Sql.defaultClause? target.capabilities change.new.qualifiedName pair.new = .ok new := by
    cases changed : pair.defaultChanged with
    | false => exact ⟨none, nofun⟩
    | true =>
        rcases exists_of_forall₂ commands.flip (changes.mpr changed) with ⟨command, _, commandOk⟩
        rcases bind_eq_ok_iff.mp commandOk with ⟨new, newOk, _⟩
        exact ⟨new, fun _ => newOk⟩
  rcases rendered with ⟨new, rendered⟩
  have each := List.forall₂_iff_zip.mp commands
  refine ⟨new, rendered, List.forall₂_iff_zip.mpr ⟨each.1, fun {action command} member => ?_⟩⟩
  refine ColumnAction.asks_of_columnActionText (fun sets => rendered (changes.mp ?_))
    (each.2 member)
  exact sets ▸ (List.of_mem_zip member).1

/-- A column that stays has its new default after the statements that alter the table exactly if it
arrives by the rule above, and the default is set too early exactly if the column was computed and
gets a default. -/
theorem alterTable_convergesDefault_iff (postgres : target.family = .postgres)
    (written : target.alterTable change = .ok statements)
    (distinct : (change.new.columns.map (·.name)).Nodup) (keeps : change.KeepsColumn pair)
    (unnumbered : pair.new.autoIncrement = false) (plain : pair.new.isGenerated = false)
    (stored : target.storedDefault change.old pair.old = .ok before) :
    ((∃ clause,
        Sql.defaultClause? target.capabilities change.new.qualifiedName pair.new = .ok clause ∧
          target.defaultAfter change.new.qualifiedName pair.new.name before statements =
            .clause clause) ↔ target.DefaultArrives change pair) ∧
      (ExpressionsLeaveFirst
          (target.columnCommands change.new.qualifiedName pair.new.name statements) ↔
        ¬(pair.old.isGenerated = true ∧ pair.defaultChanged = true ∧
          pair.new.default.isSome = true)) := by
  rcases exists_asks_of_alterTable postgres written distinct keeps unnumbered plain with
    ⟨new, rendered, asks⟩
  constructor
  · rw [defaultAfter, foldl_after_eq asks, foldl_defaultAfter_alterations unnumbered,
      DefaultArrives]
    cases sequence : pair.old.autoIncrement && !target.options.identityColumns with
    | true =>
        simp only [if_true, StoredDefault.clause.injEq]
        rw [← Sql.defaultClause?_eq_none_iff plain]
        exact ⟨fun ⟨clause, clauseOk, same⟩ => same ▸ clauseOk, fun noneOk => ⟨none, noneOk, rfl⟩⟩
    | false =>
        simp only [storedDefault, sequence, Bool.false_eq_true, if_false] at stored ⊢
        rcases map_eq_ok_iff.mp stored with ⟨old, oldOk, rfl⟩
        cases changed : pair.defaultChanged with
        | true => exact iff_of_true ⟨new, rendered changed, rfl⟩ (.inl rfl)
        | false =>
            simp only [Bool.false_eq_true, if_false, false_or, StoredDefault.clause.injEq, oldOk]
            exact ⟨fun ⟨clause, clauseOk, same⟩ => same ▸ clauseOk, fun same => ⟨old, same, rfl⟩⟩
  · have generated : pair.generatedChanged = pair.old.isGenerated := by
      have none : pair.new.generated = none := by
        simpa [Column.isGenerated] using plain
      rw [ColumnChange.generatedChanged, none, Column.isGenerated]
      cases pair.old.generated <;> rfl
    rw [expressionsLeaveFirst_iff asks, pairwise_alterations_iff unnumbered, generated]
    refine not_congr (and_congr_right fun _ => and_congr_right fun changed => ?_)
    exact (Sql.isSome_of_defaultClause? (rendered changed)).trans (and_iff_left plain)

end Target

/-! ## An example -/

namespace ColumnDefaultsExample

def target : Target := ⟨Capabilities.postgres, {}⟩

def number : Column := { name := "id", dataType := "integer" }

def views (default : Int) : Column := { number with default := some (.literal (.integer default)) }

def pages (column : Column) : Table := { name := "pages", columns := [column] }

def recounted : TableChange := ⟨pages (views 0), pages (views 7)⟩

def renumbered : TableChange := ⟨pages { number with autoIncrement := true }, pages (views 7)⟩

def uncomputed : TableChange :=
  ⟨pages { number with generated := some { expression := "1", stored := true } }, pages (views 7)⟩

end ColumnDefaultsExample

open ColumnDefaultsExample in
theorem alterTable_convergesDefault_pages :
    ∃ statements, target.alterTable recounted = .ok statements ∧
      recounted.KeepsColumn ⟨views 0, views 7⟩ ∧
      target.storedDefault recounted.old (views 0) = .ok (.clause (some "0")) ∧
      target.DefaultArrives recounted ⟨views 0, views 7⟩ ∧
      (∃ clause,
        Sql.defaultClause? target.capabilities recounted.new.qualifiedName (views 7) =
          .ok clause ∧
        target.defaultAfter recounted.new.qualifiedName "id" (.clause (some "0")) statements =
          .clause clause) ∧
      ExpressionsLeaveFirst
        (target.columnCommands recounted.new.qualifiedName "id" statements) := by
  have written : ∃ statements, target.alterTable recounted = .ok statements := by
    decide +kernel
  rcases written with ⟨statements, done⟩
  have keeps : recounted.KeepsColumn ⟨views 0, views 7⟩ := ⟨List.mem_singleton_self _, rfl⟩
  have distinct : (recounted.new.columns.map (·.name)).Nodup := by decide
  have stored : target.storedDefault recounted.old (views 0) = .ok (.clause (some "0")) := by
    decide +kernel
  have converges := Target.alterTable_convergesDefault_iff rfl done distinct keeps rfl rfl stored
  have arrives : target.DefaultArrives recounted ⟨views 0, views 7⟩ := .inl (by decide +kernel)
  exact ⟨statements, done, keeps, stored, arrives, converges.1.mpr arrives,
    converges.2.mpr fun holds => absurd holds.1 (by decide)⟩

open ColumnDefaultsExample in
/-- The new default is dropped with the sequence, and an expression is given up too late. -/
theorem alterTable_drops_new_default_pages :
    (∃ statements, target.alterTable renumbered = .ok statements ∧
      statements.map (·.sql) = ["ALTER TABLE pages ALTER COLUMN id SET DEFAULT 7",
        "ALTER TABLE pages ALTER COLUMN id DROP DEFAULT"] ∧
      target.storedDefault renumbered.old { number with autoIncrement := true } = .ok .sequence ∧
      Sql.defaultClause? target.capabilities renumbered.new.qualifiedName (views 7) =
        .ok (some "7") ∧
      target.defaultAfter renumbered.new.qualifiedName "id" .sequence statements =
        .clause none) ∧
    ∃ statements, target.alterTable uncomputed = .ok statements ∧
      target.columnCommands uncomputed.new.qualifiedName "id" statements =
        ["SET DEFAULT 7", "DROP EXPRESSION"] ∧
      ¬ExpressionsLeaveFirst
        (target.columnCommands uncomputed.new.qualifiedName "id" statements) := by
  constructor
  · decide +kernel
  · have written : ∃ statements, target.alterTable uncomputed = .ok statements ∧
        target.columnCommands uncomputed.new.qualifiedName "id" statements =
          ["SET DEFAULT 7", "DROP EXPRESSION"] := by
      decide +kernel
    rcases written with ⟨statements, done, commands⟩
    refine ⟨statements, done, commands, fun first => ?_⟩
    rw [commands, ExpressionsLeaveFirst, List.pairwise_cons] at first
    exact first.1 _ (List.mem_singleton_self _) ⟨⟨"7", rfl⟩, rfl⟩

end SchemaDdl
