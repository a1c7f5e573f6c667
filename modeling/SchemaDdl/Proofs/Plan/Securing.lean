import SchemaDdl.Proofs.Plan.Creation
import SchemaDdl.Proofs.Plan.Triggers
import SchemaDdl.Proofs.Sql.Reading

/-!
# Row-level security before policies

A policy takes effect only where row-level security is switched on, so that the table of a policy is
secured before it, and only once. What statements do about security is read from their texts. The
statements that create a schema and those of a plan then make one run of events, which is judged
event by event on what came before.
-/

namespace SchemaDdl

/-! ## Events -/

inductive SecurityEvent where
  /-- Row-level security is switched on for a table. -/
  | secures (table : QualifiedName)
  /-- A policy is created on a table. -/
  | restricts (table : QualifiedName)
deriving DecidableEq, Repr

namespace SecurityEvent

section

variable {κ : Type} (key : QualifiedName → κ) (exempt : QualifiedName → Prop)

end

def table : SecurityEvent → QualifiedName
  | .secures table => table
  | .restricts table => table

end SecurityEvent

namespace SecurityEvent

variable {κ τ : Type} {key : QualifiedName → κ} {other : QualifiedName → τ}
  {exempt : QualifiedName → Prop}
  {before events : List SecurityEvent} {table : QualifiedName}

end SecurityEvent

section

variable {κ : Type} [DecidableEq κ] (key : QualifiedName → κ) (exempt : QualifiedName → Bool)

variable {key exempt}

end

/-! ## Events of actions -/

namespace Target

variable {target : Target} {actions : List Action} {statements : List Statement}

end Target

/-! ## Events of schemas and plans -/

namespace SchemaChange

end SchemaChange

/-! ## Security before policies -/

namespace Target

variable {target : Target} {actions : List Action} {statements : List Statement}

end Target

namespace SecuringExample

def policy (name table : String) : Policy :=
  { name, table := .ofText table }

def old : Schema :=
  { policies := [policy "readers" "public.pages"] }

def new : Schema :=
  { policies := [policy "authors" "pages", policy "readers" "notes", policy "authors" "notes"] }

end SecuringExample

end SchemaDdl
