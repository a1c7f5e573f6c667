import SchemaDdl.Capability.BuiltIn
import SchemaDdl.Proofs.Script.Definitions
import SchemaDdl.Proofs.Writing.Objects

/-!
# Bodies between dollar tags

The body of a function stands between two tags, and a reader takes it to end where the tag occurs
next. Of the two tags in use, the second one is taken for a body that holds the first. A body is
read back whole exactly if it does not hold its tag and does not end with all of the tag but the
last dollar sign.
-/

namespace SchemaDdl

namespace Sql

open Text

/-! ## Reading up to a tag -/

def readUpTo? (tag : List Char) : List Char → Option (List Char × List Char)
  | [] => (after? tag []).map ([], ·)
  | char :: text =>
      match after? tag (char :: text) with
      | some rest => some ([], rest)
      | none => (readUpTo? tag text).map (Prod.map (char :: ·) id)

/-- A body, and what follows it: the body begins behind a dollar tag and ends where the tag occurs
next. -/
def readDollarQuoted? (text : List Char) : Option (List Char × List Char) :=
  (Script.dollarTag? text).bind fun (tag, rest) => readUpTo? tag rest

/-- Whether a tag that is put behind a text occurs nowhere in front of its place there. -/
def OccursLast (tag body : List Char) : Prop :=
  ∀ before after, body ++ tag = before ++ (tag ++ after) → before = body

variable {tag body text inner rest name : List Char}

theorem readUpTo?_eq_some_iff : readUpTo? tag text = some (inner, rest) ↔
    text = inner ++ (tag ++ rest) ∧
      ∀ before after, text = before ++ (tag ++ after) → inner.length ≤ before.length := by
  induction text generalizing inner with
  | nil =>
      rw [readUpTo?, Option.map_eq_some_iff]
      constructor
      · rintro ⟨others, found, equal⟩
        cases equal
        have here : [] = tag ++ rest := after?_eq_some_iff.mp found
        exact ⟨here, fun before after _ => Nat.zero_le before.length⟩
      · rintro ⟨whole, -⟩
        rcases List.append_eq_nil_iff.mp whole.symm with ⟨rfl, here⟩
        exact ⟨rest, after?_eq_some_iff.mpr here.symm, rfl⟩
  | cons char text induction =>
      rw [readUpTo?]
      split
      · rename_i others found
        have here := after?_eq_some_iff.mp found
        constructor
        · rintro equal
          cases equal
          exact ⟨here, fun before after _ => Nat.zero_le before.length⟩
        · rintro ⟨whole, first⟩
          obtain rfl : inner = [] :=
            List.length_eq_zero_iff.mp (Nat.le_zero.mp (first [] others here))
          rw [whole, List.nil_append, List.append_cancel_left_eq] at here
          rw [here]
      · rename_i missing
        have absent : ∀ after, char :: text ≠ tag ++ after := fun after whole => by
          rw [after?_eq_some_iff.mpr whole] at missing
          cases missing
        rw [Option.map_eq_some_iff]
        constructor
        · rintro ⟨⟨inside, others⟩, found, equal⟩
          cases equal
          rcases induction.mp found with ⟨rfl, first⟩
          refine ⟨rfl, fun before after whole => ?_⟩
          cases before with
          | nil => exact absurd whole (absent after)
          | cons other before =>
              exact Nat.succ_le_succ (first before after (List.cons.inj whole).2)
        · rintro ⟨whole, first⟩
          cases inner with
          | nil => exact absurd whole (absent rest)
          | cons other inside =>
              rw [List.cons_append, List.cons.injEq] at whole
              refine ⟨(inside, rest), induction.mpr ⟨whole.2, fun before after again => ?_⟩, ?_⟩
              · exact Nat.le_of_succ_le_succ
                  (first (char :: before) after (congrArg (char :: ·) again))
              · rw [whole.1]
                rfl

theorem readUpTo?_append_iff :
    readUpTo? tag (body ++ tag) = some (body, []) ↔ OccursLast tag body := by
  rw [readUpTo?_eq_some_iff]
  constructor
  · rintro ⟨-, first⟩ before after whole
    have sizes := congrArg List.length whole
    have short := first before after whole
    simp only [List.length_append] at sizes
    exact (List.append_inj_left whole (by omega)).symm
  · intro last
    refine ⟨by rw [List.append_nil], fun before after whole => ?_⟩
    rw [last before after whole]

/-! ## Tags in bodies -/

open Script (tagOf)

theorem occursLast_tagOf_iff (plain : '$' ∉ name) :
    OccursLast (tagOf name) body ↔ ¬tagOf name <:+: body ∧ ¬('$' :: name) <:+ body := by
  constructor
  · intro last
    constructor
    · rintro ⟨before, after, rfl⟩
      have same := last before (after ++ tagOf name) (by simp)
      have sizes := congrArg List.length same
      simp [tagOf] at sizes
    · rintro ⟨before, rfl⟩
      have same := last before (name ++ ['$']) (by simp [tagOf])
      have sizes := congrArg List.length same
      simp at sizes
  · rintro ⟨absent, unfinished⟩ before after whole
    rcases List.append_eq_append_iff.mp whole with ⟨more, rfl, front⟩ | ⟨more, rfl, behind⟩
    · have sizes := congrArg List.length front
      simp only [List.length_append] at sizes
      obtain rfl : more = [] := List.length_eq_zero_iff.mp (by omega)
      exact List.append_nil body
    · rcases List.append_eq_append_iff.mp behind with ⟨others, rfl, _⟩ | ⟨others, tagged, again⟩
      · exact absurd ⟨before, others, by simp⟩ absent
      · cases more with
        | nil => exact (List.append_nil before).symm
        | cons first more =>
            cases others with
            | nil =>
                rw [List.append_nil] at tagged
                exact absurd ⟨before, [], by rw [tagged, List.append_nil]⟩ absent
            | cons next others =>
                -- The tag begins anew within itself, which can only be at its second dollar sign.
                have dollar : next = '$' := (List.cons.inj again).1.symm
                rw [tagOf, List.cons_append, List.cons.injEq, dollar,
                  List.append_cons_inj_of_notMem plain List.not_mem_nil] at tagged
                exact absurd ⟨before, by rw [tagged.1, tagged.2.1]⟩ unfinished

theorem readDollarQuoted?_tagOf (parts : name.all Script.isTagPart = true)
    (starts : name.head?.all Script.isTagStart = true) (rest : List Char) :
    readDollarQuoted? (tagOf name ++ rest) = readUpTo? (tagOf name) rest := by
  rw [readDollarQuoted?, Script.dollarTag?_tagOf parts starts, Option.bind_some]

end Sql

/-! ## Bodies of functions -/

/-- Whether a body is closed by the tag that is taken for it: it does not hold the tag, and does not
end with all of the tag but the last dollar sign. -/
def StaysQuoted (body : String) : Prop :=
  if Text.contains body "$$" = true then
    Text.contains body "$fn$" = false ∧ Text.endsWith body "$fn" = false
  else
    Text.endsWith body "$" = false

instance (body : String) : Decidable (StaysQuoted body) :=
  inferInstanceAs <| Decidable <|
    if Text.contains body "$$" = true then
      Text.contains body "$fn$" = false ∧ Text.endsWith body "$fn" = false
    else
      Text.endsWith body "$" = false

namespace Target

open Script (tagOf)

def tagName (body : String) : List Char :=
  if Text.contains body "$$" = true then ['f', 'n'] else []

theorem toList_dollarTag (body : String) : (dollarTag body).toList = tagOf (tagName body) := by
  unfold dollarTag tagName
  split <;> rfl

theorem named_tagName (body : String) : '$' ∉ tagName body ∧
    (tagName body).all Script.isTagPart = true ∧
    (tagName body).head?.all Script.isTagStart = true := by
  unfold tagName
  split <;> decide

theorem staysQuoted_iff (body : String) : StaysQuoted body ↔
    ¬tagOf (tagName body) <:+: body.toList ∧ ¬('$' :: tagName body) <:+ body.toList := by
  unfold StaysQuoted tagName Text.contains Text.endsWith
  split
  · rw [Bool.eq_false_iff, Bool.eq_false_iff, Ne, Ne, Text.occursIn_iff, List.isSuffixOf_iff_suffix]
    exact Iff.rfl
  · rename_i absent
    have absent : ¬tagOf [] <:+: body.toList := fun among => absent (Text.occursIn_iff.mpr among)
    rw [Bool.eq_false_iff, Ne, List.isSuffixOf_iff_suffix, and_iff_right absent]
    exact Iff.rfl

theorem occursLast_dollarTag_iff (body : String) :
    Sql.OccursLast (dollarTag body).toList body.toList ↔ StaysQuoted body := by
  rw [toList_dollarTag, Sql.occursLast_tagOf_iff (named_tagName body).1, staysQuoted_iff]

theorem readDollarQuoted?_dollarTag_iff (body : String) :
    Sql.readDollarQuoted? ((dollarTag body).toList ++ (body.toList ++ (dollarTag body).toList)) =
      some (body.toList, []) ↔ StaysQuoted body := by
  have named := named_tagName body
  rw [← occursLast_dollarTag_iff, toList_dollarTag, Sql.readDollarQuoted?_tagOf named.2.1 named.2.2,
    Sql.readUpTo?_append_iff]

variable {target : Target} {function : StoredFunction} {text : String}

theorem exists_of_createFunctionText (written : target.createFunctionText function = .ok text) :
    ∃ head : String, text = head ++ (" AS " ++ dollarTag (functionBodyText function)
      ++ functionBodyText function ++ dollarTag (functionBodyText function)) := by
  unfold createFunctionText at written
  rcases bind_eq_ok_iff.mp written with ⟨_, _, accepted⟩
  split at accepted
  · rcases bind_eq_ok_iff.mp accepted with ⟨_, refused, _⟩
    cases refused
  · exact ⟨_, (Except.ok.inj accepted).symm⟩

/-- The statement that creates a function ends with its body between tags. The tag occurs for the
first time behind the body, and a reader takes back the body and nothing is left, exactly if the
body stays quoted. -/
theorem createFunctionText_quotesBody_iff
    (written : target.createFunctionText function = .ok text) :
    ∃ head body tag : List Char, body = (functionBodyText function).toList ∧
      tag = (dollarTag (functionBodyText function)).toList ∧
      text.toList = head ++ (tag ++ (body ++ tag)) ∧
      (Sql.OccursLast tag body ↔ StaysQuoted (functionBodyText function)) ∧
      (Sql.readDollarQuoted? (tag ++ (body ++ tag)) = some (body, []) ↔
        StaysQuoted (functionBodyText function)) := by
  rcases exists_of_createFunctionText written with ⟨front, rfl⟩
  refine ⟨(front ++ " AS ").toList, _, _, rfl, rfl, ?_, occursLast_dollarTag_iff _,
    readDollarQuoted?_dollarTag_iff _⟩
  simp only [String.toList_append, List.append_assoc]

end Target

/-! ## An example -/

namespace DollarQuotesExample

def target : Target :=
  ⟨Capabilities.postgres, {}⟩

def total (body : String) : StoredFunction where
  name := .plain "total"
  returns := "integer"
  language := "sql"
  body := .raw body

def marked : String :=
  "SELECT length('$$')"

def unfinished : String :=
  "SELECT 1 AS total$"

end DollarQuotesExample

open DollarQuotesExample in
/-- A body that holds the first tag is read back between tags of the second kind. -/
theorem createFunctionText_quotesBody_marked :
    ∃ text, target.createFunctionText (total marked) = .ok text ∧
      ∃ head, text.toList = head ++ ("$fn$".toList ++ (marked.toList ++ "$fn$".toList)) ∧
        Sql.readDollarQuoted? ("$fn$".toList ++ (marked.toList ++ "$fn$".toList)) =
          some (marked.toList, []) := by
  have succeeds : Succeeds (target.createFunctionText (total marked)) := by
    decide +kernel
  rcases succeeds with ⟨text, written⟩
  rcases Target.createFunctionText_quotesBody_iff written with
    ⟨head, _, _, rfl, rfl, whole, _, exact⟩
  have tagged : Target.dollarTag (Target.functionBodyText (total marked)) = "$fn$" := by
    decide
  rw [tagged] at whole exact
  exact ⟨text, written, head, whole, exact.mpr (by decide)⟩

open DollarQuotesExample in
/-- The last character of a body completes a tag, so that a dollar sign is left. -/
theorem createFunctionText_ends_early :
    target.createFunctionText (total unfinished) =
      .ok "CREATE FUNCTION total() RETURNS integer LANGUAGE sql AS $$SELECT 1 AS total$$$" ∧
    ¬Sql.OccursLast "$$".toList unfinished.toList ∧
    Sql.readDollarQuoted? ("$$".toList ++ (unfinished.toList ++ "$$".toList)) =
      some ("SELECT 1 AS total".toList, ['$']) := by
  refine ⟨by decide +kernel, fun last => ?_, by decide⟩
  have early := last "SELECT 1 AS total".toList ['$'] (by decide)
  exact absurd early (by decide)

end SchemaDdl
