import Mathlib.Data.List.Basic
import SchemaDdl.Sql.Expression

/-!
# Nesting of parentheses

Texts in which literals and parentheses are balanced, where a parenthesis inside a literal is none.
What a text opens and closes is counted character by character, and the count comes out even exactly
for balanced texts. A text is taken for parenthesized exactly if its first parenthesis encloses all
the rest.
-/

namespace SchemaDdl.Sql

/-- A text whose literals are closed, and whose parentheses are balanced outside of literals. -/
inductive Balanced : List Char → Prop where
  | nil : Balanced []
  | plain {char : Char} {rest : List Char} (other : char ≠ '\'' ∧ char ≠ '(' ∧ char ≠ ')')
      (balanced : Balanced rest) : Balanced (char :: rest)
  | quoted {inner rest : List Char} (closed : '\'' ∉ inner) (balanced : Balanced rest) :
      Balanced ('\'' :: (inner ++ '\'' :: rest))
  | group {inner rest : List Char} (enclosed : Balanced inner) (balanced : Balanced rest) :
      Balanced ('(' :: (inner ++ ')' :: rest))

/-! ## Counting -/

structure Nesting where
  /-- The number of open parentheses. -/
  depth : Nat
  /-- Whether a literal is open, which hides parentheses. -/
  hidden : Bool
deriving DecidableEq, Repr

namespace Nesting

def outside (depth : Nat) : Nesting :=
  ⟨depth, false⟩

def inside (depth : Nat) : Nesting :=
  ⟨depth, true⟩

def after? (state : Nesting) (char : Char) : Option Nesting :=
  if char = '\'' then some ⟨state.depth, !state.hidden⟩
  else if state.hidden then some state
  else if char = '(' then some ⟨state.depth + 1, false⟩
  else if char ≠ ')' then some state
  else if state.depth = 0 then none
  else some ⟨state.depth - 1, false⟩

def afterAll? (state : Nesting) (text : List Char) : Option Nesting :=
  text.foldlM after? state

variable {state final : Nesting} {char : Char} {text rest : List Char} {depth : Nat}

@[simp] theorem afterAll?_nil : state.afterAll? [] = some state :=
  rfl

theorem afterAll?_cons :
    state.afterAll? (char :: rest) = (state.after? char).bind (·.afterAll? rest) :=
  List.foldlM_cons

theorem afterAll?_append :
    state.afterAll? (text ++ rest) = (state.afterAll? text).bind (·.afterAll? rest) :=
  List.foldlM_append

@[simp] theorem after?_quote_outside : (outside depth).after? '\'' = some (inside depth) :=
  rfl

@[simp] theorem after?_quote_inside : (inside depth).after? '\'' = some (outside depth) :=
  rfl

@[simp] theorem after?_opening : (outside depth).after? '(' = some (outside (depth + 1)) :=
  rfl

@[simp] theorem after?_closing : (outside (depth + 1)).after? ')' = some (outside depth) :=
  rfl

@[simp] theorem after?_closing_zero : (outside 0).after? ')' = none :=
  rfl

theorem after?_of_plain (other : char ≠ '\'' ∧ char ≠ '(' ∧ char ≠ ')') :
    state.after? char = some state := by
  simp [after?, other]

theorem after?_inside (other : char ≠ '\'') : (inside depth).after? char = some (inside depth) := by
  simp [after?, inside, other]

theorem afterAll?_of_plain (each : ∀ char ∈ text, char ≠ '\'' ∧ char ≠ '(' ∧ char ≠ ')') :
    state.afterAll? text = some state := by
  induction text with
  | nil => rfl
  | cons char text induction =>
      rw [afterAll?_cons, after?_of_plain (each char List.mem_cons_self), Option.bind_some]
      exact induction fun other member => each other (List.mem_cons_of_mem char member)

theorem afterAll?_inside (closed : '\'' ∉ text) :
    (inside depth).afterAll? text = some (inside depth) := by
  induction text with
  | nil => rfl
  | cons char text induction =>
      rw [List.mem_cons, not_or] at closed
      rw [afterAll?_cons, after?_inside (Ne.symm closed.1), Option.bind_some]
      exact induction closed.2

theorem after?_eq_none_iff : state.after? char = none ↔ state = outside 0 ∧ char = ')' := by
  rcases state with ⟨depth, hidden⟩
  simp only [after?, outside, Nesting.mk.injEq]
  split_ifs <;> simp_all

end Nesting

/-! ## Balanced texts -/

open Nesting

variable {text rest inner : List Char} {depth : Nat} {char : Char}

theorem Balanced.afterAll? (balanced : Balanced text) (depth : Nat) :
    (outside depth).afterAll? text = some (outside depth) := by
  induction balanced generalizing depth with
  | nil => rfl
  | plain other _ induction =>
      rw [afterAll?_cons, after?_of_plain other, Option.bind_some, induction]
  | quoted closed _ induction =>
      rw [afterAll?_cons, after?_quote_outside, Option.bind_some, afterAll?_append,
        afterAll?_inside closed, Option.bind_some, afterAll?_cons, after?_quote_inside,
        Option.bind_some, induction]
  | group _ _ enclosed induction =>
      rw [afterAll?_cons, after?_opening, Option.bind_some, afterAll?_append, enclosed,
        Option.bind_some, afterAll?_cons, after?_closing, Option.bind_some, induction]

/-- Whether a text closes so many parentheses, with balanced texts in front of and behind each. -/
def Closes : (depth : Nat) → List Char → Prop
  | 0, text => Balanced text
  | depth + 1, text =>
      ∃ inner rest, text = inner ++ ')' :: rest ∧ Balanced inner ∧ Closes depth rest

theorem Closes.plain (other : char ≠ '\'' ∧ char ≠ '(' ∧ char ≠ ')') (closes : Closes depth rest) :
    Closes depth (char :: rest) := by
  cases depth with
  | zero => exact Balanced.plain other closes
  | succ depth =>
      rcases closes with ⟨inner, more, rfl, balanced, closes⟩
      exact ⟨char :: inner, more, rfl, balanced.plain other, closes⟩

theorem Closes.quoted (closed : '\'' ∉ inner) (closes : Closes depth rest) :
    Closes depth ('\'' :: (inner ++ '\'' :: rest)) := by
  cases depth with
  | zero => exact Balanced.quoted closed closes
  | succ depth =>
      rcases closes with ⟨before, more, rfl, balanced, closes⟩
      exact ⟨'\'' :: (inner ++ '\'' :: before), more, by simp, balanced.quoted closed, closes⟩

theorem Closes.group (closes : Closes (depth + 1) rest) : Closes depth ('(' :: rest) := by
  rcases closes with ⟨inner, more, rfl, enclosed, closes⟩
  cases depth with
  | zero => exact Balanced.group enclosed closes
  | succ depth =>
      rcases closes with ⟨before, behind, rfl, balanced, closes⟩
      exact ⟨'(' :: (inner ++ ')' :: before), behind, by simp, enclosed.group balanced, closes⟩

theorem closes_of_afterAll? (text : List Char) :
    (∀ depth, (outside depth).afterAll? text = some (outside 0) → Closes depth text) ∧
    ∀ depth, (inside depth).afterAll? text = some (outside 0) →
      ∃ inner rest, text = inner ++ '\'' :: rest ∧ '\'' ∉ inner ∧ Closes depth rest := by
  induction text with
  | nil =>
      constructor
      · intro depth even
        obtain rfl : depth = 0 := congrArg Nesting.depth (Option.some.inj even)
        exact Balanced.nil
      · intro depth even
        cases congrArg Nesting.hidden (Option.some.inj even)
  | cons char text induction =>
      rcases induction with ⟨before, within⟩
      constructor
      · intro depth even
        rw [afterAll?_cons] at even
        rcases eq_or_ne char '\'' with rfl | quote
        · rcases within depth even with ⟨inner, rest, rfl, closed, closes⟩
          exact closes.quoted closed
        rcases eq_or_ne char '(' with rfl | opening
        · exact (before (depth + 1) even).group
        rcases eq_or_ne char ')' with rfl | closing
        · cases depth with
          | zero => cases even
          | succ depth => exact ⟨[], text, rfl, .nil, before depth even⟩
        · rw [after?_of_plain ⟨quote, opening, closing⟩] at even
          exact (before depth even).plain ⟨quote, opening, closing⟩
      · intro depth even
        rw [afterAll?_cons] at even
        rcases eq_or_ne char '\'' with rfl | quote
        · exact ⟨[], text, rfl, List.not_mem_nil, before depth even⟩
        · rw [after?_inside quote] at even
          rcases within depth even with ⟨inner, rest, rfl, closed, closes⟩
          refine ⟨char :: inner, rest, rfl, ?_, closes⟩
          rw [List.mem_cons, not_or]
          exact ⟨Ne.symm quote, closed⟩

theorem balanced_iff : Balanced text ↔ (outside 0).afterAll? text = some (outside 0) :=
  ⟨fun balanced => balanced.afterAll? 0, (closes_of_afterAll? text).1 0⟩

instance (text : List Char) : Decidable (Balanced text) :=
  decidable_of_iff _ balanced_iff.symm

/-! ## Parenthesized texts -/

theorem closesAtEnd_cons (state : Nesting) (char : Char) (rest : List Char) :
    closesAtEnd (state.depth + 1) state.hidden (char :: rest) =
      match state.after? char with
      | some next => closesAtEnd (next.depth + 1) next.hidden rest
      | none => rest.isEmpty := by
  rcases state with ⟨depth, hidden⟩
  rcases eq_or_ne char '\'' with rfl | quote
  · rfl
  rcases eq_or_ne char '(' with rfl | opening
  · cases hidden <;> rfl
  rcases eq_or_ne char ')' with rfl | closing
  · cases hidden with
    | true => rfl
    | false => cases depth <;> rfl
  · rw [after?_of_plain ⟨quote, opening, closing⟩, closesAtEnd.eq_5 _ _ _ _ quote opening closing]

theorem closesAtEnd_iff (state : Nesting) (text : List Char) :
    closesAtEnd (state.depth + 1) state.hidden text = true ↔
      ∃ inner, text = inner ++ [')'] ∧ state.afterAll? inner = some (outside 0) := by
  induction text generalizing state with
  | nil => simp [closesAtEnd]
  | cons char rest induction =>
      rw [closesAtEnd_cons]
      cases next : state.after? char with
      | none =>
          rcases after?_eq_none_iff.mp next with ⟨rfl, rfl⟩
          rw [List.isEmpty_iff]
          constructor
          · rintro rfl
            exact ⟨[], rfl, rfl⟩
          · rintro ⟨inner, whole, even⟩
            cases inner with
            | nil => exact (List.cons.inj whole).2
            | cons first inner =>
                rw [List.cons_append, List.cons.injEq] at whole
                rw [← whole.1] at even
                cases even
      | some next =>
          rw [induction]
          constructor
          · rintro ⟨inner, rfl, even⟩
            refine ⟨char :: inner, rfl, ?_⟩
            rw [afterAll?_cons, ‹state.after? char = _›, Option.bind_some, even]
          · rintro ⟨inner, whole, even⟩
            cases inner with
            | nil =>
                obtain rfl : state = outside 0 := Option.some.inj even
                cases whole
                cases ‹(outside 0).after? ')' = _›
            | cons first inner =>
                rw [List.cons_append, List.cons.injEq] at whole
                rw [← whole.1, afterAll?_cons, ‹state.after? char = _›, Option.bind_some] at even
                exact ⟨inner, whole.2, even⟩

theorem isParenthesized_iff :
    isParenthesized text = true ↔ ∃ inner, text = '(' :: (inner ++ [')']) ∧ Balanced inner := by
  constructor
  · intro enclosed
    unfold isParenthesized at enclosed
    split at enclosed
    · rcases (closesAtEnd_iff (outside 0) _).mp enclosed with ⟨inner, rfl, even⟩
      exact ⟨inner, rfl, balanced_iff.mpr even⟩
    · cases enclosed
  · rintro ⟨inner, rfl, balanced⟩
    exact (closesAtEnd_iff (outside 0) _).mpr ⟨inner, rfl, balanced_iff.mp balanced⟩

example : Balanced "a || ')' || (b)".toList := by decide
example : ¬Balanced "a) || (b".toList := by decide

end SchemaDdl.Sql
