import Mathlib
import SchemaDdl.Proofs.Script.Opening
import SchemaDdl.Sql.Quoted

/-!
# Scripts without transactions

What the rules for D1 make of a script whose lines they leave alone, but for those that begin and
end a transaction: these are taken out, and nothing else changes but for a line break at the end.
-/

namespace SchemaDdl.Script

open Text

def platformWords : List String :=
  ["BEGIN", "COMMIT", "END", "ROLLBACK", "PRAGMA"]

structure Calm (line : List Char) : Prop where
  transactions : Rule.removeTransactions.pattern.IsSilentOn line
  pragmas : Rule.removeForeignKeyPragmas.pattern.IsSilentOn line

theorem calm_of_opensWith {line : List Char}
    (silent : ∀ rest : List Char, rest.head?.all (· == '\n') = true →
      opensWith platformWords (line ++ rest) = false) : Calm line where
  transactions rest ends :=
    Pattern.after?_of_opensWith (by decide +kernel) (silent rest ends) none
  pragmas rest ends :=
    Pattern.after?_of_opensWith (by decide +kernel) (silent rest ends) none

theorem calm_of_quiet {line : List Char} (quiet : Quiet platformWords line) : Calm line :=
  calm_of_opensWith fun rest _ => quiet rest

theorem calm_nil : Calm [] := by
  apply calm_of_opensWith
  intro rest ends
  cases rest with
  | nil => rfl
  | cons char rest =>
      cases eq_of_beq ends
      rfl

theorem calm_deferral : Calm "PRAGMA defer_foreign_keys = ON;".toList where
  transactions rest _ := by
    have asks : Rule.removeTransactions.pattern.asksFor ["BEGIN", "COMMIT", "END", "ROLLBACK"] := by
      decide +kernel
    exact Pattern.after?_of_opensWith asks rfl none
  pragmas _ _ := rfl

/-! ## Names at the beginning of a line -/

theorem isBareChar_spec {char : Char} (bare : Sql.isBareChar char = true) :
    isBlank char = false ∧ isIndent char = false ∧ char ≠ ';' ∧ char ≠ '\n' ∧ fold char = char := by
  have each : ∀ code : Fin 128, Sql.isBareChar (Char.ofNat code) = true →
      isBlank (Char.ofNat code) = false ∧ isIndent (Char.ofNat code) = false ∧
        Char.ofNat code ≠ ';' ∧ Char.ofNat code ≠ '\n' ∧
        fold (Char.ofNat code) = Char.ofNat code := by
    decide +kernel
  have small : char.toNat < 128 := by
    simp only [Sql.isBareChar, Char.isLower, Char.isDigit, Bool.or_eq_true, Bool.and_eq_true,
      decide_eq_true_eq, beq_iff_eq] at bare
    rcases bare with (⟨_, upper⟩ | ⟨_, upper⟩) | rfl
    · have : char.toNat ≤ 122 := upper
      omega
    · have : char.toNat ≤ 57 := upper
      omega
    · decide
  have holds := each ⟨char.toNat, small⟩
  rw [Char.ofNat_toNat] at holds
  exact holds bare

theorem eq_of_afterLetters? {letters name rest after : List Char}
    (bare : name.all Sql.isBareChar = true) (plain : ∀ letter ∈ letters, fold letter ≠ ' ')
    (found : afterLetters? letters (name ++ ' ' :: rest) = some after)
    (cut : isCut after = true) : name = foldAll letters := by
  induction letters generalizing name with
  | nil =>
      cases found
      cases name with
      | nil => rfl
      | cons char name =>
          rcases isBareChar_spec (List.all_eq_true.mp bare char List.mem_cons_self) with
            ⟨solid, _, other, _⟩
          simp [isCut, solid, other] at cut
  | cons letter letters induction =>
      cases name with
      | nil =>
          rw [List.nil_append, afterLetters?] at found
          split at found
          · rename_i same
            exact absurd same.symm (plain letter List.mem_cons_self)
          · cases found
      | cons char name =>
          rw [List.cons_append, afterLetters?] at found
          rw [List.all_cons, Bool.and_eq_true] at bare
          split at found
          · rename_i same
            rw [(isBareChar_spec bare.1).2.2.2.2] at same
            have others := induction bare.2
              (fun letter member => plain letter (List.mem_cons_of_mem _ member)) found
            rw [same, others]
            rfl
          · cases found

theorem reserved_platformWords :
    platformWords.all (fun word => word.toList.all (fun letter => fold letter != ' ')
      && Sql.isReserved .sqlite (String.ofList (foldAll word.toList))) = true := by
  decide +kernel

theorem quiet_identifier (name : String) :
    Quiet platformWords ((Sql.identifier .sqlite name).toList ++ [' ']) := by
  intro rest
  unfold Sql.identifier
  split
  · rw [String.toList_ofList]
    rfl
  · rename_i bare
    unfold Sql.needsQuoting at bare
    cases chars : name.toList with
    | nil => simp [chars] at bare
    | cons first others =>
        simp only [chars, Bool.or_eq_true, Bool.not_eq_true', not_or, Bool.not_eq_false,
          Bool.not_eq_true] at bare
        rcases bare with ⟨⟨_, bare⟩, free⟩
        rw [List.all_cons, Bool.and_eq_true] at bare
        have solid := (isBareChar_spec bare.1).2.1
        unfold opensWith
        rw [List.any_eq_false, List.append_assoc, List.singleton_append, List.cons_append,
          List.dropWhile_cons_of_neg (by rw [solid]; exact Bool.false_ne_true)]
        intro word member opens
        rcases (Option.any_eq_true ..).mp opens with ⟨after, found, cut⟩
        have each := List.all_eq_true.mp reserved_platformWords word member
        rcases Bool.and_eq_true_iff.mp each with ⟨letters, reserved⟩
        have plain : ∀ letter ∈ word.toList, fold letter ≠ ' ' := fun letter among =>
          bne_iff_ne.mp (List.all_eq_true.mp letters letter among)
        have bare : (first :: others).all Sql.isBareChar = true := by
          rw [List.all_cons, Bool.and_eq_true]
          exact bare
        rw [← List.cons_append] at found
        rw [← eq_of_afterLetters? bare plain found cut, ← chars, String.ofList_toList, free]
          at reserved
        cases reserved

/-! ## Scripts of calm lines and transactions -/

def isTransaction (line : List Char) : Bool :=
  line == "BEGIN;".toList || line == "COMMIT;".toList

theorem after?_transaction {line : List Char} (transaction : isTransaction line = true) :
    Rule.removeTransactions.pattern.after? none line = some [] ∧
      ∀ rest : List Char,
        Rule.removeTransactions.pattern.after? none (line ++ '\n' :: rest) = some rest := by
  rcases Bool.or_eq_true_iff.mp transaction with begin | commit
  · rw [eq_of_beq begin]
    exact ⟨rfl, fun _ => rfl⟩
  · rw [eq_of_beq commit]
    exact ⟨rfl, fun _ => rfl⟩

theorem ne_nil_of_isTransaction {line : List Char} (transaction : isTransaction line = true) :
    line ≠ [] := by
  intro empty
  rw [empty] at transaction
  cases transaction

theorem Calm.isTransaction {line : List Char} (calm : Calm line) : isTransaction line = false := by
  rw [Bool.eq_false_iff]
  intro transaction
  have silent := calm.transactions [] rfl
  rw [List.append_nil, (after?_transaction transaction).1] at silent
  cases silent

def keptLines (lines : List (List Char)) : List (List Char) :=
  lines.filter fun line => !isTransaction line

def Expected (line : List Char) : Prop :=
  '\n' ∉ line ∧ (Calm line ∨ isTransaction line = true)

@[simp] theorem keptLines_cons_of_calm {line : List Char} (calm : Calm line)
    (others : List (List Char)) : keptLines (line :: others) = line :: keptLines others :=
  List.filter_cons_of_pos (by rw [calm.isTransaction]; rfl)

@[simp] theorem keptLines_cons_of_transaction {line : List Char}
    (transaction : isTransaction line = true) (others : List (List Char)) :
    keptLines (line :: others) = keptLines others :=
  List.filter_cons_of_neg (by rw [transaction]; exact Bool.false_ne_true)

theorem run_transaction {previous : Option Char} (begins : lineBegins previous = true)
    {line : List Char} (transaction : isTransaction line = true) (rest : List Char) :
    Rule.removeTransactions.run previous (line ++ '\n' :: rest) =
      Rule.removeTransactions.run (some '\n') rest := by
  have whole : line ++ '\n' :: rest = (line ++ ['\n']) ++ rest := by
    rw [List.append_assoc, List.singleton_append]
  have after : Rule.removeTransactions.pattern.after? previous (line ++ '\n' :: rest) =
      some rest := by
    rw [Pattern.after?_of_isAnchored rfl, if_pos begins]
    exact (after?_transaction transaction).2 rest
  rw [whole] at after ⊢
  rw [Rule.run_found (by simp) after, List.getLast?_concat]
  rfl

theorem run_last_transaction {previous : Option Char} (begins : lineBegins previous = true)
    {line : List Char} (transaction : isTransaction line = true) :
    Rule.removeTransactions.run previous line = [] := by
  have after : Rule.removeTransactions.pattern.after? previous line = some [] := by
    rw [Pattern.after?_of_isAnchored rfl, if_pos begins]
    exact (after?_transaction transaction).1
  rw [← List.append_nil line] at after ⊢
  rw [Rule.run_found (ne_nil_of_isTransaction transaction) after, Rule.run, segments_nil]
  rfl

theorem run_removeTransactions {previous : Option Char} (begins : lineBegins previous = true)
    {lines : List (List Char)} (expected : ∀ line ∈ lines, Expected line) :
    ∃ ending, (ending = [] ∨ ending = [[]]) ∧
      Rule.removeTransactions.run previous (ofLines lines) =
        ofLines (keptLines lines ++ ending) := by
  induction lines generalizing previous with
  | nil => exact ⟨[], Or.inl rfl, by rw [Rule.run, ofLines, segments_nil]; rfl⟩
  | cons line others induction =>
      rcases expected line List.mem_cons_self with ⟨single, kind⟩
      cases others with
      | nil =>
          refine ⟨[], Or.inl rfl, ?_⟩
          rcases kind with calm | transaction
          · rw [keptLines_cons_of_calm calm]
            apply Rule.run_ofLines rfl begins
            · simpa using single
            · simpa using calm.transactions
          · rw [keptLines_cons_of_transaction transaction]
            exact run_last_transaction begins transaction
      | cons next others =>
          rcases @induction (some '\n') rfl
            fun line member => expected line (List.mem_cons_of_mem _ member) with
            ⟨ending, few, equal⟩
          rw [ofLines_cons (List.cons_ne_nil _ _)]
          rcases kind with calm | transaction
          · rw [keptLines_cons_of_calm calm, Rule.run_line rfl begins single calm.transactions,
              equal]
            cases left : keptLines (next :: others) ++ ending with
            | nil => exact ⟨[[]], Or.inr rfl, by rw [(List.append_eq_nil_iff.mp left).1]; rfl⟩
            | cons kept left' =>
                refine ⟨ending, few, ?_⟩
                rw [List.cons_append, left, ofLines_cons (List.cons_ne_nil _ _)]
          · rw [keptLines_cons_of_transaction transaction, run_transaction begins transaction]
            exact ⟨ending, few, equal⟩

theorem trimEnd_adapt_d1 {script : String}
    (expected : ∀ line ∈ lines script.toList, Calm line ∨ isTransaction line = true) :
    trimEnd (adapt .d1 script).script =
      trimEnd (ofLines (keptLines (lines script.toList))) := by
  have adapted : (adapt .d1 script).script =
      Rule.removeForeignKeyPragmas.run none
        (Rule.removeTransactions.run none (ofLines (lines script.toList))) := by
    rw [ofLines_lines]
    exact Adaptation.script_apply _ _ |>.trans (congrArg _ (Adaptation.script_apply _ _))
  have begins : lineBegins none = true := rfl
  rcases run_removeTransactions begins fun line member =>
    ⟨not_mem_of_mem_lines member, expected line member⟩ with ⟨ending, few, once⟩
  have left : ∀ line ∈ keptLines (lines script.toList) ++ ending, '\n' ∉ line ∧ Calm line := by
    intro line member
    rcases List.mem_append.mp member with member | member
    · rcases List.mem_filter.mp member with ⟨member, kept⟩
      rcases expected line member with calm | transaction
      · exact ⟨not_mem_of_mem_lines member, calm⟩
      · rw [transaction] at kept
        cases kept
    · rcases few with rfl | rfl
      · cases member
      · rw [List.mem_singleton.mp member]
        exact ⟨List.not_mem_nil, calm_nil⟩
  have twice : Rule.removeForeignKeyPragmas.run none
      (ofLines (keptLines (lines script.toList) ++ ending)) =
      ofLines (keptLines (lines script.toList) ++ ending) :=
    Rule.run_ofLines rfl begins (fun line member => (left line member).1)
      fun line member => (left line member).2.pragmas
  rw [adapted, once, twice]
  rcases few with rfl | rfl
  · rw [List.append_nil]
  · cases keptLines (lines script.toList) with
    | nil => rfl
    | cons line others =>
        rw [ofLines_concat_nil (List.cons_ne_nil _ _), trimEnd_append (by decide)]

end SchemaDdl.Script
