import Mathlib.Algebra.Group.Nat.Defs
import SchemaDdl.History.Record
import SchemaDdl.Proofs.Sql.Reading
import SchemaDdl.Proofs.Text.OneLine
import SchemaDdl.Proofs.Text.Splitting

/-!
# Times that are read back

The time of a record is stored in whole seconds, by one family with an offset and by the other one
without. Reading tries the strict form first. It takes a blank between date and time, and so reads
the time with an offset already; it wants an offset, and leaves the other time to the last form. No
form takes a stored time for another instant.
-/

namespace SchemaDdl

namespace Instant

/-- Whether an instant is one of whole seconds in a year of four digits, and no leap second. -/
structure IsPlain (instant : Instant) : Prop where
  valid : instant.isValid = true
  year : 0 ≤ instant.date.year ∧ instant.date.year ≤ 9999
  second : instant.second < 60
  whole : instant.nanosecond = 0

/-! ## Numbers of a width -/

section

variable {least width number : Nat} {rest : List Char}

theorem length_padded (wide : 0 < width) (fits : number < 10 ^ width) :
    (padded width number).length = width := by
  have short := (Nat.length_toDigits_le_iff (by decide) wide).mpr fits
  rw [padded, List.length_append, List.length_replicate]
  exact Nat.sub_add_cancel short

theorem isDigit_of_mem_padded {char : Char} (member : char ∈ padded width number) :
    char.isDigit = true := by
  rcases List.mem_append.mp member with zero | digit
  · rw [(List.mem_replicate.mp zero).2]
    rfl
  · exact Nat.isDigit_of_mem_toDigits (by decide) (by decide) digit

theorem digitsValue_padded : digitsValue (padded width number) = number := by
  have value :
      digitsValue (padded width number) = Nat.ofDigitChars 10 (padded width number) 0 := rfl
  rw [value, padded, Nat.ofDigitChars_append, Nat.ofDigitChars_replicate_zero, Nat.mul_zero,
    Nat.ofDigitChars_ten_toDigits]

theorem exists_padded_eq_cons (width number : Nat) :
    ∃ digit digits, padded width number = digit :: digits ∧ digit.isDigit = true := by
  have nonempty : padded width number ≠ [] := by simp [padded, Nat.toDigits_ne_nil]
  rcases List.exists_cons_of_ne_nil nonempty with ⟨digit, digits, split⟩
  exact ⟨digit, digits, split, isDigit_of_mem_padded (split ▸ List.mem_cons_self)⟩

theorem readNumber_padded (wide : 0 < width) (fits : number < 10 ^ width) (enough : least ≤ width) :
    readNumber least width (padded width number ++ rest) = some (number, rest) := by
  have length := length_padded wide fits
  have digits : ((padded width number ++ rest).take width).takeWhile Char.isDigit =
      padded width number := by
    rw [List.take_left' length, ← List.append_nil (padded width number),
      List.takeWhile_append_of_pos fun _ => isDigit_of_mem_padded]
    rfl
  rw [readNumber, digits]
  simp only [length, Nat.not_lt.mpr enough, if_false, List.drop_left' length, digitsValue_padded]

theorem trimStart_padded :
    Text.trimStart (padded width number ++ rest) = padded width number ++ rest := by
  rcases exists_padded_eq_cons width number with ⟨digit, digits, split, isDigit⟩
  have solid := Text.not_isBlank_of_isDigit isDigit
  rw [split, List.cons_append, Text.trimStart, List.dropWhile_cons_of_neg (by simp [solid])]

theorem readField_padded (fits : number < 10 ^ 2) :
    readField (padded 2 number ++ rest) = some (number, rest) := by
  rw [readField, trimStart_padded, readNumber_padded (by decide) fits (by decide)]

theorem readField_blank : readField (' ' :: rest) = readField rest :=
  congrArg (readNumber 1 2) (List.dropWhile_cons_of_pos (by decide))

theorem readYear_padded (fits : number < 10 ^ 4) :
    readYear (padded 4 number ++ rest) = some ((number : Int), rest) := by
  rcases exists_padded_eq_cons 4 number with ⟨digit, digits, split, isDigit⟩
  unfold readYear
  rw [trimStart_padded]
  split
  · rename_i equal
    rw [split] at equal
    cases equal
    cases isDigit
  · rename_i equal
    rw [split] at equal
    cases equal
    cases isDigit
  · rw [readNumber_padded (by decide) fits (by decide)]
    rfl

@[simp] theorem skip?_cons_self {char : Char} : skip? char (char :: rest) = some rest :=
  if_pos rfl

end

/-! ## Stored times -/

section

variable {instant : Instant} {rest : List Char}

theorem IsPlain.fits (plain : instant.IsPlain) :
    instant.date.year.toNat < 10 ^ 4 ∧ instant.date.month < 10 ^ 2 ∧ instant.date.day < 10 ^ 2 ∧
      instant.hour < 10 ^ 2 ∧ instant.minute < 10 ^ 2 ∧ instant.second < 10 ^ 2 := by
  have valid := plain.valid
  have year := plain.year
  simp only [isValid, Date.isValid, Bool.and_eq_true, decide_eq_true_eq] at valid
  have days : Date.daysInMonth instant.date.year instant.date.month ≤ 31 := by
    unfold Date.daysInMonth
    split_ifs <;> decide
  omega

theorem IsPlain.ofFields (plain : instant.IsPlain) :
    ({ date := ⟨(instant.date.year.toNat : Int), instant.date.month, instant.date.day⟩,
       hour := instant.hour, minute := instant.minute, second := instant.second } : Instant) =
      instant := by
  rcases instant with ⟨⟨year, month, day⟩, hour, minute, second, nanosecond⟩
  have whole : nanosecond = 0 := plain.whole
  have same : (year.toNat : Int) = year := Int.toNat_of_nonneg plain.year.1
  subst whole
  dsimp only
  rw [same]

theorem IsPlain.ofLocal?_zero (plain : instant.IsPlain) : ofLocal? instant 0 = some instant := by
  have valid := plain.valid
  have stays : instant.minutesEarlier 0 = instant := by
    simp only [isValid, Bool.and_eq_true, decide_eq_true_eq] at valid
    have total : ((60 * instant.hour + instant.minute : Nat) : Int) - 0 =
        (60 * instant.hour + instant.minute : Nat) := Int.sub_zero _
    have hour : (60 * instant.hour + instant.minute) / 60 = instant.hour := by omega
    have minute : (60 * instant.hour + instant.minute) % 60 = instant.minute := by omega
    unfold minutesEarlier
    simp only [total, Int.toNat_natCast, hour, minute]
    rw [if_neg (by omega), if_neg (by omega)]
  simp only [ofLocal?, stays, valid, Bool.and_self, if_true]

theorem IsPlain.toList_plainText (plain : instant.IsPlain) :
    instant.plainText.toList ++ rest =
      padded 4 instant.date.year.toNat ++ '-' :: (padded 2 instant.date.month ++
        '-' :: (padded 2 instant.date.day ++ ' ' :: (padded 2 instant.hour ++
          ':' :: (padded 2 instant.minute ++ ':' :: (padded 2 instant.second ++ rest))))) := by
  rw [plainText, String.toList_ofList, dateText, yearText, if_pos plain.year, timeText]
  simp only [List.append_assoc, List.cons_append, List.nil_append]

theorem toList_offsetText :
    instant.offsetText.toList = instant.plainText.toList ++ "+00:00".toList :=
  String.toList_append

theorem IsPlain.readLooseTime_append (plain : instant.IsPlain) (rest : List Char) :
    readLooseTime (instant.plainText.toList ++ rest) = some (instant, rest) := by
  rcases plain.fits with ⟨year, month, day, hour, minute, second⟩
  rw [plain.toList_plainText, readLooseTime]
  simp only [readYear_padded year, skip?_cons_self, Option.bind_some, Option.bind_eq_bind,
    readField_padded month, readField_padded day, readField_blank, readField_padded hour,
    readField_padded minute, readField_padded second, plain.ofFields]
  rfl

theorem IsPlain.ofStrictText?_append (plain : instant.IsPlain) (rest : List Char) :
    ofStrictText? (instant.plainText.toList ++ rest) = (readFraction rest).bind fun fraction =>
      (readStrictOffset fraction.2).bind fun offset =>
        if offset.2.isEmpty then ofLocal? { instant with nanosecond := fraction.1 } offset.1
        else none := by
  rcases plain.fits with ⟨year, month, day, hour, minute, second⟩
  have pair {number : Nat} (fits : number < 10 ^ 2) {text : List Char} :
      readNumber 2 2 (padded 2 number ++ text) = some (number, text) :=
    readNumber_padded (by decide) fits (Nat.le_refl _)
  have noLetter {text : List Char} :
      skip? 'T' (' ' :: text) = none ∧ skip? 't' (' ' :: text) = none := ⟨rfl, rfl⟩
  have sameYear : (instant.date.year.toNat : Int) = instant.date.year :=
    Int.toNat_of_nonneg plain.year.1
  rw [plain.toList_plainText, ofStrictText?]
  simp only [readNumber_padded (by decide) year (Nat.le_refl _), pair month, pair day, pair hour,
    pair minute, pair second, skip?_cons_self, noLetter, sameYear, Option.bind_some,
    Option.bind_eq_bind, Option.none_or]

theorem IsPlain.forms_plainText (plain : instant.IsPlain) :
    ofStrictText? instant.plainText.toList = none ∧
      ofOffsetText? instant.plainText.toList = none ∧
      ofPlainText? instant.plainText.toList = some instant := by
  have strict := plain.ofStrictText?_append []
  have loose := plain.readLooseTime_append []
  rw [List.append_nil] at strict loose
  refine ⟨strict, ?_, ?_⟩
  · rw [ofOffsetText?, loose]
    rfl
  · rw [ofPlainText?, loose]
    exact plain.ofLocal?_zero

theorem IsPlain.forms_offsetText (plain : instant.IsPlain) :
    ofStrictText? instant.offsetText.toList = some instant ∧
      ofOffsetText? instant.offsetText.toList = some instant ∧
      ofPlainText? instant.offsetText.toList = none := by
  have whole : { instant with nanosecond := 0 } = instant := by rw [← plain.whole]
  have loose := plain.readLooseTime_append "+00:00".toList
  rw [toList_offsetText]
  refine ⟨?_, ?_, ?_⟩
  · refine (plain.ofStrictText?_append _).trans (Eq.trans ?_ plain.ofLocal?_zero)
    rw [← whole]
    rfl
  · rw [ofOffsetText?, loose]
    exact plain.ofLocal?_zero
  · rw [ofPlainText?, loose]
    rfl

end

/-! ## The forms -/

/-- The forms in which a time is read, in the order in which they are tried. -/
def forms : List (List Char → Option Instant) :=
  [ofStrictText?, ofOffsetText?, ofPlainText?]

theorem ofText?_eq_findSome? (text : String) :
    ofText? text = forms.findSome? fun form => form text.toList := by
  simp only [ofText?, forms, List.findSome?_cons, List.findSome?_nil]
  cases ofStrictText? text.toList <;> cases ofOffsetText? text.toList <;>
    cases ofPlainText? text.toList <;> rfl

def ReadsOnlyAs (text : String) (instant : Instant) : Prop :=
  (∃ form ∈ forms, form text.toList = some instant) ∧
    ∀ form ∈ forms, ∀ other, form text.toList = some other → other = instant

theorem ReadsOnlyAs.ofText? {text : String} {instant : Instant} (reads : ReadsOnlyAs text instant) :
    ofText? text = some instant := by
  rw [ofText?_eq_findSome?]
  cases found : forms.findSome? fun form => form text.toList with
  | none =>
      rcases reads.1 with ⟨form, member, read⟩
      rw [List.findSome?_eq_none_iff.mp found form member] at read
      cases read
  | some other =>
      rcases List.exists_of_findSome?_eq_some found with ⟨form, member, read⟩
      rw [reads.2 form member other read]

end Instant

namespace MigrationRecord

variable {family : Family} {record : MigrationRecord}

theorem readsOnlyAs_timeText (plain : record.appliedAt.IsPlain) :
    Instant.ReadsOnlyAs (timeText family record.appliedAt) record.appliedAt := by
  have only {form : Option Instant} (read : form = none ∨ form = some record.appliedAt) :
      ∀ other, form = some other → other = record.appliedAt := by
    rintro other rfl
    exact read.elim nofun Option.some.inj
  unfold Instant.ReadsOnlyAs Instant.forms
  simp only [List.forall_mem_cons]
  cases family with
  | postgres =>
      rcases plain.forms_offsetText with ⟨strict, offset, without⟩
      exact ⟨⟨_, List.mem_cons_self, strict⟩, only (.inr strict), only (.inr offset),
        only (.inl without), List.forall_mem_nil _⟩
  | sqlite =>
      rcases plain.forms_plainText with ⟨strict, offset, without⟩
      exact ⟨⟨_, List.mem_of_getLast? rfl, without⟩, only (.inl strict), only (.inl offset),
        only (.inr without), List.forall_mem_nil _⟩

theorem quote_not_mem_timeText (plain : record.appliedAt.IsPlain) :
    '\'' ∉ (timeText family record.appliedAt).toList := by
  have digits {width number : Nat} : '\'' ∉ Instant.padded width number := fun member =>
    absurd (Instant.isDigit_of_mem_padded member) (by decide)
  have free : '\'' ∉ record.appliedAt.plainText.toList := by
    rw [← List.append_nil record.appliedAt.plainText.toList, plain.toList_plainText]
    simp [digits]
  cases family with
  | postgres =>
      rw [timeText, Instant.toList_offsetText, List.mem_append, not_or]
      exact ⟨free, by decide⟩
  | sqlite => exact free

theorem insertText_eq_append (plain : record.appliedAt.IsPlain) :
    ∃ front, insertText family record =
      front ++ ("'" ++ timeText family record.appliedAt ++ "')") := by
  have literal : Sql.literal (timeText family record.appliedAt) =
      "'" ++ timeText family record.appliedAt ++ "'" := by
    apply String.toList_injective
    rw [Sql.literal, String.toList_ofList, Sql.enclose_eq,
      Sql.doubled_of_not_mem (quote_not_mem_timeText plain)]
    simp
  refine ⟨s!"INSERT INTO {tableName} (name, checksum, batch, applied_at) VALUES ("
    ++ Text.listed [Sql.literal record.name, Sql.literal record.checksum, toString record.batch]
    ++ ", ", ?_⟩
  have listed (first second third last : String) : Text.listed [first, second, third, last] =
      Text.listed [first, second, third] ++ ", " ++ last := rfl
  have closing : "'" ++ ")" = "')" := rfl
  rw [insertText]
  delta insertTextAt
  rw [listed, literal]
  simp only [Text.toString_string, String.append_assoc, closing]

/-- The time that the statement for a record ends with is read back as the time of the record, and
no form reads another instant from it. -/
theorem storedTime_readsBack (plain : record.appliedAt.IsPlain) :
    (∃ front, insertText family record =
        front ++ ("'" ++ timeText family record.appliedAt ++ "')")) ∧
      Instant.ofText? (timeText family record.appliedAt) = some record.appliedAt ∧
      ∀ form ∈ Instant.forms, ∀ instant,
        form (timeText family record.appliedAt).toList = some instant →
          instant = record.appliedAt :=
  have reads := readsOnlyAs_timeText plain
  ⟨insertText_eq_append plain, reads.ofText?, reads.2⟩

namespace StoredTimeExample

def leapDay : Instant :=
  ⟨⟨0, 2, 29⟩, 23, 59, 59, 0⟩

def leapDayRecord : MigrationRecord :=
  ⟨"add_pages", "ab", 1, leapDay⟩

end StoredTimeExample

open StoredTimeExample in
/-- The leap day of the first year is read back from both families. -/
theorem storedTime_readsBack_leapDay :
    leapDayRecord.appliedAt.IsPlain ∧
      timeText .postgres leapDay = "0000-02-29 23:59:59+00:00" ∧
      Instant.ofText? (timeText .postgres leapDay) = some leapDay ∧
      timeText .sqlite leapDay = "0000-02-29 23:59:59" ∧
      Instant.ofText? (timeText .sqlite leapDay) = some leapDay := by
  have plain : leapDayRecord.appliedAt.IsPlain := ⟨by decide, by decide, by decide, rfl⟩
  have postgres := @storedTime_readsBack .postgres leapDayRecord plain
  have sqlite := @storedTime_readsBack .sqlite leapDayRecord plain
  exact ⟨plain, by decide +kernel, postgres.2.1, by decide +kernel, sqlite.2.1⟩

end MigrationRecord

end SchemaDdl
