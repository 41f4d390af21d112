import Ensemble.Proofs.Text.Digits
import Ensemble.Time.Rfc3339

/-!
# Times that read back

A time of the years 0 to 9999 is read as the time it was written for (`Timestamp.parse_print`),
with a second 60 and with each of the four lengths of the fraction.

Years with a sign, offsets and the blanks the reader tolerates are not covered.
-/

namespace Ensemble.Time

/-! ## Digits -/

theorem isBlank_of_isDigit {c : Char} (digit : c.isDigit = true) : Text.isBlank c = false := by
  have low : 48 ≤ c.toNat := (Char.isDigit_iff_toNat.mp digit).1
  have high : c.toNat ≤ 57 := (Char.isDigit_iff_toNat.mp digit).2
  simp only [Text.isBlank, Bool.or_eq_false_iff, Bool.and_eq_false_iff, decide_eq_false_iff_not,
    beq_eq_false_iff_ne]
  omega

theorem length_toDigits_le {n : Nat} (width : Nat) (some : 0 < width)
    (fits : n < Nat.pow 10 width) :
    (Nat.toDigits 10 n).length ≤ width := (Nat.length_toDigits_le_iff (by decide) some).mpr fits

section Padded

variable {width n : Nat}

theorem isDigit_of_mem_padded {c : Char} (h : c ∈ padded width n) : c.isDigit = true := by
  rcases List.mem_append.mp h with zero | digit
  · rw [List.eq_of_mem_replicate zero]
    rfl
  · exact Text.isDigit_of_mem_toDigits digit

theorem length_padded (fits : (Nat.toDigits 10 n).length ≤ width) :
    (padded width n).length = width := by
  rw [padded, List.length_append, List.length_replicate]
  omega

theorem digitsValue_padded : Text.digitsValue (padded width n) = n := by
  have zeros (m : Nat) : Nat.ofDigitChars 10 (List.replicate m '0') 0 = 0 := by
    induction m with
    | zero => rfl
    | succ m ih => rw [List.replicate_succ, Nat.ofDigitChars_cons]; exact ih
  rw [Text.digitsValue_eq, padded, Nat.ofDigitChars_append, zeros, Nat.ofDigitChars_ten_toDigits]

theorem padded_ne_nil : padded width n ≠ [] :=
  List.append_ne_nil_of_right_ne_nil _ Nat.toDigits_ne_nil

theorem trimLeft_padded (width n : Nat) (rest : List Char) :
    Text.trimLeft (padded width n ++ rest) = padded width n ++ rest := by
  cases shape : padded width n with
  | nil => exact absurd shape padded_ne_nil
  | cons c cs =>
    have digit : c.isDigit = true := isDigit_of_mem_padded (shape ▸ List.mem_cons_self)
    rw [Text.trimLeft, List.cons_append, List.dropWhile_cons_of_neg]
    simp [isBlank_of_isDigit digit]

/-- Of as many characters as a number may have, its digits are those of the number. -/
theorem takeWhile_padded {limit : Nat} {rest : List Char}
    (fits : (Nat.toDigits 10 n).length ≤ width)
    (le : width ≤ limit) (stops : (rest.take (limit - width)).takeWhile Char.isDigit = []) :
    ((padded width n ++ rest).take limit).takeWhile Char.isDigit = padded width n := by
  have length := length_padded fits
  rw [List.take_append, List.take_of_length_le (by omega), length,
    List.takeWhile_append_of_pos fun _ => isDigit_of_mem_padded, stops, List.append_nil]

theorem readDigits_padded {limit : Nat} (rest : List Char)
    (fits : (Nat.toDigits 10 n).length ≤ width) (le : width ≤ limit)
    (stops : (rest.take (limit - width)).takeWhile Char.isDigit = []) :
    readDigits limit (padded width n ++ rest) = .ok (n, rest) := by
  have digits := takeWhile_padded fits le stops
  have kept : (padded width n ++ rest).drop (padded width n).length = rest := by simp
  simp only [readDigits, digits, kept, digitsValue_padded]
  cases shape : padded width n with
  | nil => exact absurd shape padded_ne_nil
  | cons c cs => rfl

theorem readNumber_padded {low high : Nat} (fits : (Nat.toDigits 10 n).length ≤ width)
    (within : low ≤ n ∧ n ≤ high) (rest : List Char) :
    readNumber width low high (padded width n ++ rest) = .ok (n, rest) := by
  have read := readDigits_padded rest fits (Nat.le_refl _) (by simp)
  rw [readNumber, trimLeft_padded, read]
  show (if low ≤ n ∧ n ≤ high then _ else _) = _
  rw [if_pos within]
  rfl

theorem readNumber_two {n low high : Nat} (within : low ≤ n ∧ n ≤ high) (le : high ≤ 99)
    (rest : List Char) : readNumber 2 low high (padded 2 n ++ rest) = .ok (n, rest) :=
  readNumber_padded (length_toDigits_le 2 (by decide) (show n < 100 by omega)) within rest

theorem readYear_padded (fits : (Nat.toDigits 10 n).length ≤ 4) (rest : List Char) :
    readYear (padded 4 n ++ rest) = .ok ((n : Int), rest) := by
  have read := readDigits_padded rest fits (Nat.le_refl _) (by simp)
  simp only [readYear, trimLeft_padded]
  cases shape : padded 4 n with
  | nil => exact absurd shape padded_ne_nil
  | cons c cs =>
    have digit : c.isDigit = true := isDigit_of_mem_padded (shape ▸ List.mem_cons_self)
    rw [shape] at read
    rw [List.cons_append] at read ⊢
    split
    · rename_i same
      cases same
      cases digit
    · rename_i same
      cases same
      cases digit
    · rw [read]
      rfl

end Padded

theorem readFraction_padded (width n : Nat) (fits : (Nat.toDigits 10 n).length ≤ width)
    (le : width ≤ 9) :
    readFraction ('.' :: padded width n ++ ['Z']) = .ok (n * Nat.pow 10 (9 - width), ['Z']) := by
  have stops : ((['Z'] : List Char).take (9 - width)).takeWhile Char.isDigit = [] := by
    cases 9 - width <;> rfl
  have read := readDigits_padded _ fits le stops
  have digits := takeWhile_padded fits le stops
  rw [List.cons_append, readFraction, read]
  simp only [digits, digitsValue_padded, length_padded fits]
  rfl

theorem readFraction_print {nanosecond : Nat} (fits : nanosecond < 1000000000) :
    readFraction (printFraction nanosecond ++ ['Z']) = .ok (nanosecond, ['Z']) := by
  unfold printFraction
  split
  · subst nanosecond
    rfl
  split
  · rename_i whole
    have digits := length_toDigits_le 3 (by decide)
      (show nanosecond / 1000000 < 1000 by omega)
    have value : nanosecond / 1000000 * 1000000 = nanosecond := by omega
    rw [readFraction_padded 3 _ digits (by decide)]
    exact congrArg (fun n => Except.ok (n, ['Z'])) value
  split
  · rename_i whole
    have digits := length_toDigits_le 6 (by decide)
      (show nanosecond / 1000 < 1000000 by omega)
    have value : nanosecond / 1000 * 1000 = nanosecond := by omega
    rw [readFraction_padded 6 _ digits (by decide)]
    exact congrArg (fun n => Except.ok (n, ['Z'])) value
  · have digits := length_toDigits_le 9 (by decide) fits
    rw [readFraction_padded 9 _ digits (by decide)]
    exact congrArg (fun n => Except.ok (n, ['Z'])) (Nat.mul_one nanosecond)

/-! ## Times -/

theorem monthLength_le (year : Int) (month : Nat) : monthLength year month ≤ 31 := by
  unfold monthLength
  split
  · split <;> decide
  all_goals decide

/-- A time of day of the calendar, in a year that is written with four digits and no sign. -/
structure Timestamp.Valid (t : Timestamp) : Prop where
  year : 0 ≤ t.date.year ∧ t.date.year ≤ 9999
  month : 1 ≤ t.date.month ∧ t.date.month ≤ 12
  day : 1 ≤ t.date.day ∧ t.date.day ≤ monthLength t.date.year t.date.month
  hour : t.hour ≤ 23
  minute : t.minute ≤ 59
  second : t.second ≤ 60
  nanosecond : t.nanosecond < 1000000000

theorem Timestamp.shift_zero {t : Timestamp} (valid : t.Valid) : t.shift 0 = t := by
  obtain ⟨date, hour, minute, second, nanosecond⟩ := t
  have hours : hour ≤ 23 := valid.hour
  have minutes : minute ≤ 59 := valid.minute
  have start : ¬ ((hour : Int) * 60 + minute + 0 < 0) := by omega
  have stop : ¬ (1440 ≤ (hour : Int) * 60 + minute + 0) := by omega
  have ofDay : (((hour : Int) * 60 + minute + 0) % 1440).toNat = hour * 60 + minute := by omega
  have hourOf : (hour * 60 + minute) / 60 = hour := by omega
  have minuteOf : (hour * 60 + minute) % 60 = minute := by omega
  simp only [Timestamp.shift, if_neg start, if_neg stop, ofDay, hourOf, minuteOf]

theorem Timestamp.parse_print {t : Timestamp} (valid : t.Valid) : parse t.print = .ok t := by
  obtain ⟨⟨year, month, day⟩, hour, minute, second, nanosecond⟩ := t
  have unmoved := shift_zero valid
  obtain ⟨years, months, days, hours, minutes, seconds, fraction⟩ := valid
  have monthLength := monthLength_le year month
  dsimp only at years months days hours minutes seconds fraction
  have four := length_toDigits_le 4 (by decide) (show year.toNat < 10000 by omega)
  have signless : ((year.toNat : Nat) : Int) = year := by omega
  have text : print ⟨⟨year, month, day⟩, hour, minute, second, nanosecond⟩ =
      padded 4 year.toNat ++ '-' :: (padded 2 month ++ '-' :: (padded 2 day ++ 'T' ::
        (padded 2 hour ++ ':' :: (padded 2 minute ++ ':' :: (padded 2 second ++
          (printFraction nanosecond ++ ['Z'])))))) := by
    simp [print, Date.print, printYear, if_pos years]
  have monthRead := readNumber_two months (by decide)
  have dayRead := readNumber_two (show 1 ≤ day ∧ day ≤ 31 by omega) (by decide)
  have hourRead := readNumber_two ⟨Nat.zero_le _, hours⟩ (by decide)
  have minuteRead := readNumber_two ⟨Nat.zero_le _, minutes⟩ (by decide)
  have secondRead := readNumber_two ⟨Nat.zero_le _, seconds⟩ (by decide)
  have dash (cs : List Char) : readMark '-' ('-' :: cs) = .ok cs := rfl
  have colon (cs : List Char) : readMark ':' (':' :: cs) = .ok cs := rfl
  have separator (cs : List Char) : readSeparator ('T' :: cs) = .ok cs := rfl
  have zone : readOffset (Text.trimLeft ['Z']) = .ok (0, []) := rfl
  have possible : ¬ (Time.monthLength year month < day ∨ yearLimit < year.natAbs) := by
    unfold yearLimit
    omega
  rw [text, parse, readYear_padded four]
  simp only [bind, Except.bind, dash, colon, separator, zone, signless, monthRead, dayRead,
    hourRead, minuteRead, secondRead, readFraction_print fraction, if_neg possible]
  exact congrArg Except.ok unmoved

end Ensemble.Time
