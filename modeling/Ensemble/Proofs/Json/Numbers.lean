import Ensemble.Json.Decode
import Ensemble.Proofs.Text.Digits

/-!
# Numbers that read back

A numeral is a text that is one number token wherever it stands. What is written for a whole number
within 64 bits is a numeral of that number (`numeral_of_word`). Of floats only what is assumed of
one of them is used, `ReadsBack`: that its text, taken alone, reads as that float. Such a text is a
numeral too (`numeral_of_readsBack`), since with another token in it, it would not read as a single
value.

Which floats read back is not covered: the reader keeps 64 bits of digits and rounds while it
scales them, so not all do.
-/

namespace Ensemble

namespace Json

/-! ## Numerals -/

def NumberPhase.isFinal : NumberPhase → Bool
  | .zero | .whole | .fraction | .exponent => true
  | .sign | .point | .mark | .markSign => false

/-- Where a number stands behind characters that all belong to it. -/
def scan (phase : NumberPhase) (t : NumberText) : List Char → Option (NumberPhase × NumberText)
  | [] => some (phase, t)
  | c :: rest =>
    match stepNumber phase t c with
    | .more phase t => scan phase t rest
    | _ => none

/-- The text is one number token, wherever it stands. -/
structure Numeral (cs : List Char) (n : Number) : Prop where
  reads : ∃ first rest phase t phase' t', cs = first :: rest ∧
    (∀ place, beginToken first place = (.number phase t place, [])) ∧
    scan phase t rest = some (phase', t') ∧ phase'.isFinal = true ∧ t'.toNumber? = some n

/-- The text of this float, taken alone, reads as this float. -/
def ReadsBack (x : Float) : Prop := parse (render (.float x)) = .ok (.float x)

/-! ## Whole numbers -/

theorem stepNumber_whole {c : Char} (digit : c.isDigit = true) (t : NumberText) :
    stepNumber .whole t c = .more .whole (t.pushWhole (digitOf c)) := by
  simp [stepNumber, digit]

theorem scan_whole {cs : List Char} (digits : ∀ c ∈ cs, c.isDigit = true) (negative : Bool)
    (ds : List Nat) :
    scan .whole ⟨negative, ds, none, none⟩ cs =
      some (.whole, ⟨negative, ds ++ cs.map digitOf, none, none⟩) := by
  induction cs generalizing ds with
  | nil => simp [scan]
  | cons c cs ih =>
    rw [scan, stepNumber_whole (digits c (.head _))]
    have rest := ih (fun d among => digits d (.tail _ among)) (ds ++ [digitOf c])
    simpa [NumberText.pushWhole] using rest

theorem takeDigits_eq {cs : List Char} {n : Nat}
    (fits : Nat.ofDigitChars 10 cs n ≤ maxWord) :
    takeDigits n (cs.map digitOf) = (Nat.ofDigitChars 10 cs n, []) := by
  induction cs generalizing n with
  | nil => simp [takeDigits]
  | cons c cs ih =>
    rw [Nat.ofDigitChars_cons] at fits ⊢
    have step : n * 10 + digitOf c = 10 * n + (c.toNat - '0'.toNat) := by
      rw [Nat.mul_comm, digitOf]
      rfl
    have within : n * 10 + digitOf c ≤ maxWord := by
      rw [step]
      refine Nat.le_trans ?_ fits
      rw [Nat.ofDigitChars_eq_ofDigitChars_zero]
      exact Nat.le_trans (Nat.le_mul_of_pos_left _ (Nat.pow_pos (by decide))) (Nat.le_add_right _ _)
    rw [List.map_cons, takeDigits, if_pos within, step]
    exact ih fits

theorem toNumber?_word {cs : List Char} {n : Nat} (value : Nat.ofDigitChars 10 cs 0 = n)
    (fits : n ≤ maxWord) :
    (NumberText.mk false (cs.map digitOf) none none).toNumber? = some (.whole n) := by
  have kept := takeDigits_eq (n := 0) (by rw [value]; exact fits)
  rw [value] at kept
  simp [NumberText.toNumber?, kept]

/-- A digit is none of the characters that have a meaning of their own. -/
theorem ne_of_isDigit {c d : Char} (digit : c.isDigit = true) (other : d.isDigit = false) :
    c ≠ d := by
  rintro rfl
  rw [digit] at other
  cases other

theorem beginToken_digit {c : Char} (digit : c.isDigit = true) (nonzero : c ≠ '0')
    (place : Position) :
    beginToken c place = (.number .whole ⟨false, [digitOf c], none, none⟩ place, []) := by
  have other (d : Char) (h : d.isDigit = false) : c ≠ d := ne_of_isDigit digit h
  have blank : isJsonBlank c = false := by
    simp [isJsonBlank, other ' ' rfl, other '\n' rfl, other '\t' rfl, other '\r' rfl]
  simp only [beginToken, blank, Bool.false_eq_true, if_false, if_neg (other '[' rfl),
    if_neg (other ']' rfl), if_neg (other '\x7b' rfl), if_neg (other '\x7d' rfl),
    if_neg (other ':' rfl), if_neg (other ',' rfl), if_neg (other '"' rfl), if_neg (other 'n' rfl),
    if_neg (other 't' rfl), if_neg (other 'f' rfl), if_neg (other '-' rfl), if_neg nonzero, digit,
    if_true]

theorem numeral_of_word {n : Nat} (fits : n ≤ maxWord) :
    Numeral (printNumber (.whole n)) (.whole n) := by
  have printed : printNumber (.whole n) = Nat.toDigits 10 n := Nat.toList_repr
  rw [printed]
  rcases Nat.eq_zero_or_pos n with rfl | positive
  · exact ⟨'0', [], .zero, _, .zero, _, rfl, fun _ => rfl, rfl, rfl, rfl⟩
  · obtain ⟨first, rest, digits, nonzero⟩ := Text.toDigits_head positive
    have all : ∀ c ∈ first :: rest, c.isDigit = true := fun c among =>
      Text.isDigit_of_mem_toDigits (digits ▸ among)
    have begins := beginToken_digit (all first (.head _)) nonzero
    have goesOn : ∀ c ∈ rest, c.isDigit = true := fun c among => all c (.tail _ among)
    refine ⟨first, rest, .whole, _, .whole, _, digits, begins, scan_whole goesOn _ _, rfl, ?_⟩
    have value : Nat.ofDigitChars 10 (first :: rest) 0 = n := by
      rw [← digits, Nat.ofDigitChars_ten_toDigits]
    exact toNumber?_word value fits

/-! ## The text of a float -/

def isFloatChar (c : Char) : Bool := c.isDigit || c == '.' || c == 'e' || c == '+' || c == '-'

theorem isFloatChar_of_isDigit {c : Char} (h : c.isDigit = true) : isFloatChar c = true := by
  simp [isFloatChar, h]

/-- A digit, and then nothing but characters of a float. -/
def Written (cs : List Char) : Prop :=
  ∃ first rest, cs = first :: rest ∧ first.isDigit = true ∧ ∀ c ∈ rest, isFloatChar c = true

theorem Written.of_digits {ds more : List Char} (some : ds ≠ [])
    (digits : ∀ c ∈ ds, c.isDigit = true)
    (chars : ∀ c ∈ more, isFloatChar c = true) : Written (ds ++ more) := by
  cases ds with
  | nil => exact (some rfl).elim
  | cons first rest =>
    refine ⟨first, rest ++ more, rfl, digits first (.head _), ?_⟩
    intro c among
    rcases List.mem_append.mp among with among | among
    · exact isFloatChar_of_isDigit (digits c (.tail _ among))
    · exact chars c among

theorem Written.append {cs more : List Char} (h : Written cs)
    (chars : ∀ c ∈ more, isFloatChar c = true) : Written (cs ++ more) := by
  obtain ⟨first, rest, rfl, digit, all⟩ := h
  refine ⟨first, rest ++ more, rfl, digit, ?_⟩
  intro c among
  exact (List.mem_append.mp among).elim (all c) (chars c)

open Decimal

theorem digitChars_isDigit {n : Nat} {c : Char} (h : c ∈ digitChars n) : c.isDigit = true :=
  Text.isDigit_of_mem_toDigits h

theorem isDigit_of_mem_replicate {n : Nat} {c : Char} (h : c ∈ List.replicate n '0') :
    c.isDigit = true := by
  rw [List.eq_of_mem_replicate h]
  rfl

theorem inPlaces_written (d : Scaled) : Written (inPlaces d).toList := by
  have digits : ∀ c ∈ digitChars d.digits, c.isDigit = true := fun c => digitChars_isDigit
  unfold inPlaces
  dsimp only
  split
  · rw [String.toList_ofList, List.append_assoc]
    refine .of_digits Nat.toDigits_ne_nil digits ?_
    intro c among
    rcases List.mem_append.mp among with zero | ending
    · exact isFloatChar_of_isDigit (isDigit_of_mem_replicate zero)
    · have all : ['.', '0'].all isFloatChar = true := by decide
      exact List.all_eq_true.mp all c ending
  · rw [String.toList_ofList]
    generalize padding : List.replicate _ '0' ++ digitChars d.digits = padded
    have all : ∀ c ∈ padded, c.isDigit = true := by
      intro c among
      rw [← padding] at among
      exact (List.mem_append.mp among).elim isDigit_of_mem_replicate (digits c)
    have long : (-d.scale).toNat < padded.length := by
      rw [← padding, List.length_append, List.length_replicate]
      omega
    apply Written.of_digits
    · intro empty
      have := congrArg List.length empty
      rw [List.length_take, List.length_nil] at this
      omega
    · exact fun c among => all c (List.mem_of_mem_take among)
    · intro c among
      rcases List.mem_cons.mp among with rfl | among
      · rfl
      · exact isFloatChar_of_isDigit (all c (List.mem_of_mem_drop among))

theorem isFloatChar_of_mem_int {e : Int} {c : Char} (h : c ∈ (toString e).toList) :
    isFloatChar c = true := by
  cases e with
  | ofNat n => exact isFloatChar_of_isDigit (Text.isDigit_of_mem_toDigits (Nat.toList_repr ▸ h))
  | negSucc n =>
    have spelled : (toString (Int.negSucc n)).toList = '-' :: Nat.toDigits 10 (n + 1) := by
      simp [Int.repr_eq_if]
    rw [spelled] at h
    rcases List.mem_cons.mp h with rfl | h
    · rfl
    · exact isFloatChar_of_isDigit (Text.isDigit_of_mem_toDigits h)

theorem withExponent_written (d : Scaled) :
    Written (withExponent floatLayout.exponentMark d).toList := by
  have digits : ∀ c ∈ digitChars d.digits, c.isDigit = true := fun c => digitChars_isDigit
  have mark (e : Int) : ∀ c ∈ (floatLayout.exponentMark e).toList, isFloatChar c = true := by
    intro c among
    unfold floatLayout at among
    dsimp only at among
    split at among <;> rw [String.toList_append] at among
    · rcases List.mem_append.mp among with sign | among
      · have all : "e".toList.all isFloatChar = true := by decide
        exact List.all_eq_true.mp all c sign
      · exact isFloatChar_of_mem_int among
    · rcases List.mem_append.mp among with sign | among
      · have all : "e+".toList.all isFloatChar = true := by decide
        exact List.all_eq_true.mp all c sign
      · exact isFloatChar_of_mem_int among
  unfold withExponent
  dsimp only
  rw [String.toList_append, String.toList_ofList]
  refine Written.append ?_ (mark _)
  cases spelled : digitChars d.digits with
  | nil => exact (Nat.toDigits_ne_nil spelled).elim
  | cons first rest =>
    rw [spelled] at digits
    cases rest with
    | nil => exact ⟨first, [], rfl, digits first (.head _), by simp⟩
    | cons second rest =>
      refine ⟨first, '.' :: second :: rest, rfl, digits first (.head _), ?_⟩
      intro c among
      rcases List.mem_cons.mp among with rfl | among
      · rfl
      · exact isFloatChar_of_isDigit (digits c (.tail _ among))

/-- A finite float is written as a number, perhaps with its sign. -/
theorem floatLayout_written (negative : Bool) (mantissa : Nat) (exponent : Int) (narrow : Bool) :
    ∃ sign digits, (floatLayout.parts (.finite negative mantissa exponent narrow)).toList =
      sign ++ digits ∧ (sign = [] ∨ sign = ['-']) ∧ Written digits := by
  refine ⟨_, _, String.toList_append, ?_, ?_⟩
  · cases negative
    · exact .inl rfl
    · exact .inr rfl
  · unfold Layout.decimal
    split
    · exact inPlaces_written _
    · exact withExponent_written _

/-! ## Tokens of a number -/

def Lexeme.isEnd : Lexeme → Bool
  | .endOfText => true
  | _ => false

theorem endNumber_final {phase : NumberPhase} (final : phase.isFinal = true) (t : NumberText)
    (start fault : Position) (atEnd : Bool) :
    endNumber phase t start fault atEnd = ⟨.number t.toNumber?, start⟩ := by
  cases phase with
  | zero | whole | fraction | exponent => rfl
  | sign | point | mark | markSign => cases final

theorem endNumber_open {phase : NumberPhase} (unfinished : phase.isFinal = false) (t : NumberText)
    (start fault : Position) (atEnd : Bool) :
    ∃ e, endNumber phase t start fault atEnd = ⟨.malformed e, start⟩ := by
  cases phase with
  | sign | point | mark | markSign => exact ⟨_, rfl⟩
  | zero | whole | fraction | exponent => cases unfinished

theorem endNumber_isEnd (phase : NumberPhase) (t : NumberText) (start fault : Position)
    (atEnd : Bool) : (endNumber phase t start fault atEnd).lexeme.isEnd = false := by
  cases phase <;> rfl

theorem step_number_more {phase phase' : NumberPhase} {t t' : NumberText} {c : Char}
    (step : stepNumber phase t c = .more phase' t') (start place : Position) (read : List Token) :
    Lexer.step ⟨.number phase t start, place, read⟩ c =
      ⟨.number phase' t' start, place.past c, read⟩ := by
  simp [Lexer.step, stepMode, step]

theorem step_number_malformed {phase : NumberPhase} {t : NumberText} {c : Char}
    (step : stepNumber phase t c = .malformed) (start place : Position) (read : List Token) :
    Lexer.step ⟨.number phase t start, place, read⟩ c =
      ⟨.between, place.past c, ⟨.malformed ⟨.invalidNumber, place.of c⟩, start⟩ :: read⟩ := by
  simp [Lexer.step, stepMode, step]

theorem step_number_ends {phase : NumberPhase} {t : NumberText} {c : Char}
    (step : stepNumber phase t c = .ends) (start place : Position) (read : List Token) :
    Lexer.step ⟨.number phase t start, place, read⟩ c =
      ⟨(beginToken c (place.of c)).1, place.past c, (beginToken c (place.of c)).2.reverse ++
        endNumber phase t start (place.of c) false :: read⟩ := by
  simp [Lexer.step, stepMode, step]

theorem finish_more (cs : List Char) (l : Lexer) :
    ∃ token more, (cs.foldl Lexer.step l).finish = l.read.reverse ++ token :: more := by
  induction cs generalizing l with
  | nil =>
    obtain ⟨mode, place, read⟩ := l
    unfold Lexer.finish finishMode
    dsimp only
    split <;> exact ⟨_, _, rfl⟩
  | cons c cs ih =>
    obtain ⟨token, more, finish⟩ := ih (l.step c)
    have kept : (l.step c).read.reverse =
        l.read.reverse ++ (stepMode l.mode c (l.place.of c)).2 := by
      simp [Lexer.step]
    rw [List.foldl_cons, finish, kept, List.append_assoc]
    cases (stepMode l.mode c (l.place.of c)).2 with
    | nil => exact ⟨_, _, rfl⟩
    | cons other tokens => exact ⟨_, _, rfl⟩

theorem finish_number (cs : List Char) (phase : NumberPhase) (t : NumberText)
    (start place : Position) (read : List Token) :
    ∃ token more, (cs.foldl Lexer.step ⟨.number phase t start, place, read⟩).finish =
      read.reverse ++ token :: more ∧ token.lexeme.isEnd = false := by
  induction cs generalizing phase t place with
  | nil => exact ⟨_, _, rfl, endNumber_isEnd _ _ _ _ _⟩
  | cons c cs ih =>
    rw [List.foldl_cons]
    cases step : stepNumber phase t c with
    | more phase' t' =>
      rw [step_number_more step]
      exact ih phase' t' _
    | malformed =>
      obtain ⟨token, more, finish⟩ :=
        finish_more cs (Lexer.step ⟨.number phase t start, place, read⟩ c)
      rw [finish, step_number_malformed step, List.reverse_cons, List.append_assoc]
      exact ⟨_, _, rfl, rfl⟩
    | ends =>
      obtain ⟨token, more, finish⟩ :=
        finish_more cs (Lexer.step ⟨.number phase t start, place, read⟩ c)
      rw [finish, step_number_ends step, List.reverse_append, List.reverse_reverse,
        List.reverse_cons, List.append_assoc, List.append_assoc]
      exact ⟨_, _, rfl, endNumber_isEnd _ _ _ _ _⟩

/-- A character of a float starts no token, or is itself no part of a value. -/
theorem beginToken_floatChar {c : Char} (float : isFloatChar c = true) (other : c.isDigit = false)
    (place : Position) :
    beginToken c place = (.between, [⟨.stray, place⟩]) ∨
      ∃ t, beginToken c place = (.number .sign t place, []) := by
  simp only [isFloatChar, other, Bool.false_or, Bool.or_eq_true, beq_iff_eq] at float
  rcases float with ((rfl | rfl) | rfl) | rfl
  · exact .inl rfl
  · exact .inl rfl
  · exact .inl rfl
  · exact .inr ⟨_, rfl⟩

theorem final_of_ends {phase : NumberPhase} {t : NumberText} {c : Char}
    (ends : stepNumber phase t c = .ends) : phase.isFinal = true ∧ c.isDigit = false := by
  cases digit : c.isDigit with
  | true =>
    cases phase <;> simp [stepNumber, digit] at ends
    split at ends <;> cases ends
  | false =>
    refine ⟨?_, rfl⟩
    cases phase with
    | zero | whole | fraction | exponent => rfl
    | sign =>
      simp only [stepNumber, digit] at ends
      split at ends <;> cases ends
    | point | markSign => simp [stepNumber, digit] at ends
    | mark =>
      simp only [stepNumber, digit, Bool.false_eq_true, if_false] at ends
      split at ends
      · cases ends
      · split at ends <;> cases ends

/-- More than one token, of which the first is no whole value or the second is not the end. -/
def Spoilt (ts : List Token) : Prop :=
  ∃ token next more, ts = token :: next :: more ∧
    ((∃ e, token.lexeme = .malformed e) ∨
      (∃ n, token.lexeme = .number n) ∧ next.lexeme.isEnd = false)

/-- Characters of a float behind part of a number belong to it, or there is more than a number. -/
theorem scan_or_spoilt {cs : List Char} (chars : ∀ c ∈ cs, isFloatChar c = true)
    (phase : NumberPhase) (t : NumberText) (start place : Position) :
    (∃ phase' t' place', scan phase t cs = some (phase', t') ∧
        cs.foldl Lexer.step ⟨.number phase t start, place, []⟩ =
          ⟨.number phase' t' start, place', []⟩) ∨
      Spoilt (cs.foldl Lexer.step ⟨.number phase t start, place, []⟩).finish := by
  induction cs generalizing phase t place with
  | nil => exact .inl ⟨phase, t, place, rfl, rfl⟩
  | cons c cs ih =>
    rw [List.foldl_cons, scan]
    cases step : stepNumber phase t c with
    | more phase' t' =>
      rw [step_number_more step]
      exact ih (fun d among => chars d (.tail _ among)) phase' t' _
    | malformed =>
      obtain ⟨token, more, finish⟩ :=
        finish_more cs (Lexer.step ⟨.number phase t start, place, []⟩ c)
      rw [finish, step_number_malformed step]
      exact .inr ⟨_, _, _, rfl, .inl ⟨_, rfl⟩⟩
    | ends =>
      right
      obtain ⟨final, noDigit⟩ := final_of_ends step
      rw [step_number_ends step, endNumber_final final]
      rcases beginToken_floatChar (chars c (.head _)) noDigit (place.of c) with stray | ⟨t', sign⟩
      · rw [stray]
        obtain ⟨token, more, finish⟩ := finish_more cs
          ⟨.between, place.past c, [⟨.stray, place.of c⟩, ⟨.number t.toNumber?, start⟩]⟩
        exact ⟨_, _, _, finish, .inr ⟨⟨_, rfl⟩, rfl⟩⟩
      · rw [sign]
        obtain ⟨token, more, finish, other⟩ := finish_number cs .sign t' (place.of c) (place.past c)
          [⟨.number t.toNumber?, start⟩]
        exact ⟨_, _, _, finish, .inr ⟨⟨_, rfl⟩, other⟩⟩

/-! ## Floats -/

theorem read_of_parse {s : String} {v : Json} (h : parse s = .ok v) :
    (Document.read s).root.toJson = .ok v ∧ (Document.read s).trailing = none := by
  unfold parse Decode.ofText Decode.any at h
  generalize Document.read s = document at h ⊢
  obtain ⟨root, trailing⟩ := document
  cases value : root.toJson with
  | error e =>
    simp only [value] at h
    cases h
  | ok w =>
    simp only [value] at h
    cases trailing with
    | none =>
      cases h
      exact ⟨rfl, rfl⟩
    | some e => cases h

theorem trailing?_of_isEnd {token : Token} (other : token.lexeme.isEnd = false)
    (more : List Token) :
    Doc.trailing? (token :: more) = some ⟨.trailingCharacters, token.place⟩ := by
  obtain ⟨lexeme, place⟩ := token
  cases lexeme with
  | endOfText => cases other
  | _ => rfl

theorem not_spoilt {s : String} {v : Json} (h : parse s = .ok v) : ¬ Spoilt (tokens s.toList) := by
  rintro ⟨⟨lexeme, place⟩, next, more, spelled, spoilt⟩
  obtain ⟨value, trailing⟩ := read_of_parse h
  rw [Document.read, spelled] at value trailing
  rcases spoilt with ⟨e, rfl⟩ | ⟨⟨n, rfl⟩, other⟩
  · cases value
  · cases n with
    | none => cases value
    | some n =>
      rw [show Doc.ofTokens [] .value (⟨.number (some n), place⟩ :: next :: more) =
        ⟨.number n, Doc.trailing? (next :: more)⟩ from rfl, trailing?_of_isEnd other] at trailing
      cases trailing

theorem toNumber?_of_parse {cs : List Char} {phase : NumberPhase} {t : NumberText}
    {start place : Position} {v : Json} (h : parse (String.ofList cs) = .ok v)
    (lexed : cs.foldl Lexer.step Lexer.start = ⟨.number phase t start, place, []⟩) :
    phase.isFinal = true ∧ t.toNumber?.map Json.number = some v := by
  obtain ⟨value, -⟩ := read_of_parse h
  rw [Document.read, String.toList_ofList, tokens, lexed, Lexer.finish, finishMode] at value
  cases final : phase.isFinal with
  | false =>
    obtain ⟨e, broken⟩ := endNumber_open final t start place true
    rw [broken] at value
    cases value
  | true =>
    rw [endNumber_final final] at value
    cases number : t.toNumber? with
    | none =>
      rw [number] at value
      cases value
    | some n =>
      rw [number] at value
      cases value
      exact ⟨rfl, rfl⟩

/-- A text that begins like a number and reads as a value is a numeral. -/
theorem numeral_of_parse {first : Char} {rest : List Char} {phase : NumberPhase} {t : NumberText}
    {n : Number} (begins : ∀ place, beginToken first place = (.number phase t place, []))
    (chars : ∀ c ∈ rest, isFloatChar c = true)
    (h : parse (String.ofList (first :: rest)) = .ok (.number n)) : Numeral (first :: rest) n := by
  have start : Lexer.start.step first =
      ⟨.number phase t (Position.of ⟨1, 0⟩ first), Position.past ⟨1, 0⟩ first, []⟩ := by
    simp [Lexer.start, Lexer.step, stepMode, begins]
  have lexed : (first :: rest).foldl Lexer.step Lexer.start =
      rest.foldl Lexer.step
        ⟨.number phase t (Position.of ⟨1, 0⟩ first), Position.past ⟨1, 0⟩ first, []⟩ := by
    rw [List.foldl_cons, start]
  rcases scan_or_spoilt chars phase t (Position.of ⟨1, 0⟩ first) (Position.past ⟨1, 0⟩ first) with
    ⟨phase', t', place', scanned, folded⟩ | spoilt
  · obtain ⟨final, number⟩ := toNumber?_of_parse h (lexed.trans folded)
    refine ⟨first, rest, phase, t, phase', t', rfl, begins, scanned, final, ?_⟩
    cases value : t'.toNumber? with
    | none =>
      rw [value] at number
      cases number
    | some m =>
      rw [value] at number
      cases number
      rfl
  · rw [← lexed] at spoilt
    refine (not_spoilt h ?_).elim
    rwa [tokens, String.toList_ofList]

theorem beginToken_of_isDigit {c : Char} (digit : c.isDigit = true) :
    ∃ phase t, ∀ place, beginToken c place = (.number phase t place, []) := by
  by_cases zero : c = '0'
  · subst zero
    exact ⟨_, _, fun _ => rfl⟩
  · exact ⟨_, _, beginToken_digit digit zero⟩

theorem parse_null : parse "null" = .ok .null := by rfl

theorem numeral_of_readsBack {x : Float} (h : ReadsBack x) :
    Numeral (printNumber (.float x)) (.float x) := by
  have reads : parse (String.ofList (printNumber (.float x))) = .ok (.number (.float x)) := h
  have text : printNumber (.float x) = (floatLayout.parts (.ofFloat x)).toList := rfl
  rw [text] at reads ⊢
  cases parts : Parts.ofFloat x with
  | nan negative =>
    rw [parts, String.ofList_toList] at reads
    cases parse_null.symm.trans reads
  | infinity negative =>
    rw [parts, String.ofList_toList] at reads
    cases parse_null.symm.trans reads
  | finite negative mantissa exponent narrow =>
    rw [parts] at reads
    obtain ⟨sign, digits, spelled, signs, first, rest, rfl, digit, chars⟩ :=
      floatLayout_written negative mantissa exponent narrow
    rw [spelled] at reads ⊢
    rcases signs with rfl | rfl
    · obtain ⟨phase, t, begins⟩ := beginToken_of_isDigit digit
      exact numeral_of_parse begins chars reads
    · apply numeral_of_parse (fun _ => rfl) ?_ reads
      intro c among
      rcases List.mem_cons.mp among with rfl | among
      · exact isFloatChar_of_isDigit digit
      · exact chars c among

end Json

end Ensemble
