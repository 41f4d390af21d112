import Ensemble.Proofs.Text.Digits
import Ensemble.Proofs.Toml.Text
import Ensemble.Toml.Document
import Ensemble.Toml.Printer

/-!
# Statements of settings files that read back

The text written for a list of sections is read as their statements: a header for each section and
a pair for each of its entries (`Parses.sections`), so the file is what these build (`read_render`).
Whole numbers must be within what the reader takes, and floats are only assumed to be read as
floats.

Dotted keys, tables in braces, dates and comments are never written and not covered.
-/

namespace Ensemble.Toml

/-! ## Words -/

/-- What follows a word is no part of it, and no blank that might join it with another. -/
def EndsWord (rest : List Char) : Prop := ∀ c ∈ rest.head?, isWordChar c = false ∧ c ≠ ' '

theorem isWordChar_of_isDigit {c : Char} (digit : c.isDigit = true) : isWordChar c = true := by
  simp [isWordChar, Char.isAlphanum, digit]

theorem takeWhile_word {cs rest : List Char} (word : ∀ c ∈ cs, isWordChar c = true)
    (ends : EndsWord rest) : (cs ++ rest).takeWhile isWordChar = cs := by
  rw [List.takeWhile_append_of_pos word]
  cases rest with
  | nil => rw [List.takeWhile_nil, List.append_nil]
  | cons c rest => rw [List.takeWhile_cons_of_neg (by simp [(ends c rfl).1]), List.append_nil]

theorem readWord_append {cs rest : List Char} (word : ∀ c ∈ cs, isWordChar c = true)
    (ends : EndsWord rest) : readWord (cs ++ rest) = (word? cs).map fun v => (v, rest) := by
  have first := takeWhile_word word ends
  have left : (cs ++ rest).drop cs.length = rest := by simp
  simp only [readWord, first, left]
  split
  · rename_i pair
    split at pair
    · exact absurd rfl (ends ' ' rfl).2
    · cases pair
  · rfl

theorem word_of_readWord {cs : List Char} {x : Float} (h : readWord cs = some (.float x, [])) :
    (∀ c ∈ cs, isWordChar c = true) ∧ word? cs = some (.float x) := by
  simp only [readWord] at h
  split at h
  · cases h
  · obtain ⟨v, value, same⟩ := Option.map_eq_some_iff.mp h
    obtain ⟨rfl, left⟩ := Prod.mk.inj same
    have long : cs.length ≤ (cs.takeWhile isWordChar).length := List.drop_eq_nil_iff.mp left
    have all : cs.takeWhile isWordChar = cs :=
      (List.takeWhile_prefix isWordChar).eq_of_length_le long
    rw [all] at value
    refine ⟨fun c among => ?_, value⟩
    rw [← all] at among
    exact List.all_eq_true.mp List.all_takeWhile c among

theorem readValue_word {c : Char} (word : isWordChar c = true) (depth : Nat) (cs : List Char) :
    readValue depth (c :: cs) = readWord (c :: cs) := by
  have other (d : Char) (h : isWordChar d = false) (r : List Char) : c :: cs = d :: r → False := by
    intro same
    rw [← (List.cons.inj same).1, word] at h
    cases h
  rw [readValue]
  · exact other '[' rfl
  · exact other '\x7b' rfl
  · exact other '"' rfl
  · exact other '\'' rfl

/-! ## Whole numbers -/

section Digits

variable {cs : List Char}

theorem mark?_digits (digits : ∀ c ∈ cs, c.isDigit = true) {c : Char} (mark : c.isDigit = false) :
    mark? c cs = none := by
  cases cs with
  | nil => rfl
  | cons d cs =>
    have digit := digits d (.head _)
    rw [mark?, if_neg]
    rintro rfl
    rw [mark] at digit
    cases digit

theorem date?_digits (digits : ∀ c ∈ cs, c.isDigit = true) : date? cs = none := by
  have dash : mark? '-' (cs.drop 4) = none :=
    mark?_digits (fun c among => digits c (List.mem_of_mem_drop among)) rfl
  unfold date?
  simp [dash]

theorem within?_rest {low high : Nat} {shown r : List Char}
    (h : within? low high cs = some (shown, r)) : r = cs.drop 2 := by
  unfold within? twoDigits? at h
  rcases cs with _ | ⟨a, _ | ⟨b, cs⟩⟩
  · cases h
  · cases h
  · dsimp only at h
    split at h
    · simp only [Option.bind_eq_bind, Option.bind_some] at h
      split at h
      · cases h
        rfl
      · cases h
    · cases h

theorem time?_digits (digits : ∀ c ∈ cs, c.isDigit = true) : time? cs = none := by
  have colon : mark? ':' (cs.drop 2) = none :=
    mark?_digits (fun c among => digits c (List.mem_of_mem_drop among)) rfl
  cases hour : within? 0 23 cs with
  | none => simp [time?, hour]
  | some p =>
    obtain ⟨shown, r⟩ := p
    obtain rfl := within?_rest hour
    simp [time?, hour, colon]

theorem moment?_digits (digits : ∀ c ∈ cs, c.isDigit = true) : moment? cs = none := by
  simp [moment?, date?_digits digits, time?_digits digits]

theorem ungrouped?_digits (digits : ∀ c ∈ cs, c.isDigit = true) (some : cs ≠ []) :
    ungrouped? Char.isDigit cs = .some cs := by
  induction cs with
  | nil => exact absurd rfl some
  | cons c cs ih =>
    have digit := digits c (.head _)
    have later := fun d among => digits d (.tail _ among)
    cases cs with
    | nil => rw [ungrouped?, if_pos digit]
    | cons d cs =>
      have next := later d (.head _)
      rw [ungrouped?, if_pos digit, ih later (List.cons_ne_nil _ _)]
      · rfl
      · exact (List.cons_ne_nil _ _)
      · rintro r same
        rw [(List.cons.inj same).1] at next
        cases next

end Digits

theorem splitSign_digit {c : Char} (digit : c.isDigit = true) (cs : List Char) :
    splitSign (c :: cs) = (false, c :: cs) := by
  rw [splitSign]
  · rintro r same
    cases same
    cases digit
  · rintro r same
    cases same
    cases digit

theorem whole?_toDigits {n : Nat} (fits : n ≤ maxWhole) :
    whole? (Nat.toDigits 10 n) = some (n : Int) := by
  rcases Nat.eq_zero_or_pos n with rfl | positive
  · rfl
  · obtain ⟨c, cs, shape, nonzero⟩ := Text.toDigits_head positive
    have digits : ∀ d ∈ c :: cs, d.isDigit = true :=
      fun d among => Text.isDigit_of_mem_toDigits (shape ▸ among)
    have value : Text.digitsValue (c :: cs) = n := by rw [← shape, Text.digitsValue_toDigits]
    have decimal : wholeDigits? (c :: cs) = some (c :: cs) := by
      rw [wholeDigits?, ungrouped?_digits digits (List.cons_ne_nil _ _)]
      rintro d r same
      exact nonzero (List.cons.inj same).1
    have other (r : List Char) (x : Char) : c :: cs = '0' :: x :: r → False :=
      fun same => nonzero (List.cons.inj same).1
    rw [shape, whole?, splitSign_digit (digits c (.head _))]
    · simp only [decimal, Option.bind_some, value, signedWhole?]
      have bound : n < 0x8000000000000000 := Nat.lt_succ_of_le fits
      rw [if_neg Bool.false_ne_true, if_pos bound]
    · exact fun r => other r 'x'
    · exact fun r => other r 'o'
    · exact fun r => other r 'b'

theorem word?_toDigits {n : Nat} (fits : n ≤ maxWhole) :
    word? (Nat.toDigits 10 n) = some (.whole n) := by
  have digits : ∀ d ∈ Nat.toDigits 10 n, d.isDigit = true :=
    fun d among => Text.isDigit_of_mem_toDigits among
  have other {c : Char} (cs : List Char) (letter : c.isDigit = false) :
      Nat.toDigits 10 n ≠ c :: cs := by
    intro same
    have digit := digits c (same ▸ .head _)
    rw [letter] at digit
    cases digit
  rw [word?, if_neg (other _ rfl), if_neg (other _ rfl), moment?_digits digits,
    whole?_toDigits fits]

/-! ## Values -/

def readFloat? (x : Float) : Option Float :=
  match readWord (floatLayout.float x).toList with
  | some (.float y, []) => some y
  | _ => none

def Entry.node : Entry → Node
  | .text s => .text s
  | .nat n => .whole n
  | .float x => .float ((readFloat? x).getD x)
  | .bool b => .bool b
  | .texts items => .array (items.map .text)

def Entry.Legible : Entry → Prop
  | .nat n => n ≤ maxWhole
  | .float x => ∃ y, readFloat? x = some y
  | .text _ | .bool _ | .texts _ => True

theorem printText_head (cs : List Char) : ∃ q r, printText cs = q :: r ∧ (q = '"' ∨ q = '\'') := by
  unfold printText
  cases Style.of cs with
  | basic => exact ⟨_, _, rfl, .inl rfl⟩
  | literal => exact ⟨_, _, rfl, .inr rfl⟩
  | multiBasic => exact ⟨_, _, rfl, .inl rfl⟩
  | multiLiteral => exact ⟨_, _, rfl, .inr rfl⟩

theorem readValue_text (depth : Nat) (s : String) {rest : List Char} (stops : NoQuote rest) :
    readValue depth (printText s.toList ++ rest) = some (.text s, rest) := by
  have read := readText_print s.toList stops
  obtain ⟨q, r, shape, quote⟩ := printText_head s.toList
  rw [shape, List.cons_append] at read ⊢
  rcases quote with rfl | rfl
  · rw [readValue, read]
    simp
  · rw [readValue, read]
    simp

theorem noQuote_of_head {c : Char} (rest : List Char) (h : c ≠ '"' ∧ c ≠ '\'') :
    NoQuote (c :: rest) := by
  rintro d same
  cases same
  exact h

theorem skipSpace_text (cs rest : List Char) :
    skipSpace false (printText cs ++ rest) = printText cs ++ rest := by
  obtain ⟨q, r, shape, quote⟩ := printText_head cs
  rw [shape, List.cons_append]
  rcases quote with rfl | rfl
  · rfl
  · rfl

/-- A text is taken as an item, and what follows it decides about the rest. -/
theorem readItems_next (depth fuel : Nat) (s : String) {cs rest : List Char} (stops : NoQuote rest)
    (starts : skipSpace false cs = printText s.toList ++ rest) :
    readItems (readValue depth) (fuel + 1) cs =
      match skipSpace false rest with
      | ',' :: r => do
        let (vs, r) ← readItems (readValue depth) fuel r
        return (.text s :: vs, r)
      | ']' :: r => return ([.text s], r)
      | _ => none := by
  have read := readValue_text depth s stops
  obtain ⟨q, r, shape, quote⟩ := printText_head s.toList
  rw [shape, List.cons_append] at read starts
  rw [readItems, starts]
  split
  · rename_i same
    rcases quote with rfl | rfl
    · cases same
    · cases same
  · rw [read]
    rfl

theorem readItems_text (depth fuel : Nat) (s : String) {cs rest : List Char}
    (starts : skipSpace false cs = printText s.toList ++ ',' :: rest) :
    readItems (readValue depth) (fuel + 1) cs =
      (readItems (readValue depth) fuel rest).map fun (vs, r) => (.text s :: vs, r) := by
  refine (readItems_next depth fuel s (noQuote_of_head rest (by decide)) starts).trans ?_
  show (readItems (readValue depth) fuel rest).bind _ = _
  cases readItems (readValue depth) fuel rest <;> rfl

theorem readItems_lines (depth : Nat) (items : List String) (rest : List Char) {fuel : Nat}
    (room : items.length < fuel) :
    readItems (readValue depth) fuel ('\n' :: (items.flatMap printTextLine ++ ']' :: rest)) =
      some (items.map .text, rest) := by
  induction items generalizing fuel with
  | nil =>
    cases fuel with
    | zero => cases room
    | succ fuel => rfl
  | cons s items ih =>
    cases fuel with
    | zero => cases room
    | succ fuel =>
      have later := ih (Nat.lt_of_succ_lt_succ room)
      have starts : skipSpace false
          ('\n' :: ((s :: items).flatMap printTextLine ++ ']' :: rest)) =
          printText s.toList ++ ',' :: '\n' :: (items.flatMap printTextLine ++ ']' :: rest) := by
        rw [List.flatMap_cons, printTextLine]
        simp only [List.append_assoc, List.cons_append, List.nil_append]
        exact skipSpace_text s.toList _
      rw [readItems_text depth fuel s starts, later]
      rfl

theorem readItems_single (depth fuel : Nat) (s : String) (rest : List Char) :
    readItems (readValue depth) (fuel + 1) (printText s.toList ++ ']' :: rest) =
      some ([.text s], rest) :=
  readItems_next depth fuel s (noQuote_of_head rest (by decide)) (skipSpace_text s.toList _)

theorem readValue_texts (depth : Nat) (items : List String) (rest : List Char) :
    readValue (depth + 1) (printTexts items ++ rest) = some (.array (items.map .text), rest) := by
  match items with
  | [] => rfl
  | [s] =>
    have read := readItems_single depth (printText s.toList ++ ']' :: rest).length s rest
    have shape : printTexts [s] ++ rest = '[' :: (printText s.toList ++ ']' :: rest) := by
      simp [printTexts]
    rw [shape, readValue, read]
    rfl
  | s :: t :: items =>
    have shape : printTexts (s :: t :: items) ++ rest =
        '[' :: '\n' :: ((s :: t :: items).flatMap printTextLine ++ ']' :: rest) := by
      simp [printTexts]
    have each (items : List String) : items.length ≤ (items.flatMap printTextLine).length := by
      induction items with
      | nil => exact Nat.le_refl _
      | cons u items ih =>
        rw [List.flatMap_cons, List.length_append, printTextLine, List.length_append,
          List.length_append, List.length_cons]
        simp only [List.length_cons]
        omega
    have room : (s :: t :: items).length <
        ('\n' :: ((s :: t :: items).flatMap printTextLine ++ ']' :: rest)).length + 1 := by
      have lines := each (s :: t :: items)
      simp only [List.length_append, List.length_cons] at lines ⊢
      omega
    rw [shape, readValue, readItems_lines depth _ rest room]
    rfl

theorem readWord_of_readFloat? {x y : Float} (h : readFloat? x = some y) :
    readWord (floatLayout.float x).toList = some (.float y, []) := by
  unfold readFloat? at h
  split at h
  · rename_i read
    rw [read, Option.some.inj h]
  · cases h

theorem ne_nil_of_word? {cs : List Char} {v : Node} (h : word? cs = some v) : cs ≠ [] := by
  rintro rfl
  cases h

theorem readValue_print {cs rest : List Char} {v : Node} (word : ∀ c ∈ cs, isWordChar c = true)
    (some : cs ≠ []) (depth : Nat) (read : readWord (cs ++ rest) = .some (v, rest)) :
    readValue depth (cs ++ rest) = .some (v, rest) := by
  cases cs with
  | nil => exact absurd rfl some
  | cons c cs => exact (readValue_word (word c (.head _)) depth (cs ++ rest)).trans read

theorem readValue_entry (depth : Nat) {e : Entry} (legible : e.Legible) {rest : List Char} :
    readValue (depth + 1) (e.print ++ '\n' :: rest) = some (e.node, '\n' :: rest) := by
  have ends : EndsWord ('\n' :: rest) := by
    rintro c same
    cases same
    exact ⟨by decide, by decide⟩
  cases e with
  | text s => exact readValue_text _ s (noQuote_of_head rest (by decide))
  | nat n =>
    have digits : ∀ c ∈ Nat.toDigits 10 n, isWordChar c = true :=
      fun c among => isWordChar_of_isDigit (Text.isDigit_of_mem_toDigits among)
    have read := readWord_append digits ends
    rw [word?_toDigits legible] at read
    exact readValue_print digits Nat.toDigits_ne_nil _ read
  | float x =>
    obtain ⟨y, legible⟩ := legible
    obtain ⟨word, value⟩ := word_of_readWord (readWord_of_readFloat? legible)
    have read := readWord_append word ends
    rw [value] at read
    rw [Entry.node, legible]
    exact readValue_print word (ne_nil_of_word? value) _ read
  | bool b => cases b <;> rfl
  | texts items => exact readValue_texts depth items _

/-! ## Lines -/

theorem skipBlanks_of_head {c : Char} (shown : isBlankChar c = false) (cs : List Char) :
    skipBlanks (c :: cs) = c :: cs := by
  rw [skipBlanks, List.dropWhile_cons_of_neg (by simp [shown])]

theorem isBare_not {c : Char} (h : isBare c = true) {d : Char} (other : isBare d = false) :
    c ≠ d := by
  rintro rfl
  rw [h] at other
  cases other

theorem printKey_head (cs : List Char) :
    ∃ c r, printKey cs = c :: r ∧ (isBare c = true ∨ c = '"' ∨ c = '\'') := by
  unfold printKey
  dsimp only
  split
  · rename_i h
    simp only [Bool.and_eq_true, Bool.not_eq_true', List.isEmpty_eq_false_iff,
      List.all_eq_true] at h
    cases cs with
    | nil => exact absurd rfl h.1
    | cons c cs => exact ⟨c, cs, rfl, .inl (h.2 c (.head _))⟩
  split
  · exact ⟨_, _, rfl, .inr (.inl rfl)⟩
  split
  · exact ⟨_, _, rfl, .inr (.inr rfl)⟩
  · exact ⟨_, _, rfl, .inr (.inl rfl)⟩

/-- What a key starts with has no other meaning at the start of a line. -/
theorem keyStart_ne {c d : Char} (h : isBare c = true ∨ c = '"' ∨ c = '\'')
    (other : isBare d = false ∧ d ≠ '"' ∧ d ≠ '\'') : c ≠ d := by
  rcases h with bare | rfl | rfl
  · exact isBare_not bare other.1
  · exact other.2.1.symm
  · exact other.2.2.symm

theorem skipBlanks_key (cs rest : List Char) :
    skipBlanks (printKey cs ++ rest) = printKey cs ++ rest := by
  obtain ⟨c, r, shape, starts⟩ := printKey_head cs
  have blank : isBlankChar c = false := by
    simp [isBlankChar, keyStart_ne (d := ' ') starts (by decide),
      keyStart_ne (d := '\t') starts (by decide)]
  rw [shape]
  exact skipBlanks_of_head blank _

theorem endsKey {c : Char} (stops : isBare c = false) (rest : List Char) :
    ∀ d ∈ (c :: rest).head?, isBare d = false := by
  rintro d same
  cases same
  exact stops

theorem readPathFrom_last (left : Nat) (k : String) {c : Char} (rest : List Char)
    (stops : isBare c = false ∧ isBlankChar c = false ∧ c ≠ '.') :
    readPathFrom (left + 1) (printKey k.toList ++ c :: rest) = some ([k], c :: rest) := by
  rw [readPathFrom, skipBlanks_key, readKey_print _ (endsKey stops.1 rest)]
  simp only [Option.bind_eq_bind, Option.bind_some, skipBlanks_of_head stops.2.1,
    String.ofList_toList]
  split
  · rename_i same
    exact absurd (List.cons.inj same).1 stops.2.2
  · rfl

theorem readPathFrom_print {path : List String} (some : path ≠ []) {left : Nat}
    (room : path.length ≤ left) {c : Char} (rest : List Char)
    (stops : isBare c = false ∧ isBlankChar c = false ∧ c ≠ '.') :
    readPathFrom left (printPath path ++ c :: rest) = .some (path, c :: rest) := by
  induction path generalizing left with
  | nil => exact absurd rfl some
  | cons k path ih =>
    cases left with
    | zero => cases room
    | succ left =>
      have within : path.length ≤ left := Nat.le_of_succ_le_succ room
      cases path with
      | nil =>
        have shape : printPath [k] = printKey k.toList := by simp [printPath]
        rw [shape, readPathFrom_last left k rest stops]
      | cons k' path =>
        have later := ih (List.cons_ne_nil _ _) within
        have shape : printPath (k :: k' :: path) ++ c :: rest =
            printKey k.toList ++ '.' :: (printPath (k' :: path) ++ c :: rest) := by
          simp [printPath, List.intercalate_cons_cons]
        have dot (cs : List Char) : skipBlanks ('.' :: cs) = '.' :: cs := rfl
        rw [shape, readPathFrom, skipBlanks_key, readKey_print _ (endsKey rfl _)]
        simp only [Option.bind_eq_bind, Option.bind_some, dot, later, String.ofList_toList]
        rfl

theorem isBlankChar_of_word {c : Char} (word : isWordChar c = true) : isBlankChar c = false := by
  rw [isBlankChar, Bool.or_eq_false_iff, beq_eq_false_iff_ne, beq_eq_false_iff_ne]
  constructor
  · rintro rfl
    cases word
  · rintro rfl
    cases word

theorem print_head {e : Entry} (legible : e.Legible) :
    ∃ c r, e.print = c :: r ∧ isBlankChar c = false := by
  have ofWord {cs : List Char} (word : ∀ c ∈ cs, isWordChar c = true) (some : cs ≠ []) :
      ∃ c r, cs = c :: r ∧ isBlankChar c = false := by
    cases cs with
    | nil => exact absurd rfl some
    | cons c r => exact ⟨c, r, rfl, isBlankChar_of_word (word c (.head _))⟩
  cases e with
  | text s =>
    obtain ⟨q, r, shape, quote⟩ := printText_head s.toList
    refine ⟨q, r, shape, ?_⟩
    rcases quote with rfl | rfl
    · rfl
    · rfl
  | nat n =>
    refine ofWord (fun c among => ?_) Nat.toDigits_ne_nil
    exact isWordChar_of_isDigit (Text.isDigit_of_mem_toDigits among)
  | float x =>
    obtain ⟨y, legible⟩ := legible
    obtain ⟨word, value⟩ := word_of_readWord (readWord_of_readFloat? legible)
    exact ofWord word (ne_nil_of_word? value)
  | bool b => cases b <;> exact ⟨_, _, rfl, rfl⟩
  | texts items =>
    match items with
    | [] => exact ⟨_, _, rfl, rfl⟩
    | [s] => exact ⟨_, _, rfl, rfl⟩
    | s :: t :: items => exact ⟨_, _, rfl, rfl⟩

theorem readPath_entry (k : String) (rest : List Char) :
    readPath (printKey k.toList ++ ' ' :: '=' :: rest) = some ([k], '=' :: rest) := by
  have blank : skipBlanks (' ' :: '=' :: rest) = '=' :: rest := rfl
  show readPathFrom (77 + 1 + 1) _ = _
  rw [readPathFrom, skipBlanks_key, readKey_print _ (endsKey rfl _)]
  simp only [Option.bind_eq_bind, Option.bind_some, blank, String.ofList_toList]
  rfl

theorem readPair_entry {entry : String × Entry} (legible : entry.2.Legible) (rest : List Char) :
    readPair (readValue (nestingLimit - 1)) (printEntry entry ++ rest) =
      some (([entry.1], entry.2.node), '\n' :: rest) := by
  obtain ⟨name, e⟩ := entry
  have value : readValue (nestingLimit - 1) (e.print ++ '\n' :: rest) =
      some (e.node, '\n' :: rest) := readValue_entry 78 legible
  obtain ⟨c, r, shape, shown⟩ := print_head legible
  have blank : skipBlanks (' ' :: (e.print ++ '\n' :: rest)) = e.print ++ '\n' :: rest := by
    rw [shape]
    exact skipBlanks_of_head shown (r ++ '\n' :: rest)
  have line : skipBlanks ('\n' :: rest) = '\n' :: rest := rfl
  have shape : printEntry (name, e) ++ rest =
      printKey name.toList ++ ' ' :: '=' :: ' ' :: (e.print ++ '\n' :: rest) := by
    simp [printEntry]
  rw [shape, readPair, readPath_entry]
  simp only [Option.bind_eq_bind, Option.bind_some, blank, value, line]
  rfl

theorem readStatement_entry {entry : String × Entry} (legible : entry.2.Legible)
    (rest : List Char) :
    readStatement (printEntry entry ++ rest) =
      some (some (.pair [entry.1] entry.2.node), '\n' :: rest) := by
  have read := readPair_entry legible rest
  have blanks : skipBlanks (printEntry entry ++ rest) = printEntry entry ++ rest := by
    simp only [printEntry, List.append_assoc]
    exact skipBlanks_key _ _
  obtain ⟨c, r, shape, starts⟩ := printKey_head entry.1.toList
  have shape : ∃ r, printEntry entry ++ rest = c :: r := by
    exact ⟨_, by simp only [printEntry, shape, List.append_assoc, List.cons_append]; rfl⟩
  obtain ⟨r, shape⟩ := shape
  rw [shape] at read blanks ⊢
  rw [readStatement, blanks]
  have other {d : Char} (h : isBare d = false ∧ d ≠ '"' ∧ d ≠ '\'') {r' : List Char} :
      c :: r = d :: r' → False := fun same => keyStart_ne starts h (List.cons.inj same).1
  -- no other kind of line begins as a key does
  split
  · rename_i same
    cases same
  iterate 5
    · rename_i same
      exact (other (by decide) same).elim
  · rw [read]
    rfl

theorem printPath_head {path : List String} (some : path ≠ []) :
    ∃ c r, printPath path = c :: r ∧ (isBare c = true ∨ c = '"' ∨ c = '\'') := by
  match path with
  | [] => exact absurd rfl some
  | [k] =>
    obtain ⟨c, r, shape, starts⟩ := printKey_head k.toList
    exact ⟨c, r, by simp [printPath, shape], starts⟩
  | k :: k' :: path =>
    obtain ⟨c, r, shape, starts⟩ := printKey_head k.toList
    rw [printPath, List.map_cons, List.map_cons, List.intercalate_cons_cons, shape]
    exact ⟨c, _, rfl, starts⟩

/-- A header that the reader can take: it has keys, and not too many. -/
def Section.Open (s : Section) : Prop := s.path ≠ [] ∧ s.path.length < nestingLimit

def Section.header (s : Section) : Statement :=
  if s.listed then .nextHeader s.path else .header s.path

theorem readStatement_header {s : Section} (h : s.Open) (rest : List Char) :
    readStatement (s.printHeader ++ rest) = some (some s.header, '\n' :: rest) := by
  obtain ⟨some, room⟩ := h
  have within : s.path.length ≤ nestingLimit - 1 := Nat.le_sub_one_of_lt room
  have path (more : List Char) := readPathFrom_print some within (c := ']') more (by decide)
  obtain ⟨c, r, shape, starts⟩ := printPath_head some
  have single : c ≠ '[' := keyStart_ne starts (by decide)
  unfold Section.printHeader Section.header
  split
  · have shown : '[' :: '[' :: printPath s.path ++ [']', ']', '\n'] ++ rest =
        '[' :: '[' :: (printPath s.path ++ ']' :: ']' :: '\n' :: rest) := by simp
    have blanks : skipBlanks ('[' :: '[' :: (printPath s.path ++ ']' :: ']' :: '\n' :: rest)) =
        '[' :: '[' :: (printPath s.path ++ ']' :: ']' :: '\n' :: rest) := rfl
    rw [shown, readStatement, blanks]
    show (readPathFrom (nestingLimit - 1) _).bind _ = _
    rw [path]
    rfl
  · have shown : '[' :: printPath s.path ++ [']', '\n'] ++ rest =
        '[' :: (printPath s.path ++ ']' :: '\n' :: rest) := by simp
    have blanks : skipBlanks ('[' :: (printPath s.path ++ ']' :: '\n' :: rest)) =
        '[' :: (printPath s.path ++ ']' :: '\n' :: rest) := rfl
    have read : readPath (printPath s.path ++ ']' :: '\n' :: rest) =
        .some (s.path, ']' :: '\n' :: rest) := path _
    rw [shown, readStatement, blanks]
    rw [shape] at read ⊢
    rw [List.cons_append] at read ⊢
    split
    iterate 4
      · rename_i same
        cases same
    · rename_i same
      exact absurd (List.cons.inj (List.cons.inj same).2).1 single
    · rename_i same
      rw [← (List.cons.inj same).2, read]
      rfl
    · rename_i other
      exact (other _ rfl).elim

def Section.statements (s : Section) : List Statement :=
  s.header :: s.entries.map fun e => .pair [e.1] e.2.node

/-! ## Files -/

/-- With a line for each character at most, the text is read as these statements. -/
def Parses (cs : List Char) (statements : List Statement) : Prop :=
  ∀ fuel, cs.length < fuel → readStatements fuel cs = some statements

namespace Parses

variable {cs rest : List Char} {statements : List Statement}

theorem nil : Parses [] [] := by
  intro fuel _
  cases fuel <;> rfl

theorem line {statement : Option Statement} (h : Parses rest statements)
    (read : readStatement cs = some (statement, '\n' :: rest)) (shorter : rest.length < cs.length) :
    Parses cs (statement.toList ++ statements) := by
  intro fuel room
  cases fuel with
  | zero => cases room
  | succ fuel =>
    cases cs with
    | nil => cases shorter
    | cons c cs =>
      have later := h fuel (by omega)
      have ends : readLineEnd ('\n' :: rest) = some rest := rfl
      rw [readStatements, read]
      · simp only [Option.bind_eq_bind, Option.bind_some, ends, later]
        rfl
      · exact List.cons_ne_nil c cs

theorem entries {es : List (String × Entry)} (legible : ∀ e ∈ es, e.2.Legible)
    (h : Parses rest statements) :
    Parses (es.flatMap printEntry ++ rest)
      ((es.map fun e => .pair [e.1] e.2.node) ++ statements) := by
  induction es with
  | nil => exact h
  | cons e es ih =>
    have later := ih fun d among => legible d (.tail _ among)
    have shorter : (es.flatMap printEntry ++ rest).length <
        (printEntry e ++ (es.flatMap printEntry ++ rest)).length := by
      simp only [printEntry, List.length_append, List.length_cons]
      omega
    rw [List.flatMap_cons, List.append_assoc]
    exact later.line (readStatement_entry (legible e (.head _)) _) shorter

theorem header {s : Section} (h : s.Open) (later : Parses rest statements) :
    Parses (s.printHeader ++ rest) (s.header :: statements) := by
  have shorter : rest.length < (s.printHeader ++ rest).length := by
    unfold Section.printHeader
    split
    all_goals
      simp only [List.length_append, List.length_cons]
      omega
  exact later.line (readStatement_header h rest) shorter

theorem section' {s : Section} (h : s.Open) (legible : ∀ e ∈ s.entries, e.2.Legible)
    (later : Parses rest statements) : Parses (s.print ++ rest) (s.statements ++ statements) := by
  rw [Section.print, List.append_assoc]
  exact (later.entries legible).header h

theorem sections {sections : List Section} (h : ∀ s ∈ sections, s.Open)
    (legible : ∀ s ∈ sections, ∀ e ∈ s.entries, e.2.Legible) :
    Parses (printSections sections) (sections.flatMap Section.statements) := by
  induction sections with
  | nil => exact nil
  | cons s sections ih =>
    have later := ih (fun t among => h t (.tail _ among)) fun t among => legible t (.tail _ among)
    have first := h s (.head _)
    have entries := legible s (.head _)
    cases sections with
    | nil =>
      have alone := section' first entries nil
      simpa [printSections] using alone
    | cons t sections =>
      have blank : Parses ('\n' :: printSections (t :: sections)) _ :=
        later.line rfl (Nat.lt_succ_self _)
      have both := section' first entries blank
      simpa [printSections, List.intercalate_cons_cons] using both

end Parses

theorem dropByteOrderMark_sections (sections : List Section) :
    dropByteOrderMark (printSections sections) = printSections sections := by
  have bracket (s : Section) : ∃ r, s.print = '[' :: r := by
    unfold Section.print Section.printHeader
    split
    · exact ⟨_, rfl⟩
    · exact ⟨_, rfl⟩
  match sections with
  | [] => rfl
  | [s] =>
    obtain ⟨r, shape⟩ := bracket s
    simp [printSections, shape, dropByteOrderMark]
  | s :: t :: sections =>
    obtain ⟨r, shape⟩ := bracket s
    simp [printSections, List.intercalate_cons_cons, shape, dropByteOrderMark]

/-- A written file is read as what its statements build. -/
theorem read_render {sections : List Section} (h : ∀ s ∈ sections, s.Open)
    (legible : ∀ s ∈ sections, ∀ e ∈ s.entries, e.2.Legible) :
    read (render sections) =
      ((sections.flatMap Section.statements).foldlM Building.take {}).map Building.root := by
  have plain := dropByteOrderMark_sections sections
  have parses :=
    Parses.sections h legible ((printSections sections).length + 1) (Nat.lt_succ_self _)
  rw [read, render, String.toList_ofList]
  simp only [plain, Option.bind_eq_bind, parses, Option.bind_some]
  cases (sections.flatMap Section.statements).foldlM Building.take {} <;> rfl

end Ensemble.Toml
