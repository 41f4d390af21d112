import Ensemble.Toml.Text

/-!
# Texts of settings files that read back

Whatever form a text is written in, it is read as that text, up to where it ends (`readText_print`);
so are keys, with quotes or without (`readKey_print`). Behind a text no quote may follow, for the
forms of several lines would take it for their own.

Escapes that are read but never written are not covered.
-/

namespace Ensemble.Toml

def NoQuote (rest : List Char) : Prop := ∀ c ∈ rest.head?, c ≠ '"' ∧ c ≠ '\''

/-! ## Escapes -/

theorem escaped_hex : ∀ n, n < 128 →
    scalar? ['0', '0', upperHex (n / 16), upperHex (n % 16)] = some (Char.ofNat n) := by decide

theorem toNat_of_isControl {c : Char} (control : isControl c = true) : c.toNat < 128 := by
  simp only [isControl, Bool.or_eq_true, decide_eq_true_eq, beq_iff_eq] at control
  rcases control with low | rfl
  · have : c.toNat < 32 := low
    omega
  · decide

theorem isPlain_of_isControl {c : Char} (control : isControl c = false) : isPlain c = true := by
  simp only [isControl, Bool.or_eq_false_iff, decide_eq_false_iff_not,
    beq_eq_false_iff_ne] at control
  simp only [isPlain, Bool.or_eq_true, Bool.and_eq_true, decide_eq_true_eq, bne_iff_ne]
  exact .inr ⟨Char.not_lt.mp control.1, control.2⟩

theorem readBasic_escaped {c : Char} (control : isControl c = true) (rest : List Char) :
    readBasic (escapedControl false c ++ rest) = push (some c) (readBasic rest) := by
  unfold escapedControl
  -- five controls have an escape of their own
  iterate 5
    split
    · subst c
      rfl
  · have code := escaped_hex c.toNat (toNat_of_isControl control)
    have spelled : readBasic (['\\', 'u', '0', '0', upperHex (c.toNat / 16),
        upperHex (c.toNat % 16)] ++ rest) =
        push (scalar? ['0', '0', upperHex (c.toNat / 16), upperHex (c.toNat % 16)])
          (readBasic rest) := rfl
    rw [spelled, code, Char.ofNat_toNat]

theorem readBasic_plain {c : Char} (quote : c ≠ '"') (slash : c ≠ '\\')
    (control : isControl c = false) (rest : List Char) :
    readBasic (c :: rest) = push (some c) (readBasic rest) := by
  rw [readBasic, if_pos (isPlain_of_isControl control)]
  all_goals simp [quote, slash]

theorem readBasic_print (cs rest : List Char) :
    readBasic (printEscaped false 0 0 cs ++ '"' :: rest) = some (cs, rest) := by
  induction cs with
  | nil => rfl
  | cons c cs ih =>
    rw [printEscaped]
    split
    · subst c
      show push (some '"') (readBasic (printEscaped false 0 0 cs ++ '"' :: rest)) = _
      rw [ih]
      rfl
    split
    · subst c
      show push (some '\\') (readBasic (printEscaped false 0 0 cs ++ '"' :: rest)) = _
      rw [ih]
      rfl
    split
    · rename_i control
      rw [List.append_assoc, readBasic_escaped control, ih]
      rfl
    · rename_i quote slash control
      rw [List.cons_append, readBasic_plain quote slash (Bool.eq_false_iff.mpr control), ih]
      rfl

theorem isPlain_ne {c : Char} (plain : isPlain c = true) : c ≠ '\n' ∧ c ≠ '\r' := by
  constructor
  · rintro rfl
    cases plain
  · rintro rfl
    cases plain

theorem readLiteral_print {cs : List Char} (plain : ∀ c ∈ cs, isPlain c = true ∧ c ≠ '\'')
    (rest : List Char) : readLiteral (cs ++ '\'' :: rest) = some (cs, rest) := by
  induction cs with
  | nil => rfl
  | cons c cs ih =>
    obtain ⟨shown, quote⟩ := plain c (.head _)
    have later := ih fun d among => plain d (.tail _ among)
    rw [List.cons_append, readLiteral, if_pos shown, later]
    · rfl
    · exact quote

/-! ## Several lines -/

theorem readMultiBasic_plain {c : Char} (quote : c ≠ '"') (slash : c ≠ '\\')
    (control : isControl c = false) (rest : List Char) :
    readMultiBasic .none (c :: rest) = push (some c) (readMultiBasic .none rest) := by
  have plain := isPlain_of_isControl control
  obtain ⟨line, feed⟩ := isPlain_ne plain
  rw [readMultiBasic, if_pos plain]
  all_goals simp [quote, slash, line, feed]

theorem readMultiBasic_quote {rest : List Char} (short : ∀ r, rest ≠ '"' :: '"' :: r) :
    readMultiBasic .none ('"' :: rest) = push (some '"') (readMultiBasic .none rest) := by
  rw [readMultiBasic, if_pos (by decide)]
  all_goals simp [short]

theorem readMultiBasic_escaped {c : Char} (control : isControl c = true) (rest : List Char) :
    readMultiBasic .none (escapedControl true c ++ rest) =
      push (some c) (readMultiBasic .none rest) := by
  unfold escapedControl
  -- five controls have an escape of their own
  iterate 5
    split
    · subst c
      rfl
  · have code := escaped_hex c.toNat (toNat_of_isControl control)
    have spelled : readMultiBasic .none (['\\', 'u', '0', '0', upperHex (c.toNat / 16),
        upperHex (c.toNat % 16)] ++ rest) =
        push (scalar? ['0', '0', upperHex (c.toNat / 16), upperHex (c.toNat % 16)])
          (readMultiBasic .none rest) := rfl
    rw [spelled, code, Char.ofNat_toNat]

/-- Up to two quotes before the closing ones belong to the text. -/
theorem readMultiBasic_close {rest : List Char} (stops : NoQuote rest) :
    readMultiBasic .none ('"' :: '"' :: '"' :: rest) = some ([], rest) ∧
    readMultiBasic .none ('"' :: '"' :: '"' :: '"' :: rest) = some (['"'], rest) ∧
    readMultiBasic .none ('"' :: '"' :: '"' :: '"' :: '"' :: rest) = some (['"', '"'], rest) := by
  cases rest with
  | nil => exact ⟨rfl, rfl, rfl⟩
  | cons c rest =>
    have quote := (stops c rfl).1
    refine ⟨?_, ?_, rfl⟩
    · rw [readMultiBasic]
      all_goals simp [quote]
    · rw [readMultiBasic]
      all_goals simp [quote]

/-- No quote is shown where a run of them is at its limit. -/
theorem printEscaped_head (multi : Bool) {limit run : Nat} {c : Char} (cs : List Char)
    (h : c ≠ '"' ∨ limit ≤ run) :
    ∃ d ds, printEscaped multi limit run (c :: cs) = d :: ds ∧ d ≠ '"' := by
  rw [printEscaped]
  split
  · rename_i quote
    rcases h with other | full
    · exact absurd quote other
    · rw [if_neg (by omega)]
      exact ⟨_, _, rfl, by decide⟩
  split
  · exact ⟨_, _, rfl, by decide⟩
  split
  · unfold escapedControl
    repeat' split
    all_goals exact ⟨_, _, rfl, by decide⟩
  · exact ⟨_, _, rfl, ‹_›⟩

/-- A quote that is shown belongs to the closing ones only if nothing stands between. -/
theorem readMultiBasic_shown {cs rest : List Char} (stops : NoQuote rest) {run : Nat}
    (room : run < 2) (later : readMultiBasic .none
      (printEscaped true 2 (run + 1) cs ++ '"' :: '"' :: '"' :: rest) = some (cs, rest)) :
    readMultiBasic .none ('"' :: (printEscaped true 2 (run + 1) cs ++ '"' :: '"' :: '"' :: rest)) =
      some ('"' :: cs, rest) := by
  obtain ⟨-, four, five⟩ := readMultiBasic_close stops
  cases cs with
  | nil => exact four
  | cons d cs =>
    by_cases pair : d = '"' ∧ run + 1 < 2
    · obtain ⟨rfl, room⟩ := pair
      cases cs with
      | nil =>
        rw [printEscaped, if_pos rfl, if_pos room]
        exact five
      | cons e cs =>
        have full : e ≠ '"' ∨ 2 ≤ run + 1 + 1 := .inr (by omega)
        obtain ⟨f, fs, shown, other⟩ := printEscaped_head true cs full
        rw [readMultiBasic_quote, later]
        · rfl
        · intro r same
          rw [printEscaped, if_pos rfl, if_pos room, shown] at same
          exact other (List.cons.inj (List.cons.inj same).2).1
    · have full : d ≠ '"' ∨ 2 ≤ run + 1 := by
        by_cases same : d = '"'
        · have full : ¬ run + 1 < 2 := fun room => pair ⟨same, room⟩
          exact .inr (by omega)
        · exact .inl same
      obtain ⟨f, fs, shown, other⟩ := printEscaped_head true cs full
      rw [readMultiBasic_quote, later]
      · rfl
      · intro r same
        rw [shown] at same
        exact other (List.cons.inj same).1

theorem readMultiBasic_print (cs : List Char) {rest : List Char} (stops : NoQuote rest)
    (run : Nat) :
    readMultiBasic .none (printEscaped true 2 run cs ++ '"' :: '"' :: '"' :: rest) =
      some (cs, rest) := by
  induction cs generalizing run with
  | nil => exact (readMultiBasic_close stops).1
  | cons c cs ih =>
    rw [printEscaped]
    split
    · subst c
      split
      · rename_i room
        exact readMultiBasic_shown stops room (ih (run + 1))
      · show push (some '"') (readMultiBasic .none (printEscaped true 2 0 cs ++ _)) = _
        rw [ih 0]
        rfl
    split
    · subst c
      show push (some '\\') (readMultiBasic .none (printEscaped true 2 0 cs ++ _)) = _
      rw [ih 0]
      rfl
    split
    · rename_i control
      rw [List.append_assoc, readMultiBasic_escaped control, ih 0]
      rfl
    · rename_i quote slash control
      rw [List.cons_append, readMultiBasic_plain quote slash (Bool.eq_false_iff.mpr control), ih 0]
      rfl

theorem le_longestRun (c : Char) (current longest : Nat) (cs : List Char) :
    longest ≤ longestRun c current longest cs := by
  induction cs generalizing current longest with
  | nil => exact Nat.le_refl _
  | cons d cs ih =>
    rw [longestRun]
    split
    · exact Nat.le_trans (Nat.le_max_left ..) (ih (current + 1) (max longest (current + 1)))
    · exact ih 0 longest

theorem readMultiLiteral_plain {c : Char} (quote : c ≠ '\'') (plain : isPlain c = true)
    (rest : List Char) : readMultiLiteral (c :: rest) = push (some c) (readMultiLiteral rest) := by
  obtain ⟨line, feed⟩ := isPlain_ne plain
  rw [readMultiLiteral, if_pos plain]
  all_goals simp [quote, line, feed]

theorem readMultiLiteral_quote {rest : List Char} (short : ∀ r, rest ≠ '\'' :: '\'' :: r) :
    readMultiLiteral ('\'' :: rest) = push (some '\'') (readMultiLiteral rest) := by
  rw [readMultiLiteral, if_pos (by decide)]
  all_goals simp [short]

theorem readMultiLiteral_close {rest : List Char} (stops : NoQuote rest) :
    readMultiLiteral ('\'' :: '\'' :: '\'' :: rest) = some ([], rest) ∧
    readMultiLiteral ('\'' :: '\'' :: '\'' :: '\'' :: rest) = some (['\''], rest) ∧
    readMultiLiteral ('\'' :: '\'' :: '\'' :: '\'' :: '\'' :: rest) =
      some (['\'', '\''], rest) := by
  cases rest with
  | nil => exact ⟨rfl, rfl, rfl⟩
  | cons c rest =>
    have quote := (stops c rfl).2
    refine ⟨?_, ?_, rfl⟩
    · rw [readMultiLiteral]
      all_goals simp [quote]
    · rw [readMultiLiteral]
      all_goals simp [quote]

/-- Without three quotes in a row, a text of plain characters and line ends stands as it is. -/
theorem readMultiLiteral_shown {cs rest : List Char} (stops : NoQuote rest) {run longest : Nat}
    (short : longestRun '\'' (run + 1) longest cs ≤ 2) (within : run + 1 ≤ 2)
    (later : readMultiLiteral (cs ++ '\'' :: '\'' :: '\'' :: rest) = some (cs, rest)) :
    readMultiLiteral ('\'' :: (cs ++ '\'' :: '\'' :: '\'' :: rest)) = some ('\'' :: cs, rest) := by
  obtain ⟨-, four, five⟩ := readMultiLiteral_close stops
  rcases cs with _ | ⟨d, _ | ⟨e, cs⟩⟩
  · exact four
  · by_cases pair : d = '\''
    · subst pair
      exact five
    · rw [readMultiLiteral_quote, later]
      · rfl
      · intro r same
        exact pair (List.cons.inj same).1
  · by_cases triple : d = '\'' ∧ e = '\''
    · obtain ⟨rfl, rfl⟩ := triple
      rw [longestRun, if_pos rfl, longestRun, if_pos rfl] at short
      have long := Nat.le_trans (le_longestRun ..) short
      omega
    · rw [readMultiLiteral_quote, later]
      · rfl
      · intro r same
        obtain ⟨first, same⟩ := List.cons.inj same
        exact triple ⟨first, (List.cons.inj same).1⟩

theorem readMultiLiteral_print {cs rest : List Char} (stops : NoQuote rest)
    (shown : ∀ c ∈ cs, isPlain c = true ∨ c = '\n') {run longest : Nat}
    (short : longestRun '\'' run longest cs ≤ 2) :
    readMultiLiteral (cs ++ '\'' :: '\'' :: '\'' :: rest) = some (cs, rest) := by
  induction cs generalizing run longest with
  | nil => exact (readMultiLiteral_close stops).1
  | cons c cs ih =>
    have laterShown : ∀ d ∈ cs, isPlain d = true ∨ d = '\n' :=
      fun d among => shown d (.tail _ among)
    rw [longestRun] at short
    by_cases quote : c = '\''
    · subst quote
      rw [if_pos rfl] at short
      have within : run + 1 ≤ 2 :=
        Nat.le_trans (Nat.le_max_right ..) (Nat.le_trans (le_longestRun ..) short)
      exact readMultiLiteral_shown stops short within (ih laterShown short)
    · rw [if_neg quote] at short
      rw [List.cons_append]
      rcases shown c (.head _) with plain | rfl
      · rw [readMultiLiteral_plain quote plain, ih laterShown short]
        rfl
      · rw [readMultiLiteral, ih laterShown short]
        rfl

/-! ## Texts and keys -/

theorem readText_basic (cs : List Char) {rest : List Char} (stops : NoQuote rest) :
    readText (Style.basic.print cs ++ rest) = some (cs, rest) := by
  have read := readBasic_print cs rest
  rw [Style.print, List.cons_append, List.cons_append, List.append_assoc]
  cases cs with
  | nil =>
    cases rest with
    | nil => rfl
    | cons c rest =>
      have quote := (stops c rfl).1
      rw [printEscaped] at read ⊢
      rw [readText]
      · exact read
      · simp [quote]
  | cons c cs =>
    have full : c ≠ '"' ∨ 0 ≤ 0 := .inr (Nat.le_refl 0)
    obtain ⟨d, ds, shown, other⟩ := printEscaped_head false cs full
    rw [shown] at read ⊢
    rw [readText]
    · exact read
    · simp [other]

theorem readText_literal {cs rest : List Char} (stops : NoQuote rest)
    (plain : ∀ c ∈ cs, isPlain c = true ∧ c ≠ '\'') :
    readText (Style.literal.print cs ++ rest) = some (cs, rest) := by
  have read := readLiteral_print plain rest
  rw [Style.print, List.cons_append, List.cons_append, List.append_assoc]
  cases cs with
  | nil =>
    cases rest with
    | nil => rfl
    | cons c rest =>
      have quote := (stops c rfl).2
      rw [readText]
      · exact read
      · simp [quote]
  | cons c cs =>
    have quote := (plain c (.head _)).2
    rw [readText]
    · exact read
    · simp [quote]

theorem dropLineEnd_of_head {c : Char} {cs : List Char} (line : c ≠ '\n') (feed : c ≠ '\r') :
    dropLineEnd (c :: cs) = c :: cs := by
  rw [dropLineEnd]
  all_goals simp [line, feed]

/-- The line end behind the opening quotes is there if a line end is in the text. -/
theorem dropLineEnd_opening {cs body : List Char}
    (starts : (∀ c ∈ cs, c ≠ '\n') → ∃ d ds, body = d :: ds ∧ d ≠ '\n' ∧ d ≠ '\r') :
    dropLineEnd ((if cs.any (· == '\n') then ['\n'] else []) ++ body) = body := by
  split
  · rfl
  · rename_i lines
    have none : ∀ c ∈ cs, c ≠ '\n' := by
      intro c among same
      exact lines (List.any_eq_true.mpr ⟨c, among, beq_iff_eq.mpr same⟩)
    obtain ⟨d, ds, rfl, line, feed⟩ := starts none
    exact dropLineEnd_of_head line feed

theorem printEscaped_line {run : Nat} {c : Char} (cs : List Char) (line : c ≠ '\n') :
    ∃ d ds, printEscaped true 2 run (c :: cs) = d :: ds ∧ d ≠ '\n' ∧ d ≠ '\r' := by
  rw [printEscaped]
  split
  · split
    all_goals exact ⟨_, _, rfl, by decide, by decide⟩
  split
  · exact ⟨_, _, rfl, by decide, by decide⟩
  split
  · unfold escapedControl
    rw [if_neg line]
    repeat' split
    all_goals exact ⟨_, _, rfl, by decide, by decide⟩
  · rename_i control
    have plain := isPlain_of_isControl (Bool.eq_false_iff.mpr control)
    exact ⟨_, _, rfl, isPlain_ne plain⟩

theorem readText_multiBasic (cs : List Char) {rest : List Char} (stops : NoQuote rest) :
    readText (Style.multiBasic.print cs ++ rest) = some (cs, rest) := by
  have read := readMultiBasic_print cs stops 0
  have starts (none : ∀ c ∈ cs, c ≠ '\n') : ∃ d ds,
      printEscaped true 2 0 cs ++ '"' :: '"' :: '"' :: rest = d :: ds ∧ d ≠ '\n' ∧ d ≠ '\r' := by
    cases cs with
    | nil => exact ⟨_, _, rfl, by decide, by decide⟩
    | cons c cs =>
      obtain ⟨d, ds, shown, other⟩ := printEscaped_line cs (none c (.head _))
      exact ⟨d, _, by rw [shown]; rfl, other⟩
  rw [Style.print, List.append_assoc, List.append_assoc]
  show readMultiBasic .none (dropLineEnd ((if cs.any (· == '\n') then ['\n'] else []) ++
    (printEscaped true 2 0 cs ++ '"' :: '"' :: '"' :: rest))) = _
  rw [dropLineEnd_opening starts]
  exact read

theorem readText_multiLiteral {cs rest : List Char} (stops : NoQuote rest)
    (shown : ∀ c ∈ cs, isPlain c = true ∨ c = '\n') (short : longestRun '\'' 0 0 cs ≤ 2) :
    readText (Style.multiLiteral.print cs ++ rest) = some (cs, rest) := by
  have read := readMultiLiteral_print stops shown short
  have starts (none : ∀ c ∈ cs, c ≠ '\n') : ∃ d ds,
      cs ++ '\'' :: '\'' :: '\'' :: rest = d :: ds ∧ d ≠ '\n' ∧ d ≠ '\r' := by
    cases cs with
    | nil => exact ⟨_, _, rfl, by decide, by decide⟩
    | cons c cs =>
      rcases shown c (.head _) with plain | line
      · exact ⟨c, _, rfl, isPlain_ne plain⟩
      · exact absurd line (none c (.head _))
  rw [Style.print, List.append_assoc, List.append_assoc]
  show readMultiLiteral (dropLineEnd ((if cs.any (· == '\n') then ['\n'] else []) ++
    (cs ++ '\'' :: '\'' :: '\'' :: rest))) = _
  rw [dropLineEnd_opening starts]
  exact read

theorem not_mem_of_longestRun {quote : Char} {current longest : Nat} {cs : List Char}
    (h : longestRun quote current longest cs = 0) : quote ∉ cs := by
  induction cs generalizing current longest with
  | nil => exact List.not_mem_nil
  | cons c cs ih =>
    rw [longestRun] at h
    by_cases same : c = quote
    · rw [if_pos same] at h
      have long := le_longestRun quote (current + 1) (max longest (current + 1)) cs
      omega
    · rw [if_neg same] at h
      rw [List.mem_cons]
      rintro (first | later)
      · exact same first.symm
      · exact ih h later

theorem shown_of_uncoded {cs : List Char} (uncoded : cs.any needsCode = false) :
    ∀ c ∈ cs, isPlain c = true ∨ c = '\n' := by
  intro c among
  have free := List.any_eq_false.mp uncoded c among
  cases control : isControl c with
  | false => exact .inl (isPlain_of_isControl control)
  | true =>
    rw [needsCode, control] at free
    by_cases line : c = '\n'
    · exact .inr line
    · by_cases tab : c = '\t'
      · rw [tab]
        exact .inl rfl
      · simp [line, tab] at free

/-- Whatever form a text is written in, it is read as that text. -/
theorem readText_print (cs : List Char) {rest : List Char} (stops : NoQuote rest) :
    readText (printText cs ++ rest) = some (cs, rest) := by
  unfold printText Style.of
  dsimp only
  split
  · exact readText_basic cs stops
  split
  · rename_i h
    simp only [Bool.and_eq_true, Bool.not_eq_true', beq_iff_eq] at h
    obtain ⟨⟨uncoded, singles⟩, lines⟩ := h
    refine readText_literal stops fun c among => ⟨?_, fun quote => ?_⟩
    · rcases shown_of_uncoded uncoded c among with plain | rfl
      · exact plain
      · exact absurd rfl (List.any_eq_false.mp lines _ among)
    · exact not_mem_of_longestRun singles (quote ▸ among)
  split
  · exact readText_multiBasic cs stops
  split
  · rename_i h
    simp only [Bool.and_eq_true, Bool.not_eq_true', decide_eq_true_eq] at h
    exact readText_multiLiteral stops (shown_of_uncoded h.1) h.2
  split
  · exact readText_multiBasic cs stops
  · exact readText_basic cs stops

theorem readKey_basic (cs rest : List Char) :
    readKey (Style.basic.print cs ++ rest) = some (cs, rest) := by
  rw [Style.print, List.cons_append, List.cons_append, List.append_assoc]
  exact readBasic_print cs rest

theorem readKey_bare {cs rest : List Char} (some : cs ≠ []) (bare : ∀ c ∈ cs, isBare c = true)
    (stops : ∀ c ∈ rest.head?, isBare c = false) : readKey (cs ++ rest) = .some (cs, rest) := by
  have taken : (cs ++ rest).takeWhile isBare = cs := by
    rw [List.takeWhile_append_of_pos bare]
    cases rest with
    | nil => rw [List.takeWhile_nil, List.append_nil]
    | cons c rest => rw [List.takeWhile_cons_of_neg (by simp [stops c rfl]), List.append_nil]
  have left : (cs ++ rest).dropWhile isBare = rest := by
    rw [List.dropWhile_append_of_pos bare]
    cases rest with
    | nil => rfl
    | cons c rest => rw [List.dropWhile_cons_of_neg (by simp [stops c rfl])]
  cases cs with
  | nil => exact absurd rfl some
  | cons c cs =>
    have first := bare c (.head _)
    rw [List.cons_append, readKey]
    · rw [← List.cons_append, taken, left]
    · rintro r same
      cases same
      cases first
    · rintro r same
      cases same
      cases first

/-- With quotes or without, a key is read as it was written. -/
theorem readKey_print (cs : List Char) {rest : List Char}
    (stops : ∀ c ∈ rest.head?, isBare c = false) :
    readKey (printKey cs ++ rest) = some (cs, rest) := by
  unfold printKey
  dsimp only
  split
  · rename_i h
    simp only [Bool.and_eq_true, Bool.not_eq_true', List.isEmpty_eq_false_iff,
      List.all_eq_true] at h
    exact readKey_bare h.1 h.2 stops
  split
  · exact readKey_basic cs rest
  split
  · rename_i h
    simp only [Bool.and_eq_true, Bool.not_eq_true'] at h
    have plain : ∀ c ∈ cs, isPlain c = true ∧ c ≠ '\'' := by
      intro c among
      have free := List.any_eq_false.mp h.1 c among
      have quote := List.any_eq_false.mp h.2 c among
      refine ⟨?_, fun same => quote (beq_iff_eq.mpr same)⟩
      cases control : isControl c with
      | false => exact isPlain_of_isControl control
      | true =>
        by_cases tab : c = '\t'
        · rw [tab]
          rfl
        · simp [control, tab] at free
    rw [Style.print, List.cons_append, List.cons_append, List.append_assoc]
    exact readLiteral_print plain rest
  · exact readKey_basic cs rest

end Ensemble.Toml
