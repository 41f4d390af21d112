import Ensemble.Proofs.Json.Numbers

/-!
# What is written is read

The text written for a value is read as its lexemes wherever it stands (`spells_print`), and from
the lexemes the document of that value is put together (`ofTokens_value`). So the whole text has
the document of the value and nothing behind it (`read_render`), as long as the value is legible:
not nested too deeply, and with numbers that are read as they are written.

Blanks between tokens are not written, and their reading is not covered.
-/

namespace Ensemble.Json

/-! ## Quoted texts -/

theorem hexValue?_digitChar : ∀ d, d < 16 → Text.hexValue? (Nat.digitChar d) = some d := by decide

theorem utf8Size_digitChar : ∀ d, d < 16 → (Nat.digitChar d).utf8Size = 1 := by decide

theorem hexNumber?_control {n : Nat} (h : n < 32) :
    Text.hexNumber? ['0', '0', Nat.digitChar (n / 16), Nat.digitChar (n % 16)] = some n := by
  have high := hexValue?_digitChar (n / 16) (by omega)
  have low := hexValue?_digitChar (n % 16) (by omega)
  have zero : Text.hexValue? '0' = some 0 := by decide
  simp only [Text.hexNumber?, List.foldl_cons, List.foldl_nil, zero, high, low]
  show some ((((0 * 16 + 0) * 16 + 0) * 16 + n / 16) * 16 + n % 16) = some n
  congr 1
  omega

theorem pushUnit_control {s : TextState} (free : s.leading = none) {c : Char} (h : c.toNat < 32)
    (place : Position) : s.pushUnit c.toNat place = s.push c := by
  have trailing : (0xDC00 ≤ c.toNat && c.toNat ≤ 0xDFFF : Bool) = false := by
    simp only [Bool.and_eq_false_iff, decide_eq_false_iff_not]
    omega
  have leading : (0xD800 ≤ c.toNat && c.toNat ≤ 0xDBFF : Bool) = false := by
    simp only [Bool.and_eq_false_iff, decide_eq_false_iff_not]
    omega
  simp only [TextState.pushUnit, free, trailing, leading, Bool.false_eq_true, if_false,
    Char.ofNat_toNat]

theorem step_hex {c : Char} (size : c.utf8Size = 1) {bytes : Nat} (short : bytes + 1 < 4)
    (digits : List Char) (s : TextState) (start place : Position) (read : List Token) :
    Lexer.step ⟨.hex digits bytes s start, place, read⟩ c =
      ⟨.hex (digits ++ [c]) (bytes + 1) s start, place.past c, read⟩ := by
  simp only [Lexer.step, stepMode, size, if_pos short]
  rfl

theorem step_hex_last {c : Char} (size : c.utf8Size = 1) {digits : List Char} {unit : Nat}
    (value : Text.hexNumber? (digits ++ [c]) = some unit) (s : TextState) (start place : Position)
    (read : List Token) :
    Lexer.step ⟨.hex digits 3 s start, place, read⟩ c =
      ⟨.text (s.pushUnit unit (place.of c)) start, place.past c, read⟩ := by
  simp only [Lexer.step, stepMode, size, value]
  rfl

theorem lex_escapedChar (c : Char) (cs : List Char) (start place : Position) (read : List Token) :
    ∃ place', (escapedChar c).foldl Lexer.step ⟨.text ⟨cs, none, none⟩ start, place, read⟩ =
      ⟨.text ⟨c :: cs, none, none⟩ start, place', read⟩ := by
  unfold escapedChar
  -- the quote, the backslash and five controls have an escape of their own
  iterate 7
    split
    · subst c
      exact ⟨_, rfl⟩
  split
  · rename_i control
    have high := utf8Size_digitChar (c.toNat / 16) (by omega)
    have low := utf8Size_digitChar (c.toNat % 16) (by omega)
    have unit : Text.hexNumber? (['0', '0', Nat.digitChar (c.toNat / 16)] ++
        [Nat.digitChar (c.toNat % 16)]) = some c.toNat := hexNumber?_control control
    have escaped : Lexer.step (Lexer.step ⟨.text ⟨cs, none, none⟩ start, place, read⟩ '\\') 'u' =
        ⟨.hex [] 0 ⟨cs, none, none⟩ start, (place.past '\\').past 'u', read⟩ := rfl
    simp only [List.foldl_cons, List.foldl_nil, escaped]
    rw [step_hex (by decide) (by decide), step_hex (by decide) (by decide),
      step_hex high (by decide)]
    have last (place : Position) := step_hex_last low unit ⟨cs, none, none⟩ start place read
    have pushed (place : Position) :
        (TextState.mk cs none none).pushUnit c.toNat place = ⟨c :: cs, none, none⟩ :=
      pushUnit_control rfl control place
    simp only [pushed] at last
    exact ⟨_, last _⟩
  · rename_i quote slash _ _ _ _ _ plain
    refine ⟨place.past c, ?_⟩
    simp only [List.foldl_cons, List.foldl_nil, Lexer.step, stepMode, if_neg slash, if_neg quote,
      if_neg plain, TextState.settle, TextState.push]
    rfl

theorem lex_escaped (cs read : List Char) (start place : Position) (ts : List Token) :
    ∃ place', (cs.flatMap escapedChar).foldl Lexer.step
        ⟨.text ⟨read, none, none⟩ start, place, ts⟩ =
      ⟨.text ⟨cs.reverse ++ read, none, none⟩ start, place', ts⟩ := by
  induction cs generalizing read place with
  | nil => exact ⟨place, rfl⟩
  | cons c cs ih =>
    obtain ⟨place₁, first⟩ := lex_escapedChar c read start place ts
    obtain ⟨place₂, rest⟩ := ih (c :: read) place₁
    refine ⟨place₂, ?_⟩
    rw [List.flatMap_cons, List.foldl_append, first, rest, List.reverse_cons, List.append_assoc]
    rfl

/-! ## Lexemes -/

/-- From between two tokens, the text is read as whole tokens with these lexemes. -/
def Closes (cs : List Char) (ls : List Lexeme) : Prop :=
  ∀ (place : Position) (read : List Token), ∃ (place' : Position) (ts : List Token),
    cs.foldl Lexer.step ⟨.between, place, read⟩ = ⟨.between, place', ts.reverse ++ read⟩ ∧
      ts.map Token.lexeme = ls

theorem foldl_of_scan {cs : List Char} {phase phase' : NumberPhase} {t t' : NumberText}
    (h : scan phase t cs = some (phase', t')) (start place : Position) (read : List Token) :
    ∃ place', cs.foldl Lexer.step ⟨.number phase t start, place, read⟩ =
      ⟨.number phase' t' start, place', read⟩ := by
  induction cs generalizing phase t place with
  | nil =>
    cases h
    exact ⟨place, rfl⟩
  | cons c cs ih =>
    rw [scan] at h
    cases step : stepNumber phase t c with
    | more p u =>
      rw [step] at h
      rw [List.foldl_cons, step_number_more step]
      exact ih h (place.past c)
    | malformed =>
      rw [step] at h
      cases h
    | ends =>
      rw [step] at h
      cases h

/-- What the lexer has read once nothing can follow that belongs to the last token. -/
inductive Stands : Lexer → List Token → Prop where
  | between (place : Position) (read : List Token) : Stands ⟨.between, place, read⟩ read.reverse
  | number {phase : NumberPhase} (final : phase.isFinal = true) (t : NumberText)
      (start place : Position) (read : List Token) :
      Stands ⟨.number phase t start, place, read⟩ (read.reverse ++ [⟨.number t.toNumber?, start⟩])

/-- From between two tokens, the text is read as tokens with these lexemes, of which the last may
still be open. -/
def Spells (cs : List Char) (ls : List Lexeme) : Prop :=
  ∀ (place : Position) (read : List Token), ∃ ts : List Token,
    Stands (cs.foldl Lexer.step ⟨.between, place, read⟩) (read.reverse ++ ts) ∧
      ts.map Token.lexeme = ls

/-- The characters that may follow a value, with their lexemes. -/
def delimiters : List (Char × Lexeme) :=
  [(',', .comma), (']', .closeArray), ('\x7d', .closeObject)]

theorem Stands.delimit {l : Lexer} {ts : List Token} (h : Stands l ts) {c : Char} {lexeme : Lexeme}
    (delimiter : (c, lexeme) ∈ delimiters) :
    ∃ (place place' : Position),
      l.step c = ⟨.between, place', (ts ++ [Token.mk lexeme place]).reverse⟩ := by
  have ends {phase : NumberPhase} (final : phase.isFinal = true) (t : NumberText) :
      stepNumber phase t c = .ends := by
    simp only [delimiters, List.mem_cons, Prod.mk.injEq, List.not_mem_nil, or_false] at delimiter
    rcases delimiter with ⟨rfl, -⟩ | ⟨rfl, -⟩ | ⟨rfl, -⟩
    all_goals cases phase <;> first | rfl | cases final
  have begins (place : Position) : beginToken c place = (.between, [⟨lexeme, place⟩]) := by
    simp only [delimiters, List.mem_cons, Prod.mk.injEq, List.not_mem_nil, or_false] at delimiter
    rcases delimiter with ⟨rfl, rfl⟩ | ⟨rfl, rfl⟩ | ⟨rfl, rfl⟩ <;> rfl
  cases h with
  | between place read =>
    refine ⟨place.of c, place.past c, ?_⟩
    simp [Lexer.step, stepMode, begins]
  | number final t start place read =>
    refine ⟨place.of c, place.past c, ?_⟩
    simp [Lexer.step, stepMode, ends final, begins, endNumber_final final]

theorem Stands.finish {l : Lexer} {ts : List Token} (h : Stands l ts) :
    l.finish = ts ++ [⟨.endOfText, l.place⟩] := by
  cases h with
  | between place read => rfl
  | number final t start place read =>
    simp [Lexer.finish, finishMode, endNumber_final final]

namespace Closes

variable {cs ds : List Char} {ls ms : List Lexeme}

theorem spells (h : Closes cs ls) : Spells cs ls := by
  intro place read
  obtain ⟨place', ts, folded, lexemes⟩ := h place read
  refine ⟨ts, ?_, lexemes⟩
  have stands := Stands.between place' (ts.reverse ++ read)
  rw [List.reverse_append, List.reverse_reverse] at stands
  rwa [folded]

theorem append_spells (h : Closes cs ls) (h' : Spells ds ms) : Spells (cs ++ ds) (ls ++ ms) := by
  intro place read
  obtain ⟨place', ts, folded, lexemes⟩ := h place read
  obtain ⟨us, stands, more⟩ := h' place' (ts.reverse ++ read)
  refine ⟨ts ++ us, ?_, by rw [List.map_append, lexemes, more]⟩
  rw [List.reverse_append, List.reverse_reverse, List.append_assoc] at stands
  rwa [List.foldl_append, folded]

theorem append (h : Closes cs ls) (h' : Closes ds ms) : Closes (cs ++ ds) (ls ++ ms) := by
  intro place read
  obtain ⟨place', ts, folded, lexemes⟩ := h place read
  obtain ⟨place'', us, onward, more⟩ := h' place' (ts.reverse ++ read)
  refine ⟨place'', ts ++ us, ?_, by rw [List.map_append, lexemes, more]⟩
  rw [List.foldl_append, folded, onward, List.reverse_append, List.append_assoc]

end Closes

namespace Spells

variable {cs : List Char} {ls : List Lexeme}

theorem nil : Spells [] [] := by
  intro place read
  refine ⟨[], ?_, rfl⟩
  rw [List.append_nil]
  exact .between place read

theorem close (h : Spells cs ls) (c : Char) (lexeme : Lexeme)
    (delimiter : (c, lexeme) ∈ delimiters) : Closes (cs ++ [c]) (ls ++ [lexeme]) := by
  intro place read
  obtain ⟨ts, stands, lexemes⟩ := h place read
  obtain ⟨start, place', stepped⟩ := stands.delimit delimiter
  refine ⟨place', ts ++ [⟨lexeme, start⟩], ?_, by rw [List.map_append, lexemes]; rfl⟩
  rw [List.foldl_append, List.foldl_cons, List.foldl_nil, stepped]
  simp

theorem of_numeral {n : Number} (h : Numeral cs n) : Spells cs [.number (some n)] := by
  intro place read
  obtain ⟨first, rest, phase, t, phase', t', rfl, begins, scanned, final, value⟩ := h.reads
  have begun : Lexer.step ⟨.between, place, read⟩ first =
      ⟨.number phase t (place.of first), place.past first, read⟩ := by
    simp [Lexer.step, stepMode, begins]
  obtain ⟨place', folded⟩ := foldl_of_scan scanned (place.of first) (place.past first) read
  refine ⟨[⟨.number t'.toNumber?, place.of first⟩], ?_, by rw [value]; rfl⟩
  rw [List.foldl_cons, begun, folded]
  exact .number final t' _ place' read

end Spells

theorem closes_text (s : String) : Closes (printText s) [.text none (.ok s)] := by
  intro place read
  obtain ⟨place', folded⟩ := lex_escaped s.toList [] (place.of '"') (place.past '"') read
  refine ⟨place'.past '"', [⟨.text none (.ok s), place.of '"'⟩], ?_, rfl⟩
  have opened : Lexer.step ⟨.between, place, read⟩ '"' =
      ⟨.text ⟨[], none, none⟩ (place.of '"'), place.past '"', read⟩ := rfl
  have closed (cs : List Char) (start : Position) :
      Lexer.step ⟨.text ⟨cs, none, none⟩ start, place', read⟩ '"' =
        ⟨.between, place'.past '"',
          ⟨.text none (.ok (String.ofList cs.reverse)), start⟩ :: read⟩ := rfl
  rw [printText, List.cons_append, List.foldl_cons, opened, List.foldl_append, folded,
    List.foldl_cons, closed, List.append_nil, List.reverse_reverse, String.ofList_toList]
  rfl

theorem closes_null : Closes ['n', 'u', 'l', 'l'] [.null] := fun _ _ => ⟨_, [_], rfl, rfl⟩

theorem closes_true : Closes ['t', 'r', 'u', 'e'] [.bool true] := fun _ _ => ⟨_, [_], rfl, rfl⟩

theorem closes_false : Closes ['f', 'a', 'l', 's', 'e'] [.bool false] :=
  fun _ _ => ⟨_, [_], rfl, rfl⟩

theorem closes_openArray : Closes ['['] [.openArray] := fun _ _ => ⟨_, [_], rfl, rfl⟩

theorem closes_openObject : Closes ['\x7b'] [.openObject] := fun _ _ => ⟨_, [_], rfl, rfl⟩

theorem closes_colon : Closes [':'] [.colon] := fun _ _ => ⟨_, [_], rfl, rfl⟩

/-! ## Values -/

/-- Containers are nested at most so deep, and every number is written as a numeral. -/
inductive Legible : Nat → Json → Prop where
  | null (depth : Nat) : Legible depth .null
  | bool (depth : Nat) (b : Bool) : Legible depth (.bool b)
  | number {n : Number} (depth : Nat) (h : Numeral (printNumber n) n) : Legible depth (.number n)
  | text (depth : Nat) (s : String) : Legible depth (.text s)
  | array {depth : Nat} {items : List Json} (h : ∀ v ∈ items, Legible depth v) :
      Legible (depth + 1) (.array items)
  | object {depth : Nat} {members : List (String × Json)} (h : ∀ m ∈ members, Legible depth m.2) :
      Legible (depth + 1) (.object members)

theorem Legible.mono {depth more : Nat} {v : Json} (h : Legible depth v) (le : depth ≤ more) :
    Legible more v := by
  induction h generalizing more with
  | null => exact .null more
  | bool _ b => exact .bool more b
  | number _ h => exact .number more h
  | text _ s => exact .text more s
  | array _ ih =>
    cases more with
    | zero => omega
    | succ more => exact .array fun v among => ih v among (by omega)
  | object _ ih =>
    cases more with
    | zero => omega
    | succ more => exact .object fun m among => ih m among (by omega)

mutual

def lexemes : Json → List Lexeme
  | .null => [.null]
  | .bool b => [.bool b]
  | .number n => [.number (some n)]
  | .text s => [.text none (.ok s)]
  | .array items => .openArray :: itemLexemes items ++ [.closeArray]
  | .object members => .openObject :: memberLexemes members ++ [.closeObject]

def itemLexemes : List Json → List Lexeme
  | [] => []
  | [v] => lexemes v
  | v :: w :: rest => lexemes v ++ .comma :: itemLexemes (w :: rest)

def memberLexemes : List (String × Json) → List Lexeme
  | [] => []
  | [(name, v)] => .text none (.ok name) :: .colon :: lexemes v
  | (name, v) :: m :: rest =>
    .text none (.ok name) :: .colon :: lexemes v ++ .comma :: memberLexemes (m :: rest)

end

theorem spells_items {items : List Json} (each : ∀ v ∈ items, Spells (print v) (lexemes v)) :
    Spells (printItems items) (itemLexemes items) := by
  induction items with
  | nil => exact .nil
  | cons v rest ih =>
    have first := each v (.head _)
    have later := ih fun w among => each w (.tail _ among)
    cases rest with
    | nil => exact first
    | cons w rest =>
      have both := (first.close ',' .comma (by simp [delimiters])).append_spells later
      simpa [printItems, itemLexemes] using both

theorem spells_members {members : List (String × Json)}
    (each : ∀ m ∈ members, Spells (print m.2) (lexemes m.2)) :
    Spells (printMembers members) (memberLexemes members) := by
  induction members with
  | nil => exact .nil
  | cons m rest ih =>
    obtain ⟨name, v⟩ := m
    have first := ((closes_text name).append closes_colon).append_spells (each (name, v) (.head _))
    have later := ih fun w among => each w (.tail _ among)
    cases rest with
    | nil => simpa [printMembers, memberLexemes] using first
    | cons w rest =>
      have both := (first.close ',' .comma (by simp [delimiters])).append_spells later
      simpa [printMembers, memberLexemes] using both

theorem spells_print {depth : Nat} {v : Json} (h : Legible depth v) :
    Spells (print v) (lexemes v) := by
  induction h with
  | null => exact closes_null.spells
  | bool _ b =>
    cases b with
    | true => exact closes_true.spells
    | false => exact closes_false.spells
  | number _ h => exact .of_numeral h
  | text _ s => exact (closes_text s).spells
  | @array _ items _ ih =>
    have closed := ((closes_openArray.append_spells (spells_items ih)).close ']' .closeArray
      (by simp [delimiters])).spells
    simpa [print, lexemes] using closed
  | @object _ members _ ih =>
    have closed := ((closes_openObject.append_spells (spells_members ih)).close '\x7d'
      .closeObject (by simp [delimiters])).spells
    simpa [print, lexemes] using closed

/-! ## Documents -/

theorem lexemes_head (v : Json) :
    ∃ l rest, lexemes v = l :: rest ∧ l ≠ .closeArray ∧ l ≠ .endOfText := by
  cases v <;> exact ⟨_, _, rfl, Lexeme.noConfusion, Lexeme.noConfusion⟩

theorem itemLexemes_head (v : Json) (items : List Json) :
    ∃ l rest, itemLexemes (v :: items) = l :: rest ∧ l ≠ .closeArray ∧ l ≠ .endOfText := by
  obtain ⟨l, rest, head, begins⟩ := lexemes_head v
  cases items with
  | nil => exact ⟨l, rest, head, begins⟩
  | cons w items =>
    exact ⟨l, rest ++ .comma :: itemLexemes (w :: items), by rw [itemLexemes, head]; rfl, begins⟩

namespace Doc

/-- What is read once the value `d` is complete. -/
def afterValue (d : Doc) (frames : List Frame) (rest : List Token) : Document :=
  match frames with
  | [] => ⟨d, trailing? rest⟩
  | frame :: outer => ofTokens (frame.add d :: outer) .next rest

section Tokens

variable {t : Token} {expected : Expected} {frames outer : List Frame}

theorem ofTokens_complete {d : Doc} (h : stepToken t expected frames = complete d outer)
    (rest : List Token) : ofTokens frames expected (t :: rest) = afterValue d outer rest := by
  rw [ofTokens, h]
  cases outer <;> rfl

theorem ofTokens_go {frames' : List Frame} {expected' : Expected}
    (h : stepToken t expected frames = .go frames' expected') (rest : List Token) :
    ofTokens frames expected (t :: rest) = ofTokens frames' expected' rest := by
  rw [ofTokens, h]

theorem ofTokens_atom {d : Doc} (value : ofLexeme t = some d) (rest : List Token) :
    ofTokens frames .value (t :: rest) = afterValue d frames rest := by
  refine ofTokens_complete ?_ rest
  obtain ⟨lexeme, place⟩ := t
  cases lexeme with
  | openArray => cases value
  | openObject => cases value
  | _ => simp only [stepToken, beginValue, value]

theorem ofTokens_item {v : Json} {items : List Json} {ts : List Token}
    (spelled : ts.map Token.lexeme = itemLexemes (v :: items)) (frame : Frame) (rest : List Token)
    (h : expected = .firstItem ∨ expected = .item) :
    ofTokens (frame :: outer) expected (ts ++ rest) =
      ofTokens (frame :: outer) .value (ts ++ rest) := by
  obtain ⟨l, ls, head, noEnd, noStop⟩ := itemLexemes_head v items
  obtain ⟨t, ts, rfl, begins, -⟩ := List.map_eq_cons_iff.mp (spelled.trans head)
  rw [← begins] at noEnd noStop
  have same : stepToken t expected (frame :: outer) = stepToken t .value (frame :: outer) := by
    rcases h with rfl | rfl
    · simp only [stepToken]
    · simp only [stepToken]
  rw [List.cons_append, ofTokens, same, ofTokens]

theorem stepToken_close (h : outer.length < depthLimit) (done : List Doc) (place : Position)
    (ends : t.lexeme = .closeArray) :
    stepToken t .next (.array done place :: outer) = complete (.array done.reverse none) outer := by
  have plain : ¬ depthLimit ≤ outer.length := by omega
  simp only [stepToken, ends, close, closeFrame, if_neg plain]

theorem stepToken_closeObject (h : outer.length < depthLimit)
    (done : List (Except ReadError String × Doc)) (place : Position)
    (ends : t.lexeme = .closeObject) :
    stepToken t .next (.object done none place :: outer) =
      complete (.object done.reverse none) outer := by
  have plain : ¬ depthLimit ≤ outer.length := by omega
  simp only [stepToken, ends, close, closeFrame, if_neg plain]

theorem ofTokens_name {colon : Token} {name : String} {done : List (Except ReadError String × Doc)}
    {place : Position} (named : t.lexeme = .text none (.ok name)) (follows : colon.lexeme = .colon)
    (h : expected = .firstName ∨ expected = .name) (rest : List Token) :
    ofTokens (.object done none place :: outer) expected (t :: colon :: rest) =
      ofTokens (.object done (some (.ok name)) place :: outer) .value rest := by
  have begun : stepToken t expected (.object done none place :: outer) =
      .go (.object done (some (.ok name)) place :: outer) .colon := by
    rcases h with rfl | rfl
    · simp only [stepToken, named, beginName]
    · simp only [stepToken, named, beginName]
  have onward : stepToken colon .colon (.object done (some (.ok name)) place :: outer) =
      .go (.object done (some (.ok name)) place :: outer) .value := by
    simp only [stepToken, follows]
  rw [ofTokens_go begun, ofTokens_go onward]

end Tokens

/-- From where a value may stand, the tokens of `v` are read as its document. -/
def Takes (depth : Nat) (v : Json) : Prop :=
  ∀ {frames : List Frame} {ts : List Token} (rest : List Token),
    frames.length + depth ≤ depthLimit → ts.map Token.lexeme = lexemes v →
      ofTokens frames .value (ts ++ rest) = afterValue (ofJson v) frames rest

section Containers

variable {depth : Nat} {outer : List Frame} {place : Position} {t : Token} {rest : List Token}

theorem ofTokens_items {v : Json} {items : List Json} (each : ∀ w ∈ v :: items, Takes depth w)
    (fits : outer.length + (depth + 1) ≤ depthLimit) (ends : t.lexeme = .closeArray)
    {ts : List Token} (spelled : ts.map Token.lexeme = itemLexemes (v :: items)) (done : List Doc) :
    ofTokens (.array done place :: outer) .value (ts ++ t :: rest) =
      afterValue (.array (done.reverse ++ ofItems (v :: items)) none) outer rest := by
  have room : (Frame.array done place :: outer).length + depth ≤ depthLimit := by
    simp only [List.length_cons]
    omega
  induction items generalizing v ts done with
  | nil =>
    rw [each v (.head _) (t :: rest) room spelled]
    refine ofTokens_complete ?_ rest
    rw [Frame.add, stepToken_close (by omega) _ place ends, List.reverse_cons, ofItems, ofItems]
  | cons w items ih =>
    obtain ⟨first, later, rfl, spelledFirst, spelledLater⟩ := List.map_eq_append_iff.mp spelled
    obtain ⟨comma, later, rfl, separates, spelledLater⟩ := List.map_eq_cons_iff.mp spelledLater
    have step : stepToken comma .next (.array (ofJson v :: done) place :: outer) =
        .go (.array (ofJson v :: done) place :: outer) .item := by
      simp only [stepToken, separates]
    have onward := ih (fun u among => each u (.tail _ among)) spelledLater (ofJson v :: done) room
    rw [List.append_assoc, List.cons_append, each v (.head _) _ room spelledFirst, afterValue,
      Frame.add, ofTokens_go step, ofTokens_item spelledLater _ _ (.inr rfl), onward,
      List.reverse_cons, List.append_assoc]
    rfl

theorem ofTokens_members {m : String × Json} {members : List (String × Json)}
    (each : ∀ w ∈ m :: members, Takes depth w.2)
    (fits : outer.length + (depth + 1) ≤ depthLimit) (ends : t.lexeme = .closeObject)
    {ts : List Token} (spelled : ts.map Token.lexeme = memberLexemes (m :: members))
    (done : List (Except ReadError String × Doc)) {expected : Expected}
    (h : expected = .firstName ∨ expected = .name) :
    ofTokens (.object done none place :: outer) expected (ts ++ t :: rest) =
      afterValue (.object (done.reverse ++ ofMembers (m :: members)) none) outer rest := by
  have room (name : String) :
      (Frame.object done (some (.ok name)) place :: outer).length + depth ≤ depthLimit := by
    simp only [List.length_cons]
    omega
  induction members generalizing m ts done expected with
  | nil =>
    obtain ⟨name, v⟩ := m
    obtain ⟨first, ts, rfl, named, spelled⟩ := List.map_eq_cons_iff.mp spelled
    obtain ⟨colon, ts, rfl, follows, spelled⟩ := List.map_eq_cons_iff.mp spelled
    rw [List.cons_append, List.cons_append, ofTokens_name named follows h,
      each (name, v) (.head _) (t :: rest) (room name) spelled]
    refine ofTokens_complete ?_ rest
    rw [Frame.add, stepToken_closeObject (by omega) _ place ends, List.reverse_cons, ofMembers,
      ofMembers]
  | cons w members ih =>
    obtain ⟨name, v⟩ := m
    obtain ⟨first, ts, rfl, named, spelled⟩ := List.map_eq_cons_iff.mp spelled
    obtain ⟨colon, ts, rfl, follows, spelled⟩ := List.map_eq_cons_iff.mp spelled
    obtain ⟨ts, later, rfl, spelledFirst, spelledLater⟩ := List.map_eq_append_iff.mp spelled
    obtain ⟨comma, later, rfl, separates, spelledLater⟩ := List.map_eq_cons_iff.mp spelledLater
    have step : stepToken comma .next (.object ((.ok name, ofJson v) :: done) none place :: outer) =
        .go (.object ((.ok name, ofJson v) :: done) none place :: outer) .name := by
      simp only [stepToken, separates]
    have onward := ih (fun u among => each u (.tail _ among)) spelledLater
      ((.ok name, ofJson v) :: done) (.inr rfl) room
    rw [List.cons_append, List.cons_append, ofTokens_name named follows h, List.append_assoc,
      List.cons_append, each (name, v) (.head _) _ (room name) spelledFirst, afterValue, Frame.add,
      ofTokens_go step, onward, List.reverse_cons, List.append_assoc]
    rfl

end Containers

theorem bracketed {ts : List Token} {opening closing : Lexeme} {inner : List Lexeme}
    (spelled : ts.map Token.lexeme = opening :: inner ++ [closing]) :
    ∃ (start : Token) (inside : List Token) (stop : Token), ts = start :: (inside ++ [stop]) ∧
      start.lexeme = opening ∧ inside.map Token.lexeme = inner ∧ stop.lexeme = closing := by
  obtain ⟨start, ts, rfl, begins, spelled⟩ := List.map_eq_cons_iff.mp spelled
  obtain ⟨inside, last, rfl, between, spelled⟩ := List.map_eq_append_iff.mp spelled
  obtain ⟨stop, last, rfl, ends, nothing⟩ := List.map_eq_cons_iff.mp spelled
  obtain rfl := List.map_eq_nil_iff.mp nothing
  exact ⟨start, inside, stop, rfl, begins, between, ends⟩

/-- The tokens of a legible value are read as its document, wherever it stands. -/
theorem ofTokens_value {depth : Nat} {v : Json} (h : Legible depth v) : Takes depth v := by
  induction h with
  | null | bool | number | text =>
    intro frames ts rest _ spelled
    obtain ⟨t, ts, rfl, only, nothing⟩ := List.map_eq_cons_iff.mp spelled
    obtain rfl := List.map_eq_nil_iff.mp nothing
    exact ofTokens_atom (by obtain ⟨lexeme, place⟩ := t; cases only; rfl) rest
  | @array _ items _ ih =>
    intro frames ts rest fits spelled
    -- A container takes one of the levels, so its items are read with one less.
    obtain ⟨start, ts, stop, rfl, begins, inside, ends⟩ := bracketed spelled
    have opens : stepToken start .value frames =
        .go (.array [] start.place :: frames) .firstItem := by
      simp only [stepToken, beginValue, begins]
    rw [List.cons_append, List.append_assoc, List.cons_append, List.nil_append, ofTokens_go opens]
    cases items with
    | nil =>
      obtain rfl := List.map_eq_nil_iff.mp inside
      refine ofTokens_complete ?_ rest
      have plain : ¬ depthLimit ≤ frames.length := by omega
      simp only [stepToken, ends, close, closeFrame, if_neg plain, List.reverse_nil, ofJson,
        ofItems]
    | cons v items =>
      rw [ofTokens_item inside _ _ (.inl rfl), ofTokens_items ih fits ends inside]
      rfl
  | @object _ members _ ih =>
    intro frames ts rest fits spelled
    obtain ⟨start, ts, stop, rfl, begins, inside, ends⟩ := bracketed spelled
    have opens : stepToken start .value frames =
        .go (.object [] none start.place :: frames) .firstName := by
      simp only [stepToken, beginValue, begins]
    rw [List.cons_append, List.append_assoc, List.cons_append, List.nil_append, ofTokens_go opens]
    cases members with
    | nil =>
      obtain rfl := List.map_eq_nil_iff.mp inside
      refine ofTokens_complete ?_ rest
      have plain : ¬ depthLimit ≤ frames.length := by omega
      simp only [stepToken, ends, close, closeFrame, if_neg plain, List.reverse_nil, ofJson,
        ofMembers]
    | cons m members =>
      rw [ofTokens_members ih fits ends inside _ (.inl rfl)]
      rfl

end Doc

/-- The text written for a legible value has the document of that value and nothing behind it. -/
theorem read_render {v : Json} (h : Legible Doc.depthLimit v) :
    Document.read (render v) = ⟨.ofJson v, none⟩ := by
  obtain ⟨ts, stands, spelled⟩ := spells_print h ⟨1, 0⟩ []
  have room : ([] : List Doc.Frame).length + Doc.depthLimit ≤ Doc.depthLimit := by decide
  have read (place : Position) := Doc.ofTokens_value h [⟨.endOfText, place⟩] room spelled
  rw [Document.read, render, String.toList_ofList, tokens, Lexer.start, stands.finish]
  exact read _

theorem ofText_render {α : Type} (decode : Decoder α) {v : Json} (h : Legible Doc.depthLimit v) :
    Decode.ofText decode (render v) = decode .text (.ofJson v) := by
  rw [Decode.ofText, read_render h]
  show (decode .text (.ofJson v)).bind
    (fun a => (Except.ok () : Except Error Unit).bind fun _ => .ok a) = _
  cases decode .text (.ofJson v) <;> rfl

end Ensemble.Json
