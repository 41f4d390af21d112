import Ensemble.Proofs.Json.Reading

/-!
# Reading at another place

Where a text stands decides nothing but the places in its tokens and errors. Without these the
lexer takes the same steps everywhere (`stepMode_bare`), so what is once read as whole tokens
without a flaw is read so wherever it stands (`closes_of_run`).
-/

namespace Ensemble.Json

def nowhere : Position := ⟨0, 0⟩

def ReadError.bare (e : ReadError) : ReadError := ⟨e.fault, nowhere⟩

namespace Lexeme

def bare : Lexeme → Lexeme
  | .text flaw body => .text (flaw.map ReadError.bare) (body.mapError ReadError.bare)
  | .malformed e => .malformed e.bare
  | l => l

def Sound : Lexeme → Prop
  | .text none (.ok _) => True
  | .text .. | .malformed _ => False
  | _ => True

theorem eq_of_bare_eq {l m : Lexeme} (sound : m.Sound) (h : l.bare = m.bare) : l = m := by
  cases m with
  | text flaw body =>
    cases flaw with
    | some e => exact False.elim sound
    | none =>
      cases body with
      | error e => exact False.elim sound
      | ok s =>
        cases l with
        | text flaw body => cases flaw <;> cases body <;> cases h; rfl
        | _ => cases h
  | malformed e => exact False.elim sound
  | _ => cases l <;> first | exact h | cases h

@[simp] theorem bare_bare (l : Lexeme) : l.bare.bare = l.bare := by
  cases l with
  | text flaw body => cases flaw <;> cases body <;> rfl
  | _ => rfl

end Lexeme

namespace TextState

def bare (s : TextState) : TextState := { s with flaw := s.flaw.map ReadError.bare }

@[simp] theorem bare_bare (s : TextState) : s.bare.bare = s.bare := by
  obtain ⟨read, flaw, leading⟩ := s
  cases flaw <;> rfl

theorem bare_mark (s : TextState) (fault : ReadFault) (place : Position) :
    (s.mark fault place).bare = s.bare.mark fault nowhere := by
  cases s with
  | mk read flaw leading => cases flaw <;> rfl

theorem bare_settle (s : TextState) (place : Position) :
    (s.settle place).bare = s.bare.settle nowhere := by
  unfold settle
  split
  · rename_i waits
    rw [if_pos (show s.bare.leading.isSome = true from waits), bare_mark]
  · rename_i free
    rw [if_neg (show ¬ s.bare.leading.isSome = true from free)]

theorem bare_pushUnit (s : TextState) (unit : Nat) (place : Position) :
    (s.pushUnit unit place).bare = s.bare.pushUnit unit nowhere := by
  obtain ⟨read, flaw, leading⟩ := s
  cases leading <;> simp only [pushUnit, apply_ite TextState.bare, bare_mark] <;> rfl

end TextState

def Mode.bare : Mode → Mode
  | .between => .between
  | .word rest lexeme _ => .word rest lexeme.bare nowhere
  | .number phase t _ => .number phase t nowhere
  | .text s _ => .text s.bare nowhere
  | .escape s _ => .escape s.bare nowhere
  | .hex digits bytes s _ => .hex digits bytes s.bare nowhere

def bareResult (r : Mode × List Token) : Mode × List Lexeme :=
  (r.1.bare, r.2.map (·.lexeme.bare))

theorem bare_beginToken (c : Char) (place : Position) :
    bareResult (beginToken c place) = bareResult (beginToken c nowhere) := by
  simp only [beginToken, apply_ite bareResult]
  rfl

theorem bare_endNumber (phase : NumberPhase) (t : NumberText) (start fault : Position)
    (atEnd : Bool) : (endNumber phase t start fault atEnd).lexeme.bare =
      (endNumber phase t nowhere nowhere atEnd).lexeme.bare := by
  cases phase <;> rfl

theorem bareResult_cons (t : Token) (r : Mode × List Token) :
    bareResult (r.1, t :: r.2) = ((bareResult r).1, t.lexeme.bare :: (bareResult r).2) := rfl

theorem bareResult_text (s : TextState) (body : Except ReadError String) (start : Position) :
    bareResult (.between, [textToken s.bare (body.mapError ReadError.bare) nowhere]) =
      bareResult (.between, [textToken s body start]) := by
  obtain ⟨read, flaw, leading⟩ := s
  cases flaw <;> cases body <;> rfl

theorem bareResult_mode (mode : Mode) : bareResult (mode.bare, []) = bareResult (mode, []) := by
  cases mode <;> simp [bareResult, Mode.bare]

/-- A step takes what is there without places. -/
theorem stepMode_bare (mode : Mode) (c : Char) (place : Position) :
    bareResult (stepMode mode c place) = bareResult (stepMode mode.bare c nowhere) := by
  cases mode with
  | between => exact bare_beginToken c place
  | word rest lexeme start =>
    cases rest with
    | nil =>
      simp only [stepMode, Mode.bare]
      rw [bareResult_cons, bareResult_cons, bare_beginToken, Lexeme.bare_bare]
    | cons w rest =>
      have whole : bareResult (.between, [⟨lexeme.bare, nowhere⟩]) =
          bareResult (.between, [⟨lexeme, start⟩]) := by simp [bareResult]
      have more := bareResult_mode (.word rest lexeme start)
      cases rest <;> simp only [stepMode, Mode.bare, apply_ite bareResult] at more ⊢
      · rw [whole]
        rfl
      · rw [more]
        rfl
  | number phase t start =>
    simp only [stepMode, Mode.bare]
    cases stepNumber phase t c with
    | more phase t => rfl
    | malformed => rfl
    | ends =>
      dsimp only
      rw [bareResult_cons, bareResult_cons, bare_beginToken, bare_endNumber,
        bare_endNumber phase t nowhere]
  | text s start =>
    -- Only settling puts a place into the state, so it is left to compare the settled states.
    simp only [stepMode, Mode.bare, apply_ite bareResult, ← TextState.bare_settle s place]
    generalize s.settle place = u
    have escapes := bareResult_mode (.escape s start)
    have closed := bareResult_text u (.ok (String.ofList u.read.reverse)) start
    have control := bareResult_text u (.error ⟨.controlCharacter, place⟩) start
    have more := bareResult_mode (.text (u.push c) start)
    simp only [Mode.bare] at escapes more
    rw [escapes, ← closed, ← control, ← more]
    rfl
  | escape s start =>
    simp only [stepMode, Mode.bare, apply_ite bareResult, ← TextState.bare_settle s place]
    generalize s.settle place = u
    cases simpleEscape? c with
    | some d =>
      have unit := bareResult_mode (.hex [] 0 s start)
      have more := bareResult_mode (.text (u.push d) start)
      simp only [Mode.bare] at unit more
      rw [unit, ← more]
      rfl
    | none =>
      have unit := bareResult_mode (.hex [] 0 s start)
      have invalid := bareResult_text u (.error ⟨.invalidEscape, place⟩) start
      simp only [Mode.bare] at unit
      rw [unit]
      dsimp only
      rw [← invalid]
      rfl
  | hex digits bytes s start =>
    simp only [stepMode, Mode.bare, apply_ite bareResult]
    have more := bareResult_mode (.hex (digits ++ [c]) (bytes + c.utf8Size) s start)
    simp only [Mode.bare] at more
    rw [more]
    cases Text.hexNumber? (digits ++ [c]) with
    | some unit =>
      have read := bareResult_mode (.text (s.pushUnit unit place) start)
      simp only [Mode.bare, TextState.bare_pushUnit] at read
      dsimp only
      rw [read]
    | none =>
      dsimp only
      rw [← bareResult_text s (.error ⟨.invalidEscape, place⟩) start]
      rfl

/-! ## Whole texts -/

def Lexer.bare (l : Lexer) : Mode × List Lexeme := (l.mode.bare, l.read.map (·.lexeme.bare))

def bareStep (state : Mode × List Lexeme) (c : Char) : Mode × List Lexeme :=
  let (mode, lexemes) := bareResult (stepMode state.1 c nowhere)
  (mode, lexemes.reverse ++ state.2)

theorem Lexer.bare_step (l : Lexer) (c : Char) : (l.step c).bare = bareStep l.bare c := by
  have same := stepMode_bare l.mode c (l.place.of c)
  simp only [bareStep, Lexer.bare, ← same]
  simp [Lexer.step, bareResult]

theorem Lexer.bare_foldl (l : Lexer) (cs : List Char) :
    (cs.foldl Lexer.step l).bare = cs.foldl bareStep l.bare := by
  induction cs generalizing l with
  | nil => rfl
  | cons c cs ih => rw [List.foldl_cons, ih, Lexer.bare_step, List.foldl_cons]

theorem foldl_bareStep (mode : Mode) (read : List Lexeme) (cs : List Char) :
    cs.foldl bareStep (mode, read) =
      ((cs.foldl bareStep (mode, [])).1, (cs.foldl bareStep (mode, [])).2 ++ read) := by
  induction cs generalizing mode read with
  | nil => rfl
  | cons c cs ih =>
    simp only [List.foldl_cons, bareStep]
    rw [ih, ih _ (_ ++ [])]
    simp

theorem Lexer.exists_read (l : Lexer) (cs : List Char) :
    ∃ new : List Token, (cs.foldl Lexer.step l).read = new.reverse ++ l.read := by
  induction cs generalizing l with
  | nil => exact ⟨[], rfl⟩
  | cons c cs ih =>
    obtain ⟨new, read⟩ := ih (l.step c)
    refine ⟨(stepMode l.mode c (l.place.of c)).2 ++ new, ?_⟩
    rw [List.foldl_cons, read, Lexer.step, List.reverse_append, List.append_assoc]

theorem Mode.eq_between {mode : Mode} (h : mode.bare = .between) : mode = .between := by
  cases mode <;> first | rfl | cases h

theorem lexemes_eq {ts us : List Token} (sound : ∀ t ∈ ts, t.lexeme.Sound)
    (h : us.map (·.lexeme.bare) = ts.map (·.lexeme.bare)) :
    us.map Token.lexeme = ts.map Token.lexeme := by
  induction ts generalizing us with
  | nil => rw [List.map_eq_nil_iff.mp h]
  | cons t ts ih =>
    obtain ⟨u, us, rfl, first, rest⟩ := List.map_eq_cons_iff.mp h
    obtain ⟨soundFirst, soundRest⟩ := List.forall_mem_cons.mp sound
    rw [List.map_cons, List.map_cons, ih soundRest rest, Lexeme.eq_of_bare_eq soundFirst first]

/-- What is read once as whole tokens without a flaw is read so anywhere. -/
theorem closes_of_run {cs : List Char} {before after : Position} {ts : List Token}
    (run : cs.foldl Lexer.step ⟨.between, before, []⟩ = ⟨.between, after, ts.reverse⟩)
    (sound : ∀ t ∈ ts, t.lexeme.Sound) : Closes cs (ts.map Token.lexeme) := by
  intro place read
  have here := Lexer.bare_foldl ⟨.between, before, []⟩ cs
  have there := Lexer.bare_foldl ⟨.between, place, read⟩ cs
  obtain ⟨new, shown⟩ := Lexer.exists_read ⟨.between, place, read⟩ cs
  rw [run] at here
  -- The two runs agree without places, and lexemes without a flaw have none to lose.
  have same : (cs.foldl Lexer.step ⟨.between, place, read⟩).bare =
      (.between, ts.reverse.map (·.lexeme.bare) ++ read.map (·.lexeme.bare)) := by
    rw [there]
    show cs.foldl bareStep (.between, _) = _
    rw [foldl_bareStep]
    exact congrArg (fun r => (r.1, r.2 ++ read.map (·.lexeme.bare))) here.symm
  generalize cs.foldl Lexer.step ⟨.between, place, read⟩ = l at shown same ⊢
  obtain ⟨mode, place', read'⟩ := l
  obtain rfl : read' = new.reverse ++ read := shown
  obtain ⟨between, lexemes⟩ := Prod.mk.inj same
  rw [List.map_append, List.append_left_inj, List.map_reverse, List.map_reverse,
    List.reverse_inj] at lexemes
  obtain rfl : mode = .between := Mode.eq_between between
  exact ⟨place', new, rfl, lexemes_eq sound lexemes⟩

end Ensemble.Json
