import Ensemble.Proofs.Json.Places
import Ensemble.Proofs.Json.Texts
import Mathlib.Data.List.Induction

/-!
# Where the brackets of a list stand

The first token of a text is an opening bracket only if its first character that is no blank is
one, and the last before its end a closing bracket only if the last such character is one
(`Framed`). So a text that is read as a list of texts is the list itself between blanks, and the
list is read on its own (`framed_of_texts`).
-/

namespace Ensemble.Json

def Blank (cs : List Char) : Prop := ∀ c ∈ cs, isJsonBlank c = true

def Lexeme.Inner : Lexeme → Prop
  | .openArray | .closeArray | .endOfText => False
  | _ => True

def Mode.Inside : Mode → Prop
  | .between => False
  | .word _ lexeme _ => lexeme.Inner
  | _ => True

inductive Begun (c : Char) (place : Position) : Mode × List Token → Prop
  | blank : isJsonBlank c = true → Begun c place (.between, [])
  | whole {l : Lexeme} : l ≠ .endOfText → (l = .openArray → c = '[') → (l = .closeArray → c = ']') →
      Begun c place (.between, [⟨l, place⟩])
  | inside {mode : Mode} : mode.Inside → Begun c place (mode, [])

theorem begun_beginToken (c : Char) (place : Position) : Begun c place (beginToken c place) := by
  unfold beginToken
  refine iteInduction .blank fun _ => ?_
  refine iteInduction (fun opens => .whole nofun (fun _ => opens) nofun) fun _ => ?_
  refine iteInduction (fun closes => .whole nofun nofun fun _ => closes) fun _ => ?_
  refine iteInduction (fun _ => .whole nofun nofun nofun) fun _ => ?_
  refine iteInduction (fun _ => .whole nofun nofun nofun) fun _ => ?_
  refine iteInduction (fun _ => .whole nofun nofun nofun) fun _ => ?_
  refine iteInduction (fun _ => .whole nofun nofun nofun) fun _ => ?_
  refine iteInduction (fun _ => .inside trivial) fun _ => ?_
  refine iteInduction (fun _ => .inside trivial) fun _ => ?_
  refine iteInduction (fun _ => .inside trivial) fun _ => ?_
  refine iteInduction (fun _ => .inside trivial) fun _ => ?_
  refine iteInduction (fun _ => .inside trivial) fun _ => ?_
  refine iteInduction (fun _ => .inside trivial) fun _ => ?_
  exact iteInduction (fun _ => .inside trivial) fun _ => .whole nofun nofun nofun

/-- What a character inside a token can lead to: the token goes on, ends, or has ended before. -/
inductive Continued (c : Char) (place : Position) : Mode × List Token → Prop
  | stays {mode : Mode} : mode.Inside → Continued c place (mode, [])
  | ends {t : Token} : t.lexeme.Inner → Continued c place (.between, [t])
  | ended {t : Token} : t.lexeme.Inner →
      Continued c place ((beginToken c place).1, t :: (beginToken c place).2)

theorem continued_stepMode {mode : Mode} (h : mode.Inside) (c : Char) (place : Position) :
    Continued c place (stepMode mode c place) := by
  cases mode with
  | between => exact False.elim h
  | word rest lexeme start =>
    cases rest with
    | nil => exact .ended h
    | cons w rest =>
      have wrong : Continued c place
          (.between, [⟨.malformed ⟨.expectedLiteral, place⟩, start⟩]) := .ends trivial
      cases rest with
      | nil => exact iteInduction (fun _ => .ends h) fun _ => wrong
      | cons _ _ => exact iteInduction (fun _ => .stays h) fun _ => wrong
  | number phase t start =>
    simp only [stepMode]
    split
    · exact .stays trivial
    · exact .ends trivial
    · refine .ended ?_
      cases phase <;> trivial
  | text s start =>
    simp only [stepMode]
    split
    · exact .stays trivial
    split
    · exact .ends trivial
    split
    · exact .ends trivial
    · exact .stays trivial
  | escape s start =>
    simp only [stepMode]
    split
    · exact .stays trivial
    split
    · exact .stays trivial
    · exact .ends trivial
  | hex digits bytes s start =>
    simp only [stepMode]
    split
    · exact .stays trivial
    split
    · exact .stays trivial
    · exact .ends trivial

theorem finishMode_inside {mode : Mode} (h : mode.Inside) (place : Position) :
    ∃ t : Token, t.lexeme.Inner ∧ finishMode mode place = [t, ⟨.endOfText, place⟩] := by
  cases mode with
  | between => exact False.elim h
  | word rest lexeme start =>
    cases rest with
    | nil => exact ⟨⟨lexeme, start⟩, h, rfl⟩
    | cons w rest => exact ⟨⟨.malformed ⟨.endInValue, place⟩, start⟩, trivial, rfl⟩
  | number phase t start =>
    refine ⟨endNumber phase t start place true, ?_, rfl⟩
    cases phase <;> trivial
  | text s start | escape s start | hex _ _ s start =>
    exact ⟨textToken s (.error ⟨.endInText, place⟩) start, trivial, rfl⟩

/-! ## Texts part way through -/

def lexed (cs : List Char) : Lexer := cs.foldl Lexer.step Lexer.start

theorem lexed_snoc (cs : List Char) (c : Char) : lexed (cs ++ [c]) = (lexed cs).step c :=
  List.foldl_append

/-- What the tokens of a text say about where its brackets stand. -/
structure Framed (cs : List Char) (l : Lexer) : Prop where
  mode : l.mode = .between ∨ l.mode.Inside
  goesOn : ∀ t ∈ l.read, t.lexeme ≠ .endOfText
  blank : l.mode = .between → l.read = [] → Blank cs
  opens : ∀ t ts, l.read = ts ++ [t] → t.lexeme = .openArray →
    ∃ before rest, Blank before ∧ cs = before ++ '[' :: rest
  closes : l.mode = .between → ∀ t ts, l.read = t :: ts → t.lexeme = .closeArray →
    ∃ inner after place, Blank after ∧ cs = inner ++ ']' :: after ∧
      lexed (inner ++ [']']) = ⟨.between, place, l.read⟩

namespace Framed

variable {cs : List Char} {place : Position} {read : List Token}

theorem start : Framed [] Lexer.start := by
  have nothing : Lexer.start.read = [] := rfl
  constructor
  · exact .inl rfl
  · rw [nothing]
    exact List.forall_mem_nil _
  · intro _ _ c mem
    exact absurd mem List.not_mem_nil
  · intro t ts read _
    exact absurd (nothing.symm.trans read).symm (List.append_ne_nil_of_right_ne_nil ts nofun)
  · intro _ t ts read _
    exact absurd (nothing.symm.trans read).symm (List.cons_ne_nil t ts)

theorem blank_snoc {c : Char} (blank : Blank cs) (h : isJsonBlank c = true) :
    Blank (cs ++ [c]) := by
  intro d mem
  obtain mem | mem := List.mem_append.mp mem
  · exact blank d mem
  · rwa [List.mem_singleton.mp mem]

theorem opens_append {l : Lexer} (h : Framed cs l) (more : List Char) (t : Token) (ts : List Token)
    (split : l.read = ts ++ [t]) (opens : t.lexeme = .openArray) :
    ∃ before rest, Blank before ∧ cs ++ more = before ++ '[' :: rest := by
  obtain ⟨before, rest, blank, same⟩ := h.opens t ts split opens
  exact ⟨before, rest ++ more, blank, by rw [same, List.append_assoc]; rfl⟩

theorem step_between (h : Framed cs ⟨.between, place, read⟩) (c : Char)
    (next : lexed (cs ++ [c]) = Lexer.step ⟨.between, place, read⟩ c) :
    Framed (cs ++ [c]) (Lexer.step ⟨.between, place, read⟩ c) := by
  have step : Lexer.step ⟨.between, place, read⟩ c =
      ⟨(beginToken c (place.of c)).1, place.past c,
        (beginToken c (place.of c)).2.reverse ++ read⟩ := rfl
  have begun := begun_beginToken c (place.of c)
  generalize beginToken c (place.of c) = result at begun step
  rw [step] at next ⊢
  cases begun with
  | blank isBlank =>
    refine ⟨.inl rfl, h.goesOn, fun _ none => blank_snoc (h.blank rfl none) isBlank,
      h.opens_append [c], ?_⟩
    intro _ t ts split closed
    obtain ⟨inner, after, place', blank, same, run⟩ := h.closes rfl t ts split closed
    exact ⟨inner, after ++ [c], place', blank_snoc blank isBlank,
      by rw [same, List.append_assoc]; rfl, run⟩
  | @whole l goesOn opens closes =>
    refine ⟨.inl rfl, List.forall_mem_cons.mpr ⟨goesOn, h.goesOn⟩, fun _ => nofun, ?_, ?_⟩
    · intro t ts split open'
      obtain ⟨rfl, first⟩ | ⟨later, rfl, older⟩ := List.cons_eq_append_iff.mp split
      · obtain ⟨rfl, none⟩ := List.cons.inj first
        rw [opens open']
        exact ⟨cs, [], h.blank rfl none.symm, rfl⟩
      · exact h.opens_append [c] t later older open'
    · intro _ t ts split closed
      obtain ⟨rfl, -⟩ := List.cons.inj split
      rw [closes closed] at next ⊢
      exact ⟨cs, [], _, nofun, rfl, next⟩
  | @inside mode inside =>
    have moved : mode ≠ .between := by
      rintro rfl
      exact inside
    exact ⟨.inr inside, h.goesOn, fun between => absurd between moved, h.opens_append [c],
      fun between => absurd between moved⟩

theorem push_inner {l : Lexer} (h : Framed cs l) {t : Token} (inner : t.lexeme.Inner)
    (more : List Char) (place : Position) : Framed (cs ++ more) ⟨.between, place, t :: l.read⟩ := by
  have ends : t.lexeme ≠ .endOfText := fun same => by simp [same, Lexeme.Inner] at inner
  refine ⟨.inl rfl, List.forall_mem_cons.mpr ⟨ends, h.goesOn⟩, fun _ => nofun, ?_, ?_⟩
  · intro u us split opens
    obtain ⟨rfl, first⟩ | ⟨later, rfl, older⟩ := List.cons_eq_append_iff.mp split
    · obtain ⟨rfl, -⟩ := List.cons.inj first
      simp [opens, Lexeme.Inner] at inner
    · exact h.opens_append more u later older opens
  · intro _ u us split closes
    obtain ⟨rfl, -⟩ := List.cons.inj split
    simp [closes, Lexeme.Inner] at inner

theorem step {l : Lexer} (h : Framed cs l) (here : lexed cs = l) (c : Char) :
    Framed (cs ++ [c]) (l.step c) := by
  have next : lexed (cs ++ [c]) = l.step c := by rw [lexed_snoc, here]
  obtain ⟨mode, place, read⟩ := l
  obtain rfl | inside : mode = .between ∨ mode.Inside := h.mode
  · exact h.step_between c next
  · have step : Lexer.step ⟨mode, place, read⟩ c =
        ⟨(stepMode mode c (place.of c)).1, place.past c,
          (stepMode mode c (place.of c)).2.reverse ++ read⟩ := rfl
    have continued := continued_stepMode inside c (place.of c)
    generalize stepMode mode c (place.of c) = result at continued step
    rw [step] at next ⊢
    cases continued with
    | @stays mode' inside =>
      have moved : mode' ≠ .between := by
        rintro rfl
        exact inside
      exact ⟨.inr inside, h.goesOn, fun between => absurd between moved, h.opens_append [c],
        fun between => absurd between moved⟩
    | ends inner => exact h.push_inner inner [c] (place.past c)
    | @ended t inner =>
      -- The character behind a number or a word is read again, between tokens.
      have behind := h.push_inner inner [] place
      rw [List.append_nil] at behind
      have both : Lexer.step ⟨.between, place, t :: read⟩ c =
          ⟨(beginToken c (place.of c)).1, place.past c,
            (t :: (beginToken c (place.of c)).2).reverse ++ read⟩ := by
        rw [List.reverse_cons, List.append_assoc]
        rfl
      rw [← both] at next ⊢
      exact behind.step_between c next

theorem of_lexed (cs : List Char) : Framed cs (lexed cs) := by
  induction cs using List.reverseRecOn with
  | nil => exact start
  | append_singleton cs c ih =>
    rw [lexed_snoc]
    exact ih.step rfl c

end Framed

/-! ## Lists of texts -/

theorem foldl_blank {cs : List Char} (blank : Blank cs) (place : Position) (read : List Token) :
    ∃ place', cs.foldl Lexer.step ⟨.between, place, read⟩ = ⟨.between, place', read⟩ := by
  induction cs generalizing place with
  | nil => exact ⟨place, rfl⟩
  | cons c cs ih =>
    obtain ⟨first, rest⟩ := List.forall_mem_cons.mp blank
    have stays : Lexer.step ⟨.between, place, read⟩ c = ⟨.between, place.past c, read⟩ := by
      have begins : beginToken c (place.of c) = (.between, []) := if_pos first
      rw [Lexer.step, stepMode, begins]
      rfl
    rw [List.foldl_cons, stays]
    exact ih rest (place.past c)

theorem lexemes_texts_sound (l : List String) :
    ∀ m ∈ lexemes (.texts l), m.Sound ∧ m ≠ .endOfText := by
  have text (s : String) :
      Lexeme.Sound (.text none (.ok s)) ∧ Lexeme.text none (.ok s) ≠ .endOfText := ⟨trivial, nofun⟩
  have comma : Lexeme.comma.Sound ∧ Lexeme.comma ≠ .endOfText := ⟨trivial, nofun⟩
  have items (l : List String) : ∀ m ∈ itemLexemes (l.map .text), m.Sound ∧ m ≠ .endOfText := by
    induction l with
    | nil => exact List.forall_mem_nil _
    | cons s l ih =>
      cases l with
      | nil => exact List.forall_mem_singleton.mpr (text s)
      | cons next l => exact List.forall_mem_cons.mpr ⟨text s, List.forall_mem_cons.mpr ⟨comma, ih⟩⟩
  intro m mem
  obtain mem | mem := List.mem_append.mp mem
  · obtain rfl | mem := List.mem_cons.mp mem
    · exact ⟨trivial, nofun⟩
    · exact items l m mem
  · rw [List.mem_singleton.mp mem]
    exact ⟨trivial, nofun⟩

/-- Tokens that end once end at their end. -/
theorem eq_of_ends {ts first rest : List Token} {stop : Token} (ends : stop.lexeme = .endOfText)
    (goesOn : ∀ t ∈ ts, t.lexeme ≠ .endOfText) (unended : ∀ t ∈ first, t.lexeme ≠ .endOfText)
    (split : ts ++ [stop] = first ++ rest) (trailing : Doc.trailing? rest = none) : first = ts := by
  obtain ⟨more, rfl, same⟩ | ⟨more, rfl, rfl⟩ := List.append_eq_append_iff.mp split
  · cases more with
    | nil => exact List.append_nil ts
    | cons t more =>
      obtain ⟨rfl, -⟩ := List.cons.inj same
      exact absurd ends (unended stop (List.mem_append_right _ List.mem_cons_self))
  · cases more with
    | nil => exact (List.append_nil first).symm
    | cons t more =>
      obtain ⟨lexeme, place⟩ := t
      have stops : lexeme = .endOfText := by
        cases lexeme <;> first | rfl | cases trailing
      exact absurd stops (goesOn _ (List.mem_append_right _ List.mem_cons_self))

/-- The tokens of a list of texts are all that is read, and nothing is open behind them. -/
theorem lexed_of_texts {cs : List Char} {l : List String} {first rest : List Token}
    (split : tokens cs = first ++ rest) (spelled : first.map Token.lexeme = lexemes (.texts l))
    (trailing : Doc.trailing? rest = none) :
    (lexed cs).mode = .between ∧ (lexed cs).read = first.reverse := by
  have framed := Framed.of_lexed cs
  have unended : ∀ t ∈ first, t.lexeme ≠ .endOfText := fun t mem =>
    (lexemes_texts_sound l t.lexeme (spelled ▸ List.mem_map_of_mem mem)).2
  have all : (lexed cs).read.reverse ++ finishMode (lexed cs).mode (lexed cs).place =
      first ++ rest := split
  have goesOn : ∀ t ∈ (lexed cs).read.reverse, t.lexeme ≠ .endOfText := fun t mem =>
    framed.goesOn t (List.mem_reverse.mp mem)
  obtain between | inside := framed.mode
  · rw [between] at all
    have same := eq_of_ends rfl goesOn unended all trailing
    exact ⟨between, by rw [same, List.reverse_reverse]⟩
  · obtain ⟨t, inner, finish⟩ := finishMode_inside inside (lexed cs).place
    have unlast : t.lexeme ≠ .endOfText := fun same => by simp [same, Lexeme.Inner] at inner
    have goesOn : ∀ u ∈ (lexed cs).read.reverse ++ [t], u.lexeme ≠ .endOfText := by
      intro u mem
      obtain mem | mem := List.mem_append.mp mem
      · exact goesOn u mem
      · rwa [List.mem_singleton.mp mem]
    rw [finish, List.append_cons] at all
    have same := eq_of_ends rfl goesOn unended all trailing
    rw [same, List.map_append] at spelled
    have last : [t.lexeme] = [.closeArray] := (List.append_inj' spelled rfl).2
    rw [List.singleton_inj.mp last] at inner
    exact False.elim inner

/-- A text that is read as a list of texts is a list between blanks, and the list is read as whole
tokens wherever it stands. -/
theorem framed_of_texts {s : String} {l : List String}
    (h : Decode.ofText (Decode.list Decode.text) s = .ok l) :
    ∃ before inner after, Blank before ∧ Blank after ∧
      s.toList = before ++ ('[' :: inner ++ [']']) ++ after ∧
      Closes ('[' :: inner ++ [']']) (lexemes (.texts l)) := by
  obtain ⟨first, rest, split, spelled, trailing⟩ := (ofText_texts_iff s l).mp h
  obtain ⟨between, read⟩ := lexed_of_texts split spelled trailing
  obtain ⟨t, mid, rfl, open', spelledMid⟩ := List.map_eq_cons_iff.mp spelled
  obtain ⟨items, last, rfl, -, spelledLast⟩ := List.map_eq_append_iff.mp spelledMid
  obtain ⟨u, none, rfl, close, nothing⟩ := List.map_eq_cons_iff.mp spelledLast
  obtain rfl := List.map_eq_nil_iff.mp nothing
  have headed : (lexed s.toList).read = u :: (items.reverse ++ [t]) := by rw [read]; simp
  obtain ⟨front, after, place, blankAfter, whole, run⟩ :=
    (Framed.of_lexed s.toList).closes between u _ headed close
  obtain ⟨before, body, blankBefore, same⟩ :=
    (Framed.of_lexed (front ++ [']'])).opens t (u :: items.reverse) (by rw [run]; exact headed)
      open'
  -- The last closing bracket stands behind the first opening one, so it ends the body.
  obtain rfl | ⟨inner, last, rfl⟩ := body.eq_nil_or_concat
  · exact absurd (List.append_inj' same rfl).2 (by decide)
  · rw [List.concat_eq_append, ← List.cons_append, ← List.append_assoc] at same
    obtain ⟨rfl, ends⟩ := List.append_inj' same rfl
    refine ⟨before, inner, after, blankBefore, blankAfter, by rw [whole]; simp, ?_⟩
    -- The blanks before the list only move its place.
    obtain ⟨start, blank⟩ := foldl_blank blankBefore ⟨1, 0⟩ []
    rw [read, List.append_assoc, lexed, Lexer.start, List.foldl_append, blank] at run
    rw [← spelled]
    refine closes_of_run run fun t mem => ?_
    exact (lexemes_texts_sound l t.lexeme (spelled ▸ List.mem_map_of_mem mem)).1

theorem ofText_of_closes {cs : List Char} {l : List String}
    (h : Closes cs (lexemes (.texts l))) :
    Decode.ofText (Decode.list Decode.text) (String.ofList cs) = .ok l := by
  obtain ⟨ts, stands, spelled⟩ := h.spells ⟨1, 0⟩ []
  have split := stands.finish
  rw [← String.toList_ofList (l := cs)] at split
  exact (ofText_texts_iff _ l).mpr ⟨ts, _, split, spelled, rfl⟩

end Ensemble.Json
