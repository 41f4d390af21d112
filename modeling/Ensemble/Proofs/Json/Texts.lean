import Ensemble.Proofs.Json.Bounds
import Ensemble.Proofs.Json.Reading

/-!
# Lists of texts

A text is read as a list of texts only if it has the lexemes of that list, and whatever has these
lexemes is read as it (`ofText_texts_iff`). A reader that has met anything else can no longer come
to such a list (`Spoilt`).
-/

namespace Ensemble.Json

namespace Doc

def texts (l : List String) : Doc := .array (l.map .text) none

theorem ofJson_texts (l : List String) : ofJson (.texts l) = texts l := by
  have same : ofItems (l.map .text) = l.map .text := by
    induction l with
    | nil => rfl
    | cons s l ih => rw [List.map_cons, ofItems, ih, ofJson, List.map_cons]
  rw [Json.texts, ofJson, same, texts]

theorem text_eq_ok_iff (d : Doc) (s : String) : Decode.text .text d = .ok s ↔ d = .text s := by
  cases d with
  | text s' =>
    exact ⟨fun h => congrArg Doc.text (Except.ok.inj h), fun h => congrArg _ (Doc.text.inj h)⟩
  | _ => exact ⟨nofun, nofun⟩

theorem items_text_iff (ds : List Doc) (tail : Option ReadError) (l : List String) :
    Decode.items (Decode.text .text) tail ds = .ok l ↔ ds = l.map .text ∧ tail = none := by
  constructor
  · intro h
    induction ds generalizing l with
    | nil =>
      cases tail with
      | some e => cases h
      | none =>
        cases h
        exact ⟨rfl, rfl⟩
    | cons d ds ih =>
      obtain ⟨s, first, h⟩ := bind_eq_ok h
      obtain ⟨l, rest, h⟩ := bind_eq_ok h
      cases h
      obtain ⟨rfl, same⟩ := ih l rest
      rw [(text_eq_ok_iff d s).mp first]
      exact ⟨rfl, same⟩
  · rintro ⟨rfl, rfl⟩
    induction l with
    | nil => rfl
    | cons s l ih =>
      rw [List.map_cons, Decode.items, ih]
      rfl

theorem list_text_iff (d : Doc) (l : List String) :
    Decode.list Decode.text .text d = .ok l ↔ d = texts l := by
  cases d with
  | array ds tail =>
    rw [Decode.list, items_text_iff, texts, Doc.array.injEq]
  | _ => exact ⟨nofun, nofun⟩

/-! ## Readers that have met something else -/

inductive Moves (frames : List Frame) : Step → Prop
  | stops (e : ReadError) : Moves frames (.stop e)
  | opens (frame : Frame) (expected : Expected) : Moves frames (.go (frame :: frames) expected)
  | stays (expected : Expected) : Moves frames (.go frames expected)
  | named {members name old place outer} (h : frames = .object members old place :: outer) :
      Moves frames (.go (.object members (some name) place :: outer) .colon)
  | value (d : Doc) : Moves frames (complete d frames)
  | closes {frame outer} (h : frames = frame :: outer) : Moves frames (close frame outer)

theorem moves_beginValue (t : Token) (frames : List Frame) :
    Moves frames (beginValue t frames) := by
  unfold beginValue
  split
  · exact .opens _ _
  · exact .opens _ _
  · split
    · exact .value _
    · exact .stops _

theorem moves_beginName (t : Token) (frame : Frame) (outer : List Frame) (atEnd : ReadFault) :
    Moves (frame :: outer) (beginName t frame outer atEnd) := by
  unfold beginName
  split
  · exact .named rfl
  · exact .stops _
  · exact .stops _
  · exact .stops _

theorem moves_stepToken (t : Token) (expected : Expected) (frames : List Frame) :
    Moves frames (stepToken t expected frames) := by
  unfold stepToken
  split
  · exact moves_beginValue t _
  · split
    · exact .closes rfl
    · exact .stops _
    · exact moves_beginValue t _
  · split
    · exact .stops _
    · exact moves_beginValue t _
  · split
    · exact .closes rfl
    · exact moves_beginName t _ _ _
  · split
    · exact .stops _
    · exact moves_beginName t _ _ _
  · split
    · exact .stays _
    · exact .stops _
    · exact .stops _
  · split
    · exact .closes rfl
    · exact .stays _
    · exact .stops _
    · exact .stops _
  · split
    · exact .closes rfl
    · exact .stays _
    · exact .stops _
    · exact .stops _
  · exact moves_beginValue t _

/-- Whatever follows, the value read is no list of texts. -/
def Spoilt : List Frame → Prop
  | [] => False
  | _ :: _ :: _ => True
  | [.array items _] => ∃ d ∈ items, ∀ s, d ≠ .text s
  | [.object ..] => True

theorem closeFrame_ne_text (tail : Option ReadError) (outer : Nat) (frame : Frame) (s : String) :
    closeFrame tail outer frame ≠ .text s := by
  cases frame <;> (rw [closeFrame]; split <;> exact Doc.noConfusion)

theorem spoilt_add {d : Doc} (h : ∀ s, d ≠ .text s) (frame : Frame) (outer : List Frame) :
    Spoilt (frame.add d :: outer) := by
  cases outer with
  | cons _ _ => trivial
  | nil =>
    cases frame with
    | array items place => exact ⟨d, List.mem_cons_self, h⟩
    | object members name place => cases name <;> trivial

theorem Spoilt.add {frame : Frame} {outer : List Frame} (h : Spoilt (frame :: outer)) (d : Doc) :
    Spoilt (frame.add d :: outer) := by
  cases outer with
  | cons _ _ => trivial
  | nil =>
    cases frame with
    | array items place =>
      obtain ⟨bad, among, no⟩ := h
      exact ⟨bad, List.mem_cons_of_mem _ among, no⟩
    | object members name place => cases name <;> trivial

theorem spoilt_opens {frames : List Frame} (h : frames ≠ []) (frame : Frame) :
    Spoilt (frame :: frames) := by
  cases frames with
  | nil => exact absurd rfl h
  | cons _ _ => trivial

theorem closeFrame_ne_texts {frame : Frame} (h : Spoilt [frame]) (l : List String) :
    closeFrame none 0 frame ≠ texts l := by
  intro same
  cases frame with
  | object members name place => cases same
  | array items place =>
    obtain ⟨bad, among, no⟩ := h
    have items_eq : items.reverse = l.map .text := (Doc.array.inj same).1
    obtain ⟨s, -, text⟩ := List.mem_map.mp (items_eq ▸ List.mem_reverse.mpr among)
    exact no s text.symm

theorem closeFrame_cut_ne_texts (e : ReadError) (outer : Nat) (frame : Frame) (l : List String) :
    closeFrame (some e) outer frame ≠ texts l := by
  intro same
  cases frame with
  | object members name place =>
    rw [closeFrame] at same
    split at same <;> cases same
  | array items place =>
    rw [closeFrame] at same
    split at same
    · cases same
    · obtain ⟨-, cut⟩ := Doc.array.inj same
      cases cut

theorem cutShort_ne_texts (e : ReadError) (frame : Frame) (outer : List Frame) (inner : Option Doc)
    (l : List String) : cutShort e (frame :: outer) inner ≠ texts l := by
  induction outer generalizing frame inner with
  | nil =>
    unfold cutShort
    exact closeFrame_cut_ne_texts e 0 _ l
  | cons next outer ih =>
    unfold cutShort
    exact ih next _

theorem Spoilt.ne_nil {frames : List Frame} (h : Spoilt frames) : frames ≠ [] := by
  rintro rfl
  exact h

theorem Spoilt.cutShort_ne {frames : List Frame} (h : Spoilt frames) (e : ReadError)
    (l : List String) : cutShort e frames none ≠ texts l := by
  cases frames with
  | nil => exact False.elim h
  | cons frame outer => exact cutShort_ne_texts e frame outer none l

theorem Spoilt.root_ne {frames : List Frame} (h : Spoilt frames) (expected : Expected)
    (ts : List Token) (l : List String) : (ofTokens frames expected ts).root ≠ texts l := by
  induction ts generalizing frames expected with
  | nil => exact h.cutShort_ne _ l
  | cons t ts ih =>
    rw [ofTokens]
    -- Frames stay spoilt with every move, so only the end of the reading is left to look at.
    have moves := moves_stepToken t expected frames
    generalize stepToken t expected frames = step at moves
    cases moves with
    | stops e => exact h.cutShort_ne e l
    | opens frame expected => exact ih (spoilt_opens h.ne_nil frame) expected
    | stays expected => exact ih h expected
    | @named members name old place outer same =>
      subst same
      refine ih ?_ .colon
      cases outer <;> trivial
    | value d =>
      cases frames with
      | nil => exact False.elim h
      | cons frame outer => exact ih (h.add d) .next
    | @closes frame outer same =>
      subst same
      cases outer with
      | nil => exact closeFrame_ne_texts h l
      | cons next outer => exact ih (spoilt_add (closeFrame_ne_text _ _ frame) next outer) .next

/-! ## Readers of a list of texts -/

/-- The lexemes of what is left of a list of texts, its end included. -/
inductive Rests : Expected → List String → List Lexeme → Prop
  | empty : Rests .firstItem [] [.closeArray]
  | first {more ls} (s : String) : Rests .next more ls →
      Rests .firstItem (s :: more) (.text none (.ok s) :: ls)
  | item {more ls} (s : String) : Rests .next more ls →
      Rests .item (s :: more) (.text none (.ok s) :: ls)
  | comma {more ls} : Rests .item more ls → Rests .next more (.comma :: ls)
  | close : Rests .next [] [.closeArray]

theorem lexeme_of_text {t : Token} {s : String} (h : ofLexeme t = some (.text s)) :
    t.lexeme = .text none (.ok s) := by
  obtain ⟨lexeme, place⟩ := t
  cases lexeme with
  | text flaw body =>
    cases flaw <;> cases body <;> cases h
    rfl
  | number n => cases n <;> cases h
  | _ => cases h

theorem beginValue_of_none {t : Token} (h : ofLexeme t = none) (frames : List Frame) :
    (∃ frame expected, beginValue t frames = .go (frame :: frames) expected ∧
        (t.lexeme = .openArray ∧ frame = .array [] t.place ∧ expected = .firstItem ∨
          ∃ name, frame = .object [] name t.place)) ∨
      ∃ e, beginValue t frames = .stop e := by
  unfold beginValue
  split
  · rename_i begins
    exact .inl ⟨_, _, rfl, .inl ⟨begins, rfl, rfl⟩⟩
  · exact .inl ⟨_, _, rfl, .inr ⟨none, rfl⟩⟩
  · rw [h]
    exact .inr ⟨_, rfl⟩

section

variable {t : Token} {ts : List Token} {l : List String}

theorem text_of_value {frame : Frame} (h : (ofTokens [frame] .value (t :: ts)).root = texts l) :
    ∃ s, t.lexeme = .text none (.ok s) ∧
      ofTokens [frame] .value (t :: ts) = ofTokens [frame.add (.text s)] .next ts := by
  cases value : ofLexeme t with
  | some d =>
    rw [ofTokens_atom value] at h
    have isText : ∃ s, d = .text s := by
      apply Classical.byContradiction
      intro other
      have spoilt := spoilt_add (fun s same => other ⟨s, same⟩) frame []
      exact spoilt.root_ne .next ts l h
    obtain ⟨s, rfl⟩ := isText
    exact ⟨s, lexeme_of_text value, ofTokens_atom value ts⟩
  | none =>
    rw [ofTokens] at h
    have moves := beginValue_of_none value [frame]
    obtain ⟨new, expected, step, -⟩ | ⟨e, step⟩ := moves
    · rw [stepToken, step] at h
      exact absurd h (Spoilt.root_ne (spoilt_opens (List.cons_ne_nil _ _) new) expected ts l)
    · rw [stepToken, step] at h
      exact absurd h (cutShort_ne_texts e _ [] none l)

theorem opens_of_value (h : (ofTokens [] .value (t :: ts)).root = texts l) :
    t.lexeme = .openArray ∧
      ofTokens [] .value (t :: ts) = ofTokens [.array [] t.place] .firstItem ts := by
  cases value : ofLexeme t with
  | some d =>
    rw [ofTokens_atom value] at h
    obtain rfl : d = texts l := h
    obtain ⟨lexeme, place⟩ := t
    cases lexeme with
    | text flaw body => cases flaw <;> cases body <;> cases value
    | number n => cases n <;> cases value
    | _ => cases value
  | none =>
    rw [ofTokens] at h
    obtain ⟨new, expected, step, ⟨begins, rfl, rfl⟩ | ⟨name, rfl⟩⟩ | ⟨e, step⟩ :=
      beginValue_of_none value []
    · have onward : stepToken t .value [] = .go [.array [] t.place] .firstItem := step
      exact ⟨begins, ofTokens_go onward ts⟩
    · rw [stepToken, step] at h
      have spoilt : Spoilt [.object [] name t.place] := trivial
      exact absurd h (spoilt.root_ne expected ts l)
    · rw [stepToken, step] at h
      cases h

end

def listFrame (done : List String) (place : Position) : Frame :=
  .array (done.map .text).reverse place

theorem close_listFrame (done : List String) (place : Position) :
    close (listFrame done place) [] = .done (texts done) := by
  rw [listFrame, close, closeFrame, if_neg (by decide), List.reverse_reverse]
  rfl

theorem add_listFrame (done : List String) (place : Position) (s : String) :
    (listFrame done place).add (.text s) = listFrame (done ++ [s]) place := by
  simp [listFrame, Frame.add]

theorem text_of_item {t : Token} {ts : List Token} {l done : List String} {place : Position}
    {expected : Expected} (plain : t.lexeme ≠ .closeArray)
    (h : (ofTokens [listFrame done place] expected (t :: ts)).root = texts l)
    (item : expected = .firstItem ∨ expected = .item) :
    ∃ s, t.lexeme = .text none (.ok s) ∧ ofTokens [listFrame done place] expected (t :: ts) =
      ofTokens [listFrame (done ++ [s]) place] .next ts := by
  have step : stepToken t expected [listFrame done place] = beginValue t [listFrame done place] ∨
      ∃ e, stepToken t expected [listFrame done place] = .stop e := by
    obtain rfl | rfl := item
    · rw [stepToken]
      split
      · contradiction
      · exact .inr ⟨_, rfl⟩
      · exact .inl rfl
    · rw [stepToken]
      split
      · contradiction
      · exact .inl rfl
  obtain same | ⟨e, stops⟩ := step
  · have reads : ofTokens [listFrame done place] expected (t :: ts) =
        ofTokens [listFrame done place] .value (t :: ts) := by
      rw [ofTokens, same, ofTokens, stepToken]
    rw [reads] at h ⊢
    obtain ⟨s, text, onward⟩ := text_of_value h
    exact ⟨s, text, by rw [onward, add_listFrame]⟩
  · rw [ofTokens, stops] at h
    exact absurd h (cutShort_ne_texts e (listFrame done place) [] none l)

theorem stepToken_next (t : Token) (done : List String) (place : Position) :
    (t.lexeme = .closeArray ∧
        stepToken t .next [listFrame done place] = close (listFrame done place) []) ∨
      (t.lexeme = .comma ∧
        stepToken t .next [listFrame done place] = .go [listFrame done place] .item) ∨
      ∃ e, stepToken t .next [listFrame done place] = .stop e := by
  unfold listFrame
  simp only [stepToken]
  split
  · exact .inl ⟨‹_›, rfl⟩
  · exact .inr (.inl ⟨‹_›, rfl⟩)
  · exact .inr (.inr ⟨_, rfl⟩)
  · exact .inr (.inr ⟨_, rfl⟩)

/-- What is read as a list of texts has the lexemes of what is left of it, and then the text
ends. -/
theorem rests_of_read {ts : List Token} {l : List String} {expected : Expected}
    {done : List String} {place : Position}
    (h : ofTokens [listFrame done place] expected ts = ⟨texts l, none⟩)
    (inside : expected = .firstItem ∧ done = [] ∨ expected = .item ∨ expected = .next) :
    ∃ more ls first rest, l = done ++ more ∧ Rests expected more ls ∧ ts = first ++ rest ∧
      first.map Token.lexeme = ls ∧ trailing? rest = none := by
  induction ts generalizing expected done with
  | nil =>
    exact absurd (congrArg Document.root h) (cutShort_ne_texts _ (listFrame done place) [] none l)
  | cons t ts ih =>
    have stops (e : ReadError) (step : stepToken t expected [listFrame done place] = .stop e) :
        False := by
      rw [ofTokens, step] at h
      exact cutShort_ne_texts e (listFrame done place) [] none l (congrArg Document.root h)
    have ends
        (step : stepToken t expected [listFrame done place] = close (listFrame done place) []) :
        l = done ∧ trailing? ts = none := by
      rw [ofTokens, step, close_listFrame] at h
      obtain ⟨root, trailing⟩ := Document.mk.inj h
      have same : done.map Doc.text = l.map Doc.text := (Doc.array.inj root).1
      exact ⟨(List.map_inj_right fun _ _ => Doc.text.inj).mp same.symm, trailing⟩
    have goes (item : expected = .firstItem ∨ expected = .item) (plain : t.lexeme ≠ .closeArray) :
        ∃ s more ls first rest, l = done ++ s :: more ∧ Rests .next more ls ∧
          t :: ts = (t :: first) ++ rest ∧ (t :: first).map Token.lexeme = .text none (.ok s) :: ls ∧
          trailing? rest = none := by
      obtain ⟨s, text, onward⟩ := text_of_item plain (congrArg Document.root h) item
      rw [onward] at h
      obtain ⟨more, ls, first, rest, rfl, rests, rfl, spelled, trailing⟩ := ih h (.inr (.inr rfl))
      exact ⟨s, more, ls, first, rest, List.append_assoc .., rests, rfl,
        by rw [List.map_cons, text, spelled], trailing⟩
    -- The list was just opened, or a comma stands before the token, or an item.
    obtain ⟨rfl, rfl⟩ | rfl | rfl := inside
    · by_cases closes : t.lexeme = .closeArray
      · obtain ⟨rfl, trailing⟩ := ends (by simp only [stepToken, closes])
        exact ⟨[], _, [t], ts, rfl, .empty, rfl, by rw [List.map_singleton, closes], trailing⟩
      · obtain ⟨s, more, ls, first, rest, same, rests, split, spelled, trailing⟩ :=
          goes (.inl rfl) closes
        exact ⟨s :: more, _, _, rest, same, .first s rests, split, spelled, trailing⟩
    · by_cases closes : t.lexeme = .closeArray
      · exact False.elim (stops ⟨.trailingComma, t.place⟩ (by simp only [stepToken, closes]))
      · obtain ⟨s, more, ls, first, rest, same, rests, split, spelled, trailing⟩ :=
          goes (.inr rfl) closes
        exact ⟨s :: more, _, _, rest, same, .item s rests, split, spelled, trailing⟩
    · obtain ⟨closes, step⟩ | ⟨comma, step⟩ | ⟨e, step⟩ := stepToken_next t done place
      · obtain ⟨rfl, trailing⟩ := ends step
        exact ⟨[], _, [t], ts, (List.append_nil l).symm, .close, rfl,
          by rw [List.map_singleton, closes], trailing⟩
      · rw [ofTokens_go step] at h
        obtain ⟨more, ls, first, rest, rfl, rests, rfl, spelled, trailing⟩ := ih h (.inr (.inl rfl))
        exact ⟨more, _, t :: first, rest, rfl, .comma rests, rfl,
          by rw [List.map_cons, comma, spelled], trailing⟩
      · exact False.elim (stops e step)

theorem rests_next_spelled {more : List String} {ls : List Lexeme} (h : Rests .next more ls)
    (s : String) : .text none (.ok s) :: ls =
      itemLexemes ((s :: more).map .text) ++ [.closeArray] := by
  induction more generalizing s ls with
  | nil =>
    cases h with
    | comma h => cases h
    | close => rfl
  | cons next more ih =>
    cases h with
    | comma h =>
      cases h with
      | item _ h =>
        rw [ih h next]
        rfl

theorem rests_spelled {l : List String} {ls : List Lexeme} (h : Rests .firstItem l ls) :
    .openArray :: ls = lexemes (.texts l) := by
  cases h with
  | empty => rfl
  | first s h =>
    rw [rests_next_spelled h s]
    rfl

end Doc

theorem legible_texts (l : List String) : Legible Doc.depthLimit (.texts l) := by
  have flat : Legible 1 (.texts l) := by
    refine .array fun v among => ?_
    obtain ⟨s, -, rfl⟩ := List.mem_map.mp among
    exact .text 0 s
  exact flat.mono (by decide)

/-- Tokens are read as a list of texts if they have its lexemes and the text ends behind them. -/
theorem ofTokens_texts_iff (ts : List Token) (l : List String) :
    Doc.ofTokens [] .value ts = ⟨.texts l, none⟩ ↔
      ∃ first rest, ts = first ++ rest ∧ first.map Token.lexeme = lexemes (.texts l) ∧
        Doc.trailing? rest = none := by
  constructor
  · intro h
    cases ts with
    | nil => cases h
    | cons t ts =>
      obtain ⟨begins, onward⟩ := Doc.opens_of_value (congrArg Document.root h)
      have listed : Doc.ofTokens [Doc.listFrame [] t.place] .firstItem ts = ⟨.texts l, none⟩ :=
        onward ▸ h
      obtain ⟨more, ls, first, rest, rfl, rests, rfl, spelled, trailing⟩ :=
        Doc.rests_of_read listed (.inl ⟨rfl, rfl⟩)
      refine ⟨t :: first, rest, rfl, ?_, trailing⟩
      rw [List.map_cons, begins, spelled, Doc.rests_spelled rests]
  · rintro ⟨first, rest, rfl, spelled, trailing⟩
    rw [Doc.ofTokens_value (legible_texts l) rest (by decide) spelled, Doc.ofJson_texts,
      Doc.afterValue, trailing]

/-- A text is read as a list of texts if it has the lexemes of the list and ends behind them. -/
theorem ofText_texts_iff (s : String) (l : List String) :
    Decode.ofText (Decode.list Decode.text) s = .ok l ↔
      ∃ first rest, tokens s.toList = first ++ rest ∧
        first.map Token.lexeme = lexemes (.texts l) ∧ Doc.trailing? rest = none := by
  rw [← ofTokens_texts_iff]
  constructor
  · intro h
    obtain ⟨l, read, h⟩ := bind_eq_ok h
    obtain ⟨_, ended, h⟩ := bind_eq_ok h
    cases h
    have root := (Doc.list_text_iff _ _).mp read
    cases trailing : (Document.read s).trailing with
    | some e =>
      rw [trailing] at ended
      cases ended
    | none => rw [← root, ← trailing]; rfl
  · intro h
    have read : Document.read s = ⟨.texts l, none⟩ := h
    rw [Decode.ofText, read]
    show (Decode.list Decode.text .text (.texts l)).bind _ = _
    rw [(Doc.list_text_iff _ _).mpr rfl]
    rfl

end Ensemble.Json
