/-!
# Patterns of names

A star stands for any text, a question mark for one character, brackets for one of several. A
character that was quoted stands for itself.
-/

namespace Ensemble.Posix

structure Glyph where
  char : Char
  quoted : Bool
deriving DecidableEq

def Glyph.textOf (gs : List Glyph) : String := String.ofList (gs.map (·.char))

def glyphs (s : String) (quoted : Bool) : List Glyph := s.toList.map (⟨·, quoted⟩)

namespace Pattern

inductive Item where
  | char (c : Char)
  | anyChar
  | anyText
  /-- One in the ranges, or with `negated` one outside of them. -/
  | oneOf (negated : Bool) (ranges : List (Char × Char))
deriving DecidableEq

def isActive (c : Char) (g : Glyph) : Bool := g.char == c && !g.quoted

/-- The inside of brackets and what follows them. A bracket in first place stands for itself. -/
def closeBracket : List Glyph → Option (List Glyph × List Glyph)
  | [] => none
  | first :: rest =>
    let inside := rest.takeWhile (!isActive ']' ·)
    match rest.dropWhile (!isActive ']' ·) with
    | [] => none
    | _ :: after => some (first :: inside, after)

def ranges : List Glyph → List (Char × Char)
  | [] => []
  | a :: dash :: b :: rest =>
    if isActive '-' dash then (a.char, b.char) :: ranges rest
    else (a.char, a.char) :: ranges (dash :: b :: rest)
  | a :: rest => (a.char, a.char) :: ranges rest

def bracket (inside : List Glyph) : Item :=
  match inside with
  | g :: rest => if isActive '!' g then .oneOf true (ranges rest) else .oneOf false (ranges (g :: rest))
  | [] => .oneOf false []

theorem closeBracket_shorter {gs inside after : List Glyph} (h : closeBracket gs = some (inside, after)) :
    after.length < gs.length := by
  cases gs with
  | nil => simp [closeBracket] at h
  | cons first rest =>
    simp only [closeBracket] at h
    split at h
    · simp at h
    · rename_i heq
      have := (List.dropWhile_suffix (l := rest) (!isActive ']' ·)).length_le
      simp only [Option.some.injEq, Prod.mk.injEq] at h
      rw [heq] at this
      simp only [List.length_cons, ← h.2] at this ⊢
      omega

def ofGlyphs (gs : List Glyph) : List Item :=
  match gs with
  | [] => []
  | g :: rest =>
    if isActive '*' g then .anyText :: ofGlyphs rest
    else if isActive '?' g then .anyChar :: ofGlyphs rest
    else if isActive '[' g then
      match _closed : closeBracket rest with
      | some (inside, after) => bracket inside :: ofGlyphs after
      | none => .char g.char :: ofGlyphs rest
    else .char g.char :: ofGlyphs rest
termination_by gs.length
decreasing_by
  all_goals simp_wf
  have := closeBracket_shorter _closed
  omega

def Item.accepts (c : Char) : Item → Bool
  | .char d => c == d
  | .anyChar => true
  | .anyText => false
  | .oneOf negated rs => negated != rs.any fun r => r.1 ≤ c && c ≤ r.2

def accepts : List Item → List Char → Bool
  | [], cs => cs.isEmpty
  | .anyText :: p, [] => accepts p []
  | .anyText :: p, c :: cs => accepts p (c :: cs) || accepts (.anyText :: p) cs
  | _ :: _, [] => false
  | item :: p, c :: cs => item.accepts c && accepts p cs

/-- Says more than that a text is itself. -/
def isProper (p : List Item) : Bool :=
  p.any fun
    | .char _ => false
    | _ => true

/-- The text without its shortest or longest start of the form. -/
def dropStart (p : List Item) (longest : Bool) (cs : List Char) : List Char :=
  let cuts := (List.range (cs.length + 1)).filter fun n => accepts p (cs.take n)
  match if longest then cuts.getLast? else cuts.head? with
  | some n => cs.drop n
  | none => cs

/-- The text without its shortest or longest end of the form. -/
def dropEnd (p : List Item) (longest : Bool) (cs : List Char) : List Char :=
  let cuts := (List.range (cs.length + 1)).filter fun n => accepts p (cs.drop n)
  match if longest then cuts.head? else cuts.getLast? with
  | some n => cs.take n
  | none => cs

end Pattern

end Ensemble.Posix
