import Ensemble.Proofs.Json.Brackets
import Ensemble.Proofs.Suggestions
import Ensemble.Proofs.Text.Utf8

/-!
# Suggestions in prose

A list of texts may stand between other text, as long as no opening bracket stands before it and
no closing one behind it. What is cut out from the first opening bracket to the last closing one
is the list, whatever brackets its texts have (`candidate_of_texts`), so its texts are what is
suggested. The cut may as well be made between bytes: no character is ever cut (`cut?_encode`).
-/

namespace Ensemble.Suggestions

/-- What stands from the first opening bracket to the last closing one, or all there is when no
closing bracket follows an opening one. -/
inductive Outermost : List Char → List Char → Prop
  | between {front after : List Char} (inner : List Char) : '[' ∉ front → ']' ∉ after →
      Outermost (front ++ '[' :: (inner ++ ']' :: after)) ('[' :: inner ++ [']'])
  | whole {front after : List Char} : '[' ∉ front → ']' ∉ after →
      Outermost (front ++ after) (front ++ after)

theorem exists_last {c : Char} {cs : List Char} (h : c ∈ cs) :
    ∃ front after, cs = front ++ c :: after ∧ c ∉ after := by
  obtain ⟨after, front, split, last⟩ := List.eq_append_cons_of_mem (List.mem_reverse.mpr h)
  refine ⟨front.reverse, after.reverse, ?_, fun mem => last (List.mem_reverse.mp mem)⟩
  rw [← List.reverse_reverse cs, split]
  simp

theorem exists_outermost (cs : List Char) : ∃ cut, Outermost cs cut := by
  by_cases opens : '[' ∈ cs
  · obtain ⟨front, rest, rfl, first⟩ := List.eq_append_cons_of_mem opens
    by_cases closes : ']' ∈ rest
    · obtain ⟨inner, after, rfl, last⟩ := exists_last closes
      exact ⟨_, .between inner first last⟩
    · refine ⟨_, .whole first fun mem => ?_⟩
      obtain same | mem := List.mem_cons.mp mem
      · exact absurd same (by decide)
      · exact closes mem
  · have whole : Outermost (cs ++ []) (cs ++ []) := .whole opens List.not_mem_nil
    rw [List.append_nil] at whole
    exact ⟨cs, whole⟩

/-! ## Between characters -/

theorem takeWhile_ne_append {c : Char} {front : List Char} (h : c ∉ front) (rest : List Char) :
    (front ++ rest).takeWhile (· ≠ c) = front ++ rest.takeWhile (· ≠ c) := by
  refine List.takeWhile_append_of_pos fun d mem => ?_
  have other : d ≠ c := fun same => h (same ▸ mem)
  exact decide_eq_true other

theorem takeWhile_ne_cons {c : Char} {front : List Char} (h : c ∉ front) (rest : List Char) :
    (front ++ c :: rest).takeWhile (· ≠ c) = front := by
  rw [takeWhile_ne_append h, List.takeWhile_cons_of_neg (by simp), List.append_nil]

theorem candidate_eq {cs cut : List Char} (h : Outermost cs cut) : candidate cs = cut := by
  cases h with
  | @between front after inner opens closes =>
    have turned : (front ++ '[' :: (inner ++ ']' :: after)).reverse =
        after.reverse ++ ']' :: (inner.reverse ++ '[' :: front.reverse) := by simp
    have start := takeWhile_ne_cons opens (inner ++ ']' :: after)
    have stop := takeWhile_ne_cons (mt List.mem_reverse.mp closes)
      (inner.reverse ++ '[' :: front.reverse)
    have inside : front.length + after.reverse.length + 1 <
        (front ++ '[' :: (inner ++ ']' :: after)).length := by
      simp only [List.length_append, List.length_cons, List.length_reverse]
      omega
    have length : (front ++ '[' :: (inner ++ ']' :: after)).length - front.length -
        after.reverse.length = ('[' :: inner ++ [']']).length := by
      simp only [List.length_append, List.length_cons, List.length_reverse, List.length_nil]
      omega
    have split : '[' :: (inner ++ ']' :: after) = ('[' :: inner ++ [']']) ++ after := by simp
    unfold candidate
    dsimp only
    rw [turned, start, stop, if_pos inside, length, List.drop_left, split, List.take_left]
  | @whole front after opens closes =>
    have turned : (front ++ after).reverse = after.reverse ++ front.reverse := List.reverse_append
    have start := takeWhile_ne_append opens after
    have stop := takeWhile_ne_append (mt List.mem_reverse.mp closes) front.reverse
    unfold candidate
    dsimp only
    rw [turned, start, stop, if_neg]
    simp only [List.length_append, List.length_reverse]
    omega

/-! ## Between bytes -/

def lastIdxOf? (b : UInt8) (bytes : List UInt8) : Option Nat :=
  (bytes.reverse.idxOf? b).map (bytes.length - 1 - ·)

/-- The same cut made between bytes, from the first opening bracket to the last closing one. It
fails if it would cut a character. -/
def cut? (bytes : List UInt8) : Option (List UInt8) :=
  match bytes.idxOf? 0x5B, lastIdxOf? 0x5D bytes with
  | some start, some stop =>
    if start < stop then Text.Utf8.slice? bytes start (stop + 1) else some bytes
  | _, _ => some bytes

theorem idxOf?_append {b : UInt8} {front : List UInt8} (h : b ∉ front) (rest : List UInt8) :
    (front ++ rest).idxOf? b = (rest.idxOf? b).map (· + front.length) := by
  have none : front.findIdx? (· == b) = none := List.idxOf?_eq_none_iff.mpr h
  rw [List.idxOf?, List.findIdx?_append, none, Option.none_or]

theorem lastIdxOf?_append {b : UInt8} {after : List UInt8} (h : b ∉ after) (front : List UInt8) :
    lastIdxOf? b (front ++ b :: after) = some front.length := by
  have turned : (front ++ b :: after).reverse = after.reverse ++ b :: front.reverse := by simp
  rw [lastIdxOf?, turned, idxOf?_append (mt List.mem_reverse.mp h), List.idxOf?_cons,
    if_pos (beq_self_eq_true b)]
  simp only [Option.map_some, List.length_append, List.length_cons, List.length_reverse]
  congr 1
  omega

theorem lastIdxOf?_lt {b : UInt8} {front after : List UInt8} {stop : Nat} (h : b ∉ after)
    (last : lastIdxOf? b (front ++ after) = some stop) : stop < front.length := by
  rw [lastIdxOf?, List.reverse_append, idxOf?_append (mt List.mem_reverse.mp h)] at last
  obtain ⟨_, inside, rfl⟩ := Option.map_eq_some_iff.mp last
  obtain ⟨k, first, rfl⟩ := Option.map_eq_some_iff.mp inside
  obtain ⟨small, -⟩ := List.idxOf?_eq_some_iff.mp first
  rw [List.length_reverse] at small
  rw [List.length_append, List.length_reverse]
  omega

open Text.Utf8

/-- The cut between bytes is the cut between characters. -/
theorem cut?_bytesOf {cs cut : List Char} (h : Outermost cs cut) :
    cut? (bytesOf cs) = some (bytesOf cut) := by
  have unopened {cs : List Char} (h : '[' ∉ cs) : 0x5B ∉ bytesOf cs :=
    fun mem => h (mem_of_mem_bytesOf mem (by decide))
  have unclosed {cs : List Char} (h : ']' ∉ cs) : 0x5D ∉ bytesOf cs :=
    fun mem => h (mem_of_mem_bytesOf mem (by decide))
  cases h with
  | @between front after inner opens closes =>
    have opening (cs : List Char) : bytesOf ('[' :: cs) = 0x5B :: bytesOf cs := rfl
    have closing (cs : List Char) : bytesOf (']' :: cs) = 0x5D :: bytesOf cs := rfl
    have start : (bytesOf (front ++ '[' :: (inner ++ ']' :: after))).idxOf? 0x5B =
        some (bytesOf front).length := by
      rw [bytesOf_append, opening, idxOf?_append (unopened opens), List.idxOf?_cons,
        if_pos (by decide), Option.map_some, Nat.zero_add]
    have stop : lastIdxOf? 0x5D (bytesOf (front ++ '[' :: (inner ++ ']' :: after))) =
        some (bytesOf (front ++ '[' :: inner)).length := by
      rw [← List.cons_append, ← List.append_assoc, bytesOf_append, closing]
      exact lastIdxOf?_append (unclosed closes) _
    have ordered : (bytesOf front).length < (bytesOf (front ++ '[' :: inner)).length := by
      rw [bytesOf_append, opening, List.length_append, List.length_cons]
      omega
    have behind : (bytesOf (front ++ '[' :: inner)).length + 1 =
        (bytesOf (front ++ ('[' :: inner ++ [']']))).length := by
      rw [← List.append_assoc, bytesOf_append (front ++ '[' :: inner), List.length_append]
      rfl
    have split : front ++ '[' :: (inner ++ ']' :: after) =
        front ++ ('[' :: inner ++ [']']) ++ after := by simp
    unfold cut?
    rw [start, stop]
    dsimp only
    rw [if_pos ordered, behind, split, slice?_bytesOf]
  | @whole front after opens closes =>
    rw [bytesOf_append]
    unfold cut?
    split
    · -- All closing brackets stand before the first opening one.
      rename_i start stop first last
      rw [idxOf?_append (unopened opens)] at first
      obtain ⟨k, -, rfl⟩ := Option.map_eq_some_iff.mp first
      have before := lastIdxOf?_lt (unclosed closes) last
      rw [if_neg (by omega)]
    · rfl

theorem cut?_encode (response : String) :
    cut? (encode response) = some (encode (String.ofList (candidate response.toList))) := by
  obtain ⟨cut, outermost⟩ := exists_outermost response.toList
  rw [encode_eq, encode_eq, cut?_bytesOf outermost, candidate_eq outermost, String.toList_ofList]

/-! ## Lists of texts in prose -/

theorem not_mem_of_blank {cs : List Char} (blank : Json.Blank cs) {c : Char}
    (h : Json.isJsonBlank c = false) : c ∉ cs := fun mem => by
  rw [blank c mem] at h
  cases h

/-- What stands around a list of texts is cut away, the blanks it is read with included. -/
theorem candidate_of_texts {j : String} {l : List String}
    (decodes : Json.Decode.ofText (Json.Decode.list Json.Decode.text) j = .ok l)
    {p q : String} (opens : '[' ∉ p.toList) (closes : ']' ∉ q.toList) :
    Json.Decode.ofText (Json.Decode.list Json.Decode.text)
      (String.ofList (candidate (p ++ j ++ q).toList)) = .ok l := by
  obtain ⟨before, inner, after, blankBefore, blankAfter, whole, list⟩ :=
    Json.framed_of_texts decodes
  have split : (p ++ j ++ q).toList =
      (p.toList ++ before) ++ '[' :: (inner ++ ']' :: (after ++ q.toList)) := by
    rw [String.toList_append, String.toList_append, whole]
    simp
  have first : '[' ∉ p.toList ++ before := fun mem =>
    (List.mem_append.mp mem).elim opens (not_mem_of_blank blankBefore (by decide))
  have last : ']' ∉ after ++ q.toList := fun mem =>
    (List.mem_append.mp mem).elim (not_mem_of_blank blankAfter (by decide)) closes
  rw [split, candidate_eq (.between inner first last)]
  exact Json.ofText_of_closes list

/-- The texts of a list are recovered wherever it stands: what goes before it must only have no
opening bracket, and what follows it no closing one. Whatever the response is, at most so many
texts are suggested, none of them blank, and the cut out of its bytes is one out of its
characters. -/
theorem parse_in_prose :
    (∀ j l, Json.Decode.ofText (Json.Decode.list Json.Decode.text) j = .ok l →
      ∀ p q : String, '[' ∉ p.toList → ']' ∉ q.toList → ∀ max,
        parse (p ++ j ++ q) max = (l.filter fun text => !Text.isBlankText text).take max) ∧
      ∀ response max, (parse response max).length ≤ max ∧
        (∀ text ∈ parse response max, Text.isBlankText text = false) ∧
        cut? (encode response) = some (encode (String.ofList (candidate response.toList))) := by
  constructor
  · intro j l decodes p q opens closes max
    rw [parse, candidate_of_texts decodes opens closes]
  · intro response max
    exact ⟨parse_length response max, parse_not_blank response max, cut?_encode response⟩

/-- Brackets in the texts, behind the first opening one and before the last closing one do not
matter. -/
theorem parse_in_prose_bracketed :
    Json.Decode.ofText (Json.Decode.list Json.Decode.text) " [\"a]\", \" \", \"[b\", \"c\"] " =
        .ok ["a]", " ", "[b", "c"] ∧
      parse "Maybe] \n [\"a]\", \" \", \"[b\", \"c\"] [or" 2 = ["a]", "[b"] := by
  have decodes : Json.Decode.ofText (Json.Decode.list Json.Decode.text)
      " [\"a]\", \" \", \"[b\", \"c\"] " = .ok ["a]", " ", "[b", "c"] := by rfl
  exact ⟨decodes, parse_in_prose.1 _ _ decodes "Maybe] \n" "[or" (by decide) (by decide) 2⟩

end Ensemble.Suggestions
