import Mathlib.Data.List.Basic
import Ensemble.Text.Utf8

/-!
# Facts about UTF-8

Encoding keeps the order of texts: they compare as their bytes do (`encode_lt_iff`). A byte below
128 stands for the character of that number and nothing else (`mem_utf8EncodeChar`), and bytes can
be cut wherever characters meet (`slice?_bytesOf`).
-/

namespace Ensemble.Text.Utf8

def bytesOf (cs : List Char) : List UInt8 := cs.flatMap String.utf8EncodeChar

theorem encode_eq (s : String) : encode s = bytesOf s.toList := by
  unfold encode String.toUTF8 bytesOf
  rw [← String.utf8Encode_toList, List.utf8Encode, List.data_toByteArray, List.toList_toArray]

theorem bytesOf_append (cs ds : List Char) : bytesOf (cs ++ ds) = bytesOf cs ++ bytesOf ds :=
  List.flatMap_append

/-! ## Order -/

/-- The encodings of two characters differ at a byte both have, and there the smaller character has
the smaller byte. So what follows them does not matter. -/
theorem utf8EncodeChar_lt {c d : Char} (h : c < d) (xs ys : List UInt8) :
    String.utf8EncodeChar c ++ xs < String.utf8EncodeChar d ++ ys := by
  have less : c.val.toNat < d.val.toNat := h
  have top : d.val.toNat < 0x110000 := by
    have := d.valid
    simp only [UInt32.isValidChar, Nat.isValidChar] at this
    omega
  simp only [String.utf8EncodeChar]
  generalize c.val.toNat = m at less
  generalize d.val.toNat = n at less top
  split_ifs
  all_goals
    simp (disch := omega) only [List.cons_append, List.nil_append, List.cons_lt_cons_iff,
      UInt8.lt_iff_toNat_lt, ← UInt8.toNat_inj, UInt8.toNat_ofNat', Nat.reducePow,
      Nat.mod_eq_of_lt]
    omega

theorem bytesOf_lt {cs ds : List Char} (h : cs < ds) : bytesOf cs < bytesOf ds := by
  induction h with
  | @nil d ds =>
    obtain ⟨b, bs, first⟩ := List.exists_cons_of_ne_nil (String.utf8EncodeChar_ne_nil (c := d))
    rw [bytesOf, bytesOf, List.flatMap_cons, first]
    exact List.nil_lt_cons b _
  | rel less => exact utf8EncodeChar_lt less _ _
  | cons _ ih => exact List.append_left_lt ih

/-- Texts compare as their bytes do. -/
theorem encode_lt_iff {a b : String} : encode a < encode b ↔ a < b := by
  rw [encode_eq, encode_eq, String.lt_iff]
  constructor
  · intro less
    rcases Std.lt_trichotomy a.toList b.toList with before | same | after
    · exact before
    · rw [same] at less
      exact absurd less (List.lt_irrefl _)
    · exact absurd (bytesOf_lt after) (List.lt_asymm less)
  · exact bytesOf_lt

/-! ## Bytes below 128 -/

theorem mem_utf8EncodeChar {c : Char} {b : UInt8} (mem : b ∈ String.utf8EncodeChar c)
    (low : b.toNat < 128) : c.toNat = b.toNat := by
  show c.val.toNat = b.toNat
  have top : c.val.toNat < 0x110000 := by
    have := c.valid
    simp only [UInt32.isValidChar, Nat.isValidChar] at this
    omega
  simp only [String.utf8EncodeChar] at mem
  generalize c.val.toNat = n at mem top
  split_ifs at mem
  all_goals
    simp only [List.mem_cons, List.not_mem_nil, or_false, ← UInt8.toNat_inj, UInt8.toNat_ofNat',
      Nat.reducePow] at mem
    omega

theorem mem_of_mem_bytesOf {cs : List Char} {b : UInt8} (mem : b ∈ bytesOf cs)
    (low : b.toNat < 128) : Char.ofNat b.toNat ∈ cs := by
  obtain ⟨c, among, mem⟩ := List.mem_flatMap.mp mem
  rwa [← mem_utf8EncodeChar mem low, Char.ofNat_toNat]

/-- The first byte of a character continues no other. -/
theorem utf8EncodeChar_leads {c : Char} {b : UInt8} {rest : List UInt8}
    (h : String.utf8EncodeChar c = b :: rest) : b.toNat < 128 ∨ 192 ≤ b.toNat := by
  simp only [String.utf8EncodeChar] at h
  generalize c.val.toNat = n at h
  split_ifs at h
  all_goals
    obtain ⟨rfl, -⟩ := List.cons.inj h
    simp only [UInt8.toNat_ofNat', Nat.reducePow]
    omega

/-! ## Cuts -/

/-- A text can be cut here: at its ends, or before a byte that begins a character. -/
def isBoundary (bytes : List UInt8) (offset : Nat) : Bool :=
  offset == 0 || offset == bytes.length ||
    match bytes[offset]? with
    | some b => b < 0x80 || 0xC0 ≤ b
    | none => false

/-- The bytes from `start` up to `stop`, unless a character would be cut. -/
def slice? (bytes : List UInt8) (start stop : Nat) : Option (List UInt8) :=
  if start ≤ stop && isBoundary bytes start && isBoundary bytes stop then
    some ((bytes.take stop).drop start)
  else none

theorem isBoundary_bytesOf (front : List UInt8) (cs : List Char) :
    isBoundary (front ++ bytesOf cs) front.length = true := by
  cases cs with
  | nil => simp [isBoundary, bytesOf]
  | cons c cs =>
    obtain ⟨b, rest, leads⟩ := List.exists_cons_of_ne_nil (String.utf8EncodeChar_ne_nil (c := c))
    have first : (front ++ bytesOf (c :: cs))[front.length]? = some b := by
      rw [bytesOf, List.flatMap_cons, leads]
      simp
    have begins : (b < 0x80 || 0xC0 ≤ b : Bool) = true := by
      have := utf8EncodeChar_leads leads
      simp only [Bool.or_eq_true, decide_eq_true_eq, UInt8.lt_iff_toNat_lt, UInt8.le_iff_toNat_le]
      exact this
    simp only [isBoundary, first, begins, Bool.or_true]

theorem slice?_bytesOf (front mid after : List Char) :
    slice? (bytesOf (front ++ mid ++ after)) (bytesOf front).length
      (bytesOf (front ++ mid)).length = some (bytesOf mid) := by
  have start := isBoundary_bytesOf (bytesOf front) (mid ++ after)
  have stop := isBoundary_bytesOf (bytesOf (front ++ mid)) after
  rw [← bytesOf_append] at start stop
  rw [← List.append_assoc] at start
  have ordered : (bytesOf front).length ≤ (bytesOf (front ++ mid)).length := by
    rw [bytesOf_append, List.length_append]
    omega
  rw [slice?, start, stop, decide_eq_true ordered, Bool.and_self, Bool.and_self, if_pos rfl,
    bytesOf_append (front ++ mid), List.take_left, bytesOf_append, List.drop_left]

end Ensemble.Text.Utf8
