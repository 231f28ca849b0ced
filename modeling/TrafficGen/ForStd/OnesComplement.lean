import Mathlib.Data.List.Basic
import TrafficGen.ForStd.ByteMem

/-!
# One's-complement sums

The 16-bit one's-complement arithmetic of the Internet checksum: end-around-carry
addition, the sum of a byte string read as big-endian words, and the checksum
that complements it. The main result is `sum_with_checksum`: a byte string whose
checksum field holds the checksum of the string with that field zeroed sums to
`0xFFFF`.
-/

namespace OnesComplement

/-- 16-bit one's-complement addition: a carry out of the top comes back in at the
    bottom. -/
def add (a b : Nat) : Nat :=
  if a + b < 65536 then a + b else a + b - 65535

/-- One's-complement sum of the big-endian 16-bit words of a byte string, an odd
    last byte padded with a zero byte. -/
def sum : List UInt8 → Nat
  | [] => 0
  | [a] => a.toNat * 256
  | a :: b :: rest => add (a.toNat * 256 + b.toNat) (sum rest)

/-- The complement of the sum. -/
def checksum (bytes : List UInt8) : UInt16 :=
  UInt16.ofNat (65535 - sum bytes)

/-- A byte string is intact when its sum, checksum field included, is all ones. -/
def Intact (bytes : List UInt8) : Prop :=
  sum bytes = 0xFFFF

instance (bytes : List UInt8) : Decidable (Intact bytes) :=
  inferInstanceAs (Decidable (_ = _))

/-! ## Algebra of end-around carry -/

theorem add_lt {a b : Nat} (ha : a < 65536) (hb : b < 65536) : add a b < 65536 := by
  simp only [add]
  split <;> omega

theorem add_left_comm {a b c : Nat} (ha : a < 65536) (hb : b < 65536) (hc : c < 65536) :
    add a (add b c) = add b (add a c) := by
  simp only [add]
  -- a carry or none at each of the four additions
  split <;> split <;> split <;> split <;> omega

theorem word_lt (a b : UInt8) : a.toNat * 256 + b.toNat < 65536 := by
  have := a.toNat_lt
  have := b.toNat_lt
  omega

theorem sum_lt (bytes : List UInt8) : sum bytes < 65536 := by
  induction bytes using sum.induct with
  | case1 => simp only [sum]; omega
  | case2 a => have := a.toNat_lt; simp only [sum]; omega
  | case3 a b rest ih => simp only [sum]; exact add_lt (word_lt a b) ih

/-- A word at an even offset can be pulled out of the sum, leaving a zero word. -/
theorem sum_word (pre : List UInt8) (a b : UInt8) (post : List UInt8)
    (heven : pre.length % 2 = 0) :
    sum (pre ++ a :: b :: post) = add (a.toNat * 256 + b.toNat) (sum (pre ++ 0 :: 0 :: post)) := by
  -- two bytes of the prefix at a time, as `sum` reads them
  induction pre using sum.induct with
  | case1 =>
    have := sum_lt post
    simp only [List.nil_append, sum, UInt8.toNat_zero, Nat.zero_mul, Nat.add_zero]
    congr 1
    simp only [add, Nat.zero_add, if_pos this]
  | case2 x => simp only [List.length_singleton] at heven; omega
  | case3 x y rest ih =>
    have hrest : rest.length % 2 = 0 := by simp only [List.length_cons] at heven; omega
    simp only [List.cons_append, sum, ih hrest]
    exact add_left_comm (word_lt x y) (word_lt a b) (sum_lt _)

theorem add_assoc {a b c : Nat} (ha : a < 65536) (hb : b < 65536) (hc : c < 65536) :
    add (add a b) c = add a (add b c) := by
  simp only [add]
  split <;> split <;> split <;> split <;> omega

/-- A sum that is not zero tells its other term up to the two zeros. -/
theorem add_eq_add_iff {a b c : Nat} (hpos : 0 < a) (ha : a < 65536) (hb : b < 65536)
    (hc : c < 65536) : add a b = add a c ↔ b % 65535 = c % 65535 := by
  simp only [add]
  split <;> split <;> omega

/-- The sum of a byte string is that of its parts, cut at an even offset. -/
theorem sum_append (pre post : List UInt8) (heven : pre.length % 2 = 0) :
    sum (pre ++ post) = add (sum pre) (sum post) := by
  induction pre using sum.induct with
  | case1 =>
    have := sum_lt post
    simp only [List.nil_append, sum, add, Nat.zero_add, if_pos this]
  | case2 x => simp only [List.length_singleton] at heven; omega
  | case3 x y rest ih =>
    have hrest : rest.length % 2 = 0 := by simp only [List.length_cons] at heven; omega
    simp only [List.cons_append, sum, ih hrest]
    exact (add_assoc (word_lt x y) (sum_lt rest) (sum_lt post)).symm

/-- A byte that is not zero shows in the sum. -/
theorem sum_pos {bytes : List UInt8} {v : UInt8} (hv : v ∈ bytes) (hne : v ≠ 0) :
    0 < sum bytes := by
  have hpos : 0 < v.toNat := Nat.pos_of_ne_zero fun h => hne (UInt8.toNat_inj.mp h)
  induction bytes using sum.induct with
  | case1 => cases hv
  | case2 a =>
    rw [List.mem_singleton] at hv
    subst hv
    simp only [sum]
    omega
  | case3 a b rest ih =>
    have hword := word_lt a b
    have hsum := sum_lt rest
    rw [List.mem_cons, List.mem_cons] at hv
    simp only [sum, add]
    rcases hv with rfl | rfl | hv
    · split <;> omega
    · split <;> omega
    · have := ih hv
      split <;> omega

/-- Zero bytes add nothing. -/
theorem sum_replicate_zero : ∀ n : Nat, sum (List.replicate n 0) = 0
  | 0 => rfl
  | 1 => rfl
  | n + 2 => by
    show add 0 (sum (List.replicate n 0)) = 0
    rw [sum_replicate_zero n]
    rfl

/-! ## The checksum completes the sum -/

theorem toNat_checksum (bytes : List UInt8) : (checksum bytes).toNat = 65535 - sum bytes := by
  simp only [checksum, UInt16.toNat_ofNat']
  omega

theorem checksum_inj {a b : List UInt8} : checksum a = checksum b ↔ sum a = sum b := by
  have ha := sum_lt a
  have hb := sum_lt b
  rw [← UInt16.toNat_inj, toNat_checksum, toNat_checksum]
  omega

/-- The two bytes of a word in network order make up the word. -/
theorem word_bytes (v : UInt16) : (v >>> 8).toUInt8.toNat * 256 + v.toUInt8.toNat = v.toNat := by
  have := v.toNat_lt
  simp only [UInt16.toNat_toUInt8, UInt16.toNat_shiftRight, UInt16.reduceToNat,
    Nat.shiftRight_eq_div_pow, Nat.reduceMod, Nat.reducePow]
  omega

/-- Storing `c` at an even offset makes the string intact, for `c` the checksum
    taken with that word zeroed. All ones may stand for a zero checksum. -/
theorem sum_with_checksum (pre post : List UInt8) (c : UInt16) (heven : pre.length % 2 = 0)
    (hc : c = checksum (pre ++ 0 :: 0 :: post) ∨
      (checksum (pre ++ 0 :: 0 :: post) = 0 ∧ c = 0xFFFF)) :
    Intact (pre ++ (c >>> 8).toUInt8 :: c.toUInt8 :: post) := by
  have hlt := sum_lt (pre ++ 0 :: 0 :: post)
  have hsum := toNat_checksum (pre ++ 0 :: 0 :: post)
  -- the sum is now `c` plus the sum with the field zeroed
  rw [Intact, sum_word pre _ _ post heven, word_bytes]
  rcases hc with rfl | ⟨hzero, rfl⟩
  · rw [hsum]
    simp only [add]
    split <;> omega
  · rw [hzero, UInt16.toNat_zero] at hsum
    have hones : (0xFFFF : UInt16).toNat = 65535 := rfl
    simp only [add, hones]
    split <;> omega

example : sum [0x45, 0x00, 0xBA, 0xFF] = 0xFFFF := by decide

/-! ## A checksum field in memory -/

/-- A field at an even offset `off` of the `len` bytes at `a` is zeroed and then holds their
    checksum, taken after an even prefix: prefix and bytes are intact together. -/
theorem intact_store (pre : List UInt8) (mem : ByteMem) (a len off : Nat) {c : UInt16}
    (hpre : pre.length % 2 = 0) (hoff : off % 2 = 0) (hlen : off + 2 ≤ len)
    (hc : c = checksum (pre ++ (mem.store16 (a + off) 0).bytes a len) ∨
      (checksum (pre ++ (mem.store16 (a + off) 0).bytes a len) = 0 ∧ c = 0xFFFF)) :
    Intact (pre ++
      ((mem.store16 (a + off) 0).store16 (a + off) (ByteMem.swap16 c)).bytes a len) := by
  obtain ⟨k, rfl⟩ := Nat.exists_eq_add_of_le hlen
  -- cut the range before and after the field
  have hsplit : ∀ m : ByteMem, m.bytes a (off + 2 + k) =
      m.bytes a off ++ (m.bytes (a + off) 2 ++ m.bytes (a + off + 2) k) := fun m => by
    rw [Nat.add_assoc, ByteMem.bytes_add, ByteMem.bytes_add]
  -- outside the field both memories hold what `mem` holds
  have hbefore : ∀ (m : ByteMem) (v : UInt16), (m.store16 (a + off) v).bytes a off =
      m.bytes a off := fun m v =>
    ByteMem.bytes_congr fun i _ _ => ByteMem.store16_outside m v (by omega)
  have hafter : ∀ (m : ByteMem) (v : UInt16), (m.store16 (a + off) v).bytes (a + off + 2) k =
      m.bytes (a + off + 2) k := fun m v =>
    ByteMem.bytes_congr fun i _ _ => ByteMem.store16_outside m v (by omega)
  have hzero : (mem.store16 (a + off) 0).bytes (a + off) 2 = [0, 0] :=
    ByteMem.bytes_store16_swap16 mem (a + off) 0
  simp only [hsplit, hbefore, hafter, hzero] at hc ⊢
  rw [ByteMem.bytes_store16_swap16, ← List.append_assoc]
  rw [← List.append_assoc] at hc
  refine sum_with_checksum (pre ++ mem.bytes a off) (mem.bytes (a + off + 2) k) c ?_ hc
  rw [List.length_append, ByteMem.length_bytes]
  omega

end OnesComplement
