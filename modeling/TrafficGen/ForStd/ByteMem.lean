import Mathlib.Data.List.Basic

/-!
# Byte-addressed memory

A flat memory with little-endian 16- and 32-bit stores, byte ranges read out as
lists, and the byte swaps of a little-endian host. The frame lemmas say which
ranges a store leaves alone; the round trips say what a load reads back.
-/

/-- Byte-addressed memory: one byte at every address. -/
def ByteMem := Nat → UInt8

namespace ByteMem

/-- Store one byte. -/
def store8 (mem : ByteMem) (a : Nat) (v : UInt8) : ByteMem :=
  fun i => if i = a then v else mem i

/-- Store a 16-bit word, low byte first. -/
def store16 (mem : ByteMem) (a : Nat) (v : UInt16) : ByteMem :=
  (mem.store8 a v.toUInt8).store8 (a + 1) (v >>> 8).toUInt8

/-- Store a 32-bit word, low byte first. -/
def store32 (mem : ByteMem) (a : Nat) (v : UInt32) : ByteMem :=
  (mem.store16 a v.toUInt16).store16 (a + 2) (v >>> 16).toUInt16

/-- Load a 16-bit word, low byte first. -/
def load16 (mem : ByteMem) (a : Nat) : UInt16 :=
  UInt16.ofNat ((mem a).toNat + 256 * (mem (a + 1)).toNat)

/-- Load a 32-bit word, low byte first. -/
def load32 (mem : ByteMem) (a : Nat) : UInt32 :=
  UInt32.ofNat ((mem.load16 a).toNat + 65536 * (mem.load16 (a + 2)).toNat)

/-- Overwrite `[a, a + bytes.length)` with a list of bytes. -/
def copy (mem : ByteMem) (a : Nat) (bytes : List UInt8) : ByteMem :=
  fun i => if a ≤ i ∧ i < a + bytes.length then bytes.getD (i - a) 0 else mem i

/-- Fill `[a, a + len)` with one byte. -/
def fill (mem : ByteMem) (a len : Nat) (v : UInt8) : ByteMem :=
  fun i => if a ≤ i ∧ i < a + len then v else mem i

/-- The bytes of `[a, a + len)`. -/
def bytes (mem : ByteMem) (a len : Nat) : List UInt8 :=
  (List.range len).map fun i => mem (a + i)

/-- A list of bytes at address `0`, zero beyond its end. -/
def ofList (l : List UInt8) : ByteMem :=
  fun i => l.getD i 0

/-! ## Byte order -/

/-- Swap the two bytes of a 16-bit word. -/
def swap16 (v : UInt16) : UInt16 :=
  UInt16.ofNat (v.toNat % 256 * 256 + v.toNat / 256)

/-- Reverse the four bytes of a 32-bit word. -/
def swap32 (v : UInt32) : UInt32 :=
  UInt32.ofNat ((swap16 v.toUInt16).toNat * 65536 + (swap16 (v >>> 16).toUInt16).toNat)

theorem toNat_swap16 (v : UInt16) :
    (swap16 v).toNat = v.toNat % 256 * 256 + v.toNat / 256 := by
  have := v.toNat_lt
  simp only [swap16, UInt16.toNat_ofNat']
  omega

@[simp] theorem swap16_swap16 (v : UInt16) : swap16 (swap16 v) = v := by
  have := v.toNat_lt
  apply UInt16.toNat_inj.mp
  rw [toNat_swap16, toNat_swap16]
  omega

private theorem toNat_swap32 (v : UInt32) :
    (swap32 v).toNat =
      (swap16 v.toUInt16).toNat * 65536 + (swap16 (v >>> 16).toUInt16).toNat := by
  have := (swap16 v.toUInt16).toNat_lt
  have := (swap16 (v >>> 16).toUInt16).toNat_lt
  simp only [swap32, UInt32.toNat_ofNat']
  omega

private theorem swap32_low (v : UInt32) :
    (swap32 v).toUInt16 = swap16 (v >>> 16).toUInt16 := by
  have := (swap16 (v >>> 16).toUInt16).toNat_lt
  apply UInt16.toNat_inj.mp
  rw [UInt32.toNat_toUInt16, toNat_swap32]
  omega

private theorem swap32_high (v : UInt32) :
    (swap32 v >>> 16).toUInt16 = swap16 v.toUInt16 := by
  have := (swap16 v.toUInt16).toNat_lt
  have := (swap16 (v >>> 16).toUInt16).toNat_lt
  apply UInt16.toNat_inj.mp
  simp only [UInt32.toNat_toUInt16, UInt32.toNat_shiftRight, toNat_swap32, UInt32.reduceToNat,
    Nat.shiftRight_eq_div_pow, Nat.reduceMod, Nat.reducePow]
  omega

@[simp] theorem swap32_swap32 (v : UInt32) : swap32 (swap32 v) = v := by
  have := v.toNat_lt
  apply UInt32.toNat_inj.mp
  rw [toNat_swap32, swap32_low, swap32_high, swap16_swap16, swap16_swap16]
  simp only [UInt32.toNat_toUInt16, UInt32.toNat_shiftRight, UInt32.reduceToNat,
    Nat.shiftRight_eq_div_pow, Nat.reduceMod, Nat.reducePow]
  omega

/-! ## Loads after stores -/

theorem store8_self (mem : ByteMem) (a : Nat) (v : UInt8) : mem.store8 a v a = v := by
  simp only [store8, if_true]

theorem store8_ne (mem : ByteMem) {a i : Nat} (v : UInt8) (h : i ≠ a) :
    mem.store8 a v i = mem i := by
  simp only [store8, if_neg h]

/-- A 16-bit store changes no byte outside its two. -/
theorem store16_outside (mem : ByteMem) {a i : Nat} (v : UInt16) (h : i < a ∨ a + 2 ≤ i) :
    mem.store16 a v i = mem i := by
  rw [store16, store8_ne _ _ (by omega), store8_ne _ _ (by omega)]

/-- A 32-bit store changes no byte outside its four. -/
theorem store32_outside (mem : ByteMem) {a i : Nat} (v : UInt32) (h : i < a ∨ a + 4 ≤ i) :
    mem.store32 a v i = mem i := by
  rw [store32, store16_outside _ _ (by omega), store16_outside _ _ (by omega)]

theorem store16_low (mem : ByteMem) (a : Nat) (v : UInt16) :
    mem.store16 a v a = v.toUInt8 := by
  rw [store16, store8_ne _ _ (by omega), store8_self]

theorem store16_high (mem : ByteMem) (a : Nat) (v : UInt16) :
    mem.store16 a v (a + 1) = (v >>> 8).toUInt8 := by
  rw [store16, store8_self]

@[simp] theorem load16_store16 (mem : ByteMem) (a : Nat) (v : UInt16) :
    (mem.store16 a v).load16 a = v := by
  have := v.toNat_lt
  apply UInt16.toNat_inj.mp
  rw [load16, store16_low, store16_high]
  simp only [UInt16.toNat_ofNat', UInt16.toNat_toUInt8, UInt16.toNat_shiftRight,
    UInt16.reduceToNat, Nat.shiftRight_eq_div_pow, Nat.reduceMod, Nat.reducePow]
  omega

/-- A load sees only its own two bytes. -/
theorem load16_congr {m m' : ByteMem} {a : Nat} (h0 : m a = m' a)
    (h1 : m (a + 1) = m' (a + 1)) : m.load16 a = m'.load16 a := by
  rw [load16, load16, h0, h1]

@[simp] theorem load32_store32 (mem : ByteMem) (a : Nat) (v : UInt32) :
    (mem.store32 a v).load32 a = v := by
  -- the high half is stored last, above the low one
  have hlow : (mem.store32 a v).load16 a = v.toUInt16 := by
    rw [store32, load16_congr (store16_outside _ _ (by omega)) (store16_outside _ _ (by omega)),
      load16_store16]
  have hhigh : (mem.store32 a v).load16 (a + 2) = (v >>> 16).toUInt16 := by
    rw [store32, load16_store16]
  have := v.toNat_lt
  apply UInt32.toNat_inj.mp
  rw [load32, hlow, hhigh]
  simp only [UInt32.toNat_ofNat', UInt32.toNat_toUInt16, UInt32.toNat_shiftRight,
    UInt32.reduceToNat, Nat.shiftRight_eq_div_pow, Nat.reduceMod, Nat.reducePow]
  omega

theorem load32_congr {m m' : ByteMem} {a : Nat} (h : ∀ i, a ≤ i → i < a + 4 → m i = m' i) :
    m.load32 a = m'.load32 a := by
  rw [load32, load32, load16_congr (h a (by omega) (by omega)) (h (a + 1) (by omega) (by omega)),
    load16_congr (h (a + 2) (by omega) (by omega)) (h (a + 2 + 1) (by omega) (by omega))]

/-! ## Loads past other stores -/

theorem load16_store8_ne (mem : ByteMem) {a b : Nat} (v : UInt8) (h : b < a ∨ a + 2 ≤ b) :
    (mem.store8 b v).load16 a = mem.load16 a :=
  load16_congr (store8_ne _ _ (by omega)) (store8_ne _ _ (by omega))

theorem load16_store16_ne (mem : ByteMem) {a b : Nat} (v : UInt16) (h : b + 2 ≤ a ∨ a + 2 ≤ b) :
    (mem.store16 b v).load16 a = mem.load16 a :=
  load16_congr (store16_outside _ _ (by omega)) (store16_outside _ _ (by omega))

theorem load16_store32_ne (mem : ByteMem) {a b : Nat} (v : UInt32) (h : b + 4 ≤ a ∨ a + 2 ≤ b) :
    (mem.store32 b v).load16 a = mem.load16 a :=
  load16_congr (store32_outside _ _ (by omega)) (store32_outside _ _ (by omega))

theorem load32_store16_ne (mem : ByteMem) {a b : Nat} (v : UInt16) (h : b + 2 ≤ a ∨ a + 4 ≤ b) :
    (mem.store16 b v).load32 a = mem.load32 a :=
  load32_congr fun _ _ _ => store16_outside _ _ (by omega)

theorem load32_store32_ne (mem : ByteMem) {a b : Nat} (v : UInt32) (h : b + 4 ≤ a ∨ a + 4 ≤ b) :
    (mem.store32 b v).load32 a = mem.load32 a :=
  load32_congr fun _ _ _ => store32_outside _ _ (by omega)

/-! ## Stores into two memories

After the same store into both, two memories agree wherever they did before and on what was
stored. -/

theorem store8_congr {m m' : ByteMem} {a i : Nat} (v : UInt8) (h : i ≠ a → m i = m' i) :
    m.store8 a v i = m'.store8 a v i := by
  by_cases hi : i = a
  · rw [hi, store8_self, store8_self]
  · rw [store8_ne _ _ hi, store8_ne _ _ hi, h hi]

theorem store16_congr {m m' : ByteMem} {a i : Nat} (v : UInt16)
    (h : i < a ∨ a + 2 ≤ i → m i = m' i) : m.store16 a v i = m'.store16 a v i :=
  store8_congr _ fun hhigh => store8_congr _ fun hlow => h (by omega)

theorem store32_congr {m m' : ByteMem} {a i : Nat} (v : UInt32)
    (h : i < a ∨ a + 4 ≤ i → m i = m' i) : m.store32 a v i = m'.store32 a v i :=
  store16_congr _ fun hhigh => store16_congr _ fun hlow => h (by omega)

/-! ## Byte ranges -/

@[simp] theorem length_bytes (mem : ByteMem) (a len : Nat) : (mem.bytes a len).length = len := by
  simp only [bytes, List.length_map, List.length_range]

/-- Two memories that agree on a range have the same bytes there. -/
theorem bytes_congr {m m' : ByteMem} {a len : Nat}
    (h : ∀ i, a ≤ i → i < a + len → m i = m' i) : m.bytes a len = m'.bytes a len := by
  apply List.map_congr_left
  intro i hi
  exact h (a + i) (by omega) (by have := List.mem_range.mp hi; omega)

/-- A range of equal bytes. -/
theorem bytes_eq_replicate {mem : ByteMem} {a len : Nat} {v : UInt8}
    (h : ∀ i, a ≤ i → i < a + len → mem i = v) : mem.bytes a len = List.replicate len v := by
  rw [List.eq_replicate_iff]
  refine ⟨length_bytes _ _ _, fun b hb => ?_⟩
  obtain ⟨i, hi, rfl⟩ := List.mem_map.mp hb
  exact h (a + i) (by omega) (by have := List.mem_range.mp hi; omega)

/-- A range splits at any point. -/
theorem bytes_add (mem : ByteMem) (a n k : Nat) :
    mem.bytes a (n + k) = mem.bytes a n ++ mem.bytes (a + n) k := by
  simp only [bytes, List.range_add, List.map_append, List.map_map, Function.comp_def,
    Nat.add_assoc]

theorem getD_bytes (mem : ByteMem) (a : Nat) {len i : Nat} (h : i < len) (v : UInt8) :
    (mem.bytes a len).getD i v = mem (a + i) := by
  simp only [bytes, List.getD_eq_getElem?_getD, List.getElem?_map, List.getElem?_range h,
    Option.map_some, Option.getD_some]

theorem copy_inside (mem : ByteMem) {a i : Nat} (l : List UInt8) (h : i < l.length) :
    mem.copy a l (a + i) = l.getD i 0 := by
  rw [copy, if_pos (by omega), Nat.add_sub_cancel_left]

/-- A copy changes no byte outside its range. -/
theorem copy_outside (mem : ByteMem) {a i : Nat} (l : List UInt8)
    (h : i < a ∨ a + l.length ≤ i) : mem.copy a l i = mem i := by
  rw [copy, if_neg (by omega)]

theorem copy_congr {m m' : ByteMem} {a i : Nat} (l : List UInt8)
    (h : i < a ∨ a + l.length ≤ i → m i = m' i) : m.copy a l i = m'.copy a l i := by
  unfold copy
  split
  · rfl
  · exact h (by omega)

theorem fill_inside (mem : ByteMem) {a len i : Nat} (v : UInt8) (hlo : a ≤ i)
    (hhi : i < a + len) : mem.fill a len v i = v := by
  rw [fill, if_pos ⟨hlo, hhi⟩]

/-- A fill changes no byte outside its range. -/
theorem fill_outside (mem : ByteMem) {a len i : Nat} (v : UInt8) (h : i < a ∨ a + len ≤ i) :
    mem.fill a len v i = mem i := by
  rw [fill, if_neg (by omega)]

/-- The two bytes of a swapped 16-bit store are in network order. -/
theorem bytes_store16_swap16 (mem : ByteMem) (a : Nat) (v : UInt16) :
    (mem.store16 a (swap16 v)).bytes a 2 = [(v >>> 8).toUInt8, v.toUInt8] := by
  -- low byte of the swapped word
  have h1 : (swap16 v).toUInt8 = (v >>> 8).toUInt8 := by
    have := v.toNat_lt
    apply UInt8.toNat_inj.mp
    simp only [UInt16.toNat_toUInt8, toNat_swap16, UInt16.toNat_shiftRight, UInt16.reduceToNat,
      Nat.shiftRight_eq_div_pow, Nat.reduceMod, Nat.reducePow]
    omega
  -- high byte of the swapped word
  have h2 : (swap16 v >>> 8).toUInt8 = v.toUInt8 := by
    have hhigh : v.toNat / 256 < 256 := by have := v.toNat_lt; omega
    apply UInt8.toNat_inj.mp
    simp only [UInt16.toNat_toUInt8, toNat_swap16, UInt16.toNat_shiftRight, UInt16.reduceToNat,
      Nat.shiftRight_eq_div_pow, Nat.reduceMod, Nat.reducePow]
    rw [Nat.add_comm, Nat.add_mul_div_right _ _ (by omega), Nat.div_eq_of_lt hhigh,
      Nat.zero_add, Nat.mod_mod]
  simp only [bytes, List.range_succ, List.range_zero, List.nil_append, List.map_cons,
    List.map_nil, Nat.add_zero, store16_low, store16_high, h1, h2,
    List.cons_append]

end ByteMem
