import Mathlib.Data.List.Forall2
import Mathlib.Data.List.TakeWhile
import TrafficGen.Core.PacketBuilder
import TrafficGen.ForStd.MacText

/-!
# MAC addresses are read as written

`mac_to_bytes` tries two `sscanf` patterns, with and without colons. On the text of a MAC
address each conversion takes one group of two hex digits, and the pattern that has the
text's separator gives the six bytes it denotes.

## Key results

- `scanMac_intercalate`: the pattern of a separator reads groups with that separator
- `macToBytes_of_denotes`: a MAC address is converted to the bytes it denotes
- `macToBytes_formatMac`: six printed bytes are read back
-/

namespace TrafficGen

open MacText

variable {lone0x : Bool}

/-! ## One group -/

/-- The code's hex digits are the hexadecimal digits. -/
theorem hexDigit?_eq (c : Char) : hexDigit? c = (Hex.value c).map UInt8.ofNat := by
  have hdigit : c.isDigit = true ↔ '0' ≤ c ∧ c ≤ '9' := by
    show (decide ('0'.val ≤ c.val) && decide (c.val ≤ '9'.val)) = true ↔ _
    rw [Bool.and_eq_true, decide_eq_true_eq, decide_eq_true_eq]
    rfl
  simp only [hexDigit?, Hex.value, hdigit]
  split
  · rfl
  · split
    · next hlower =>
      have hle : 97 ≤ c.toNat := hlower.1
      show some (UInt8.ofNat (c.toNat - 87)) = some (UInt8.ofNat (c.toNat - 97 + 10))
      congr 2
      omega
    · split
      · next hupper =>
        have hle : 65 ≤ c.toNat := hupper.1
        show some (UInt8.ofNat (c.toNat - 55)) = some (UInt8.ofNat (c.toNat - 65 + 10))
        congr 2
        omega
      · rfl

theorem hexDigit?_of_value {c : Char} {n : Nat} (h : Hex.value c = some n) :
    hexDigit? c = some (UInt8.ofNat n) := by
  rw [hexDigit?_eq, h]
  rfl

/-- A hex digit is neither skipped nor taken for a sign. -/
theorem not_blank_of_value {c : Char} {n : Nat} (h : Hex.value c = some n) :
    isSpace c = false ∧ c ≠ '+' ∧ c ≠ '-' := by
  have hle := Hex.le_toNat_of_value h
  refine ⟨?_, ?_, ?_⟩
  · simp only [isSpace, Bool.or_eq_false_iff, beq_eq_false_iff_ne, ne_eq,
      Bool.and_eq_false_iff, decide_eq_false_iff_not]
    constructor
    · rintro rfl
      exact absurd hle (by decide)
    · omega
  · rintro rfl
    exact absurd hle (by decide)
  · rintro rfl
    exact absurd hle (by decide)

/-- Two digits are put together as bytes or as numbers. -/
theorem ofNat_two_digits (x y : Nat) :
    UInt8.ofNat x * 16 + UInt8.ofNat y = UInt8.ofNat (16 * x + y) := by
  rw [UInt8.ofNat_add, UInt8.ofNat_mul, UInt8.mul_comm]
  rfl

/-- A conversion takes a group and leaves what follows it. -/
theorem scanHexByte_group {g : List Char} {b : UInt8} (h : Group g b) (rest : List Char) :
    scanHexByte lone0x (g ++ rest) = some (b, rest) := by
  cases h with
  | @mk c c' x y hx hy =>
    obtain ⟨hblank, hplus, hminus⟩ := not_blank_of_value hx
    show scanHexByte lone0x (c :: c' :: rest) = _
    simp only [scanHexByte, List.dropWhile_cons, hblank, Bool.false_eq_true, if_false, hplus,
      hminus, hexDigit?_of_value hx, hexDigit?_of_value hy, ofNat_two_digits]

/-! ## Six groups -/

/-- The pattern with `sep` reads groups with `sep` between them. -/
theorem scanMac_intercalate (lone0x : Bool) (sep : List Char) {groups : List (List Char)}
    {bytes : List UInt8} (h : List.Forall₂ Group groups bytes) :
    scanMac lone0x sep groups.length (List.intercalate sep groups) = some bytes := by
  induction h with
  | nil => rfl
  | @cons g b gs bs hg hgs ih =>
    cases hgs with
    | nil =>
      show (scanHexByte lone0x (List.intercalate sep [g])).map (fun x => [x.1]) = some [b]
      have hone : List.intercalate sep [g] = g ++ [] := by simp [List.intercalate]
      rw [hone, scanHexByte_group hg]
      rfl
    | @cons g' b' gs bs hg' hgs' =>
      -- the separator after the group is dropped, the rest is the induction hypothesis
      simp only [List.length_cons, scanMac]
      rw [List.intercalate_cons_cons, List.append_assoc, scanHexByte_group hg]
      simp only [List.length_cons] at ih
      have hstart : sep.isPrefixOf (sep ++ List.intercalate sep (g' :: gs)) = true := by
        rw [List.isPrefixOf_iff_prefix]
        exact List.prefix_append _ _
      simp only [hstart, if_true, List.drop_left, ih, Option.map_some]

/-- The pattern with colons fails on groups written without. -/
theorem scanMac_colon_undelimited (lone0x : Bool) {groups : List (List Char)} {bytes : List UInt8}
    (h : List.Forall₂ Group groups bytes) (hlen : 2 ≤ groups.length) :
    scanMac lone0x [':'] groups.length (List.intercalate [] groups) = none := by
  cases h with
  | nil => simp at hlen
  | @cons g b gs bs hg hgs =>
    cases hgs with
    | nil => simp at hlen
    | @cons g' b' gs bs hg' hgs =>
      simp only [List.length_cons, scanMac]
      rw [List.intercalate_cons_cons, List.append_assoc, List.nil_append, scanHexByte_group hg]
      -- the second group begins with a digit, not a colon
      cases hg' with
      | @mk c c' x y hx hy =>
        have hcolon : ':' ≠ c := by
          rintro rfl
          cases hx
        cases gs with
        | nil => simp [List.intercalate, hcolon]
        | cons g'' gs => simp [List.intercalate_cons_cons, hcolon]

/-- The text a C function sees: up to the first NUL. -/
def cText (mac : String) : List Char := mac.toList.takeWhile (· ≠ '\x00')

theorem cText_of_chars {mac : String} (h : ∀ c ∈ mac.toList, c ≠ '\x00') :
    cText mac = mac.toList := by
  rw [cText, List.takeWhile_eq_self_iff]
  intro c hc
  exact decide_eq_true (h c hc)

/-- A MAC address is converted to the bytes it denotes. -/
theorem macToBytes_of_denotes (lone0x : Bool) {mac : String} {bytes : List UInt8}
    (h : Denotes mac.toList bytes) : macToBytes lone0x mac = (true, bytes) := by
  have hempty : mac.isEmpty = false := by
    rw [Bool.eq_false_iff]
    intro hempty
    exact h.ne_nil (by rw [String.isEmpty_iff.mp hempty]; rfl)
  have hchars : cText mac = mac.toList := by
    refine cText_of_chars ?_
    rintro c hc rfl
    rcases h.chars _ hc with heq | halnum
    · cases heq
    · cases halnum
  rw [cText] at hchars
  obtain ⟨hlen, sep, groups, hsep, hgroups, htext⟩ := h
  have hsix : groups.length = 6 := hgroups.length_eq.trans hlen
  have hscan := scanMac_intercalate lone0x sep hgroups
  rw [hsix, ← htext] at hscan
  simp only [macToBytes, hempty, Bool.false_eq_true, if_false, hchars]
  rcases hsep with rfl | rfl
  · rw [hscan]
  · have hcolon := scanMac_colon_undelimited lone0x hgroups (by omega)
    rw [hsix, ← htext] at hcolon
    rw [hcolon, hscan]

/-! ## Printed and read back -/

theorem value_upperHex {n : Nat} (hn : n < 16) : Hex.value (upperHex n) = some n := by
  have hall : ∀ k < 16, Hex.value (upperHex k) = some k := by decide
  exact hall n hn

/-- Two upper case digits denote the byte they were printed from. -/
theorem group_upperHex (b : UInt8) :
    Group [upperHex (b.toNat / 16), upperHex (b.toNat % 16)] b := by
  have hlt := b.toNat_lt
  have hhi := value_upperHex (show b.toNat / 16 < 16 by omega)
  have hlo := value_upperHex (show b.toNat % 16 < 16 by omega)
  have hb : UInt8.ofNat (16 * (b.toNat / 16) + b.toNat % 16) = b := by
    rw [Nat.div_add_mod, UInt8.ofNat_toNat]
  have hgroup := MacText.Group.mk hhi hlo
  rwa [hb] at hgroup

theorem denotes_formatMac {bytes : List UInt8} (hlen : bytes.length = 6) :
    Denotes (formatMac bytes).toList bytes := by
  have hgroups : List.Forall₂ Group
      (bytes.map fun b => [upperHex (b.toNat / 16), upperHex (b.toNat % 16)]) bytes := by
    rw [List.forall₂_map_left_iff, List.forall₂_same]
    exact fun b _ => group_upperHex b
  exact ⟨hlen, [':'], _, .inl rfl, hgroups, by rw [formatMac, String.toList_ofList]⟩

/-- Six bytes printed as `add_flow` prints them are read back. -/
theorem macToBytes_formatMac {bytes : List UInt8} (hlen : bytes.length = 6) :
    macToBytes lone0x (formatMac bytes) = (true, bytes) :=
  macToBytes_of_denotes lone0x (denotes_formatMac hlen)

/-! ## Six bytes in any case -/

theorem length_scanMac {sep : List Char} {n : Nat} {input : List Char} {bytes : List UInt8}
    (h : scanMac lone0x sep n input = some bytes) : bytes.length = n := by
  fun_induction scanMac lone0x sep n input generalizing bytes with
  | case1 => cases h; rfl
  | case2 input =>
    rw [Option.map_eq_some_iff] at h
    obtain ⟨⟨b, rest⟩, -, rfl⟩ := h
    rfl
  | case3 => cases h
  | case4 n input b rest _ _ ih =>
    rw [Option.map_eq_some_iff] at h
    obtain ⟨bs, hbs, rfl⟩ := h
    rw [List.length_cons, ih hbs]
  | case5 => cases h

/-- Whatever the text, the address has six bytes. -/
theorem length_macToBytes (lone0x : Bool) (mac : String) : (macToBytes lone0x mac).2.length = 6 := by
  simp only [macToBytes]
  split
  · rfl
  · split
    · next hscan => exact length_scanMac hscan
    · split
      · next hscan => exact length_scanMac hscan
      · rfl

end TrafficGen
