import TrafficGen.Spec.MacAddress

/-!
# Which text passes for a MAC address

`sscanf` takes a number of at most two characters for each `%02x`, and the code compares the
number of conversions with six. It looks neither at how a field was written nor at what
follows the sixth. The texts `mac_to_bytes` accepts are therefore the loose addresses. The
notation with dashes is one of them, with each second dash read as a sign; the notation with
dots is not.

## Key results

- `scanHexByte_eq_some_iff`, `scanMac_eq_some_iff`: a conversion takes a field, a pattern fields
- `fst_macToBytes_iff`: exactly the loose addresses are accepted
- `macToBytes_of_stray`: a text with another character among its first six is rejected
- `fst_macToBytes_dashed`: the notation with dashes is accepted
- `readExactly_iff`: when a text is read as MAC addresses are written
-/

namespace TrafficGen

open MacText

variable {lone0x : Bool}

/-! ## One conversion -/

theorem isSpace_iff {c : Char} : isSpace c = true ↔ IsBlank c := by
  simp only [isSpace, IsBlank, Bool.or_eq_true, beq_iff_eq, Bool.and_eq_true, decide_eq_true_eq]

theorem hexDigit?_eq_some_iff {c : Char} {v : UInt8} :
    hexDigit? c = some v ↔ ∃ x, Hex.value c = some x ∧ UInt8.ofNat x = v := by
  rw [hexDigit?_eq, Option.map_eq_some_iff]

theorem hexDigit?_eq_none_iff {c : Char} : hexDigit? c = none ↔ Hex.value c = none := by
  rw [hexDigit?_eq, Option.map_eq_none_iff]

/-- The conversion of a single digit. -/
theorem of_map_hexDigit? {sign : UInt8 → UInt8} {c : Char} {after rest : List Char} {b : UInt8}
    (h : (hexDigit? c).map (fun v => (sign v, after)) = some (b, rest)) :
    ∃ x, Hex.value c = some x ∧ sign (UInt8.ofNat x) = b ∧ after = rest := by
  obtain ⟨v, hv, heq⟩ := Option.map_eq_some_iff.mp h
  obtain ⟨x, hx, rfl⟩ := hexDigit?_eq_some_iff.mp hv
  obtain ⟨hb, hrest⟩ := Prod.mk.inj heq
  exact ⟨x, hx, hb, hrest⟩

/-- White space before a number is skipped. -/
theorem scanHexByte_blank {c : Char} (hc : IsBlank c) (input : List Char) :
    scanHexByte lone0x (c :: input) = scanHexByte lone0x input := by
  simp only [scanHexByte, List.dropWhile_cons, isSpace_iff.mpr hc, if_true]

/-- A conversion takes a field and leaves what follows it. -/
theorem scanHexByte_of_field {text rest : List Char} {b : UInt8} (h : Field lone0x text b rest) :
    scanHexByte lone0x (text ++ rest) = some (b, rest) := by
  induction h with
  | @blank c text rest b hc _ ih =>
    rw [List.cons_append, scanHexByte_blank hc]
    exact ih
  | group hg => exact scanHexByte_group hg _
  | @digit c x rest hc hends =>
    obtain ⟨hblank, hplus, hminus⟩ := not_blank_of_value hc
    cases rest with
    | nil => simp [scanHexByte, hblank, hexDigit?_of_value hc]
    | cons d rest =>
      -- the next character is looked at, and stays in the input
      obtain ⟨hnot, hstart⟩ := hends d rfl
      simp [scanHexByte, hblank, hplus, hminus, hexDigit?_of_value hc,
        hexDigit?_eq_none_iff.mpr hnot, hstart]
  | @plus c x rest hc =>
    have hblank : isSpace '+' = false := rfl
    simp [scanHexByte, hblank, hexDigit?_of_value hc]
  | @minus c x rest hc =>
    have hblank : isSpace '-' = false := rfl
    simp [scanHexByte, hblank, hexDigit?_of_value hc]
  | lone hlone hc =>
    subst hlone
    rcases hc with rfl | rfl
    · rfl
    · rfl

/-- What a conversion takes where no white space stands. -/
theorem field_of_scanHexByte {c : Char} {input rest : List Char} {b : UInt8}
    (hc : isSpace c = false) (h : scanHexByte lone0x (c :: input) = some (b, rest)) :
    ∃ text, Field lone0x text b rest ∧ c :: input = text ++ rest := by
  simp only [scanHexByte, List.dropWhile_cons, hc, Bool.false_eq_true, if_false] at h
  cases input with
  | nil =>
    -- the last character of the input
    obtain ⟨x, hx, rfl, rfl⟩ := of_map_hexDigit? h
    exact ⟨[c], .digit hx (by simp [Ends]), rfl⟩
  | cons d input =>
    simp only at h
    split at h
    · next hplus =>
      obtain ⟨x, hx, rfl, rfl⟩ := of_map_hexDigit? h
      exact ⟨['+', d], .plus hx, by rw [hplus]; rfl⟩
    · split at h
      · next hminus =>
        obtain ⟨x, hx, rfl, rfl⟩ := of_map_hexDigit? h
        exact ⟨['-', d], .minus hx, by rw [hminus]; rfl⟩
      · split at h
        · cases h
        · next hi lo hhi hlo =>
          -- two digits
          obtain ⟨x, hx, rfl⟩ := hexDigit?_eq_some_iff.mp hhi
          obtain ⟨y, hy, rfl⟩ := hexDigit?_eq_some_iff.mp hlo
          cases h
          refine ⟨[c, d], ?_, rfl⟩
          rw [ofNat_two_digits]
          exact .group (.mk hx hy)
        · next hi hhi hlo =>
          -- one digit, and a character that is none
          split at h
          · next hstart =>
            split at h
            · next hlone =>
              cases h
              exact ⟨['0', d], .lone hlone hstart.2, by rw [hstart.1]; rfl⟩
            · cases h
          · next hstart =>
            obtain ⟨x, hx, rfl⟩ := hexDigit?_eq_some_iff.mp hhi
            cases h
            refine ⟨[c], .digit hx ?_, rfl⟩
            intro e he
            cases he
            exact ⟨hexDigit?_eq_none_iff.mp hlo, hstart⟩

theorem scanHexByte_eq_some_iff {input rest : List Char} {b : UInt8} :
    scanHexByte lone0x input = some (b, rest) ↔
      ∃ text, Field lone0x text b rest ∧ input = text ++ rest := by
  constructor
  · intro h
    induction input with
    | nil => cases h
    | cons c input ih =>
      cases hc : isSpace c with
      | false => exact field_of_scanHexByte hc h
      | true =>
        have hblank := isSpace_iff.mp hc
        rw [scanHexByte_blank hblank] at h
        obtain ⟨text, hfield, rfl⟩ := ih h
        exact ⟨c :: text, .blank hblank hfield, rfl⟩
  · rintro ⟨text, hfield, rfl⟩
    exact scanHexByte_of_field hfield

/-! ## One pattern -/

/-- A pattern takes its conversions' fields with the separator between them. -/
theorem scanMac_eq_some_iff {sep : List Char} {n : Nat} {input : List Char}
    {bytes : List UInt8} :
    scanMac lone0x sep (n + 1) input = some bytes ↔
      bytes.length = n + 1 ∧ Fields lone0x sep input bytes := by
  induction n generalizing input bytes with
  | zero =>
    simp only [scanMac, Option.map_eq_some_iff]
    constructor
    · rintro ⟨⟨b, rest⟩, hscan, rfl⟩
      obtain ⟨text, hfield, rfl⟩ := scanHexByte_eq_some_iff.mp hscan
      exact ⟨rfl, .last hfield⟩
    · rintro ⟨hlen, hfields⟩
      cases hfields with
      | last hfield => exact ⟨_, scanHexByte_of_field hfield, rfl⟩
      | cons _ hs => cases hs <;> simp at hlen
  | succ n ih =>
    constructor
    · intro h
      -- one field, the separator, and the rest by induction
      have hlen := length_scanMac h
      rw [scanMac] at h
      split at h
      · cases h
      · next b rest hscan =>
        split at h
        · next hsep =>
          obtain ⟨bs, hbs, rfl⟩ := Option.map_eq_some_iff.mp h
          obtain ⟨text, hfield, rfl⟩ := scanHexByte_eq_some_iff.mp hscan
          obtain ⟨after, rfl⟩ := List.isPrefixOf_iff_prefix.mp hsep
          rw [List.drop_left] at hbs
          exact ⟨hlen, .cons hfield (ih.mp hbs).2⟩
        · cases h
    · rintro ⟨hlen, hfields⟩
      cases hfields with
      | last _ => simp at hlen
      | @cons text rest b bs hfield hs =>
        have hstart : sep.isPrefixOf (sep ++ rest) = true :=
          List.isPrefixOf_iff_prefix.mpr (List.prefix_append _ _)
        have hrest := ih.mpr ⟨Nat.succ.inj hlen, hs⟩
        rw [scanMac, scanHexByte_of_field hfield]
        simp only [hstart, if_true, List.drop_left, hrest, Option.map_some]

/-! ## Both patterns -/

theorem loose_iff {text : List Char} {bytes : List UInt8} :
    Loose lone0x text bytes ↔ ∃ sep, IsSeparator sep ∧ scanMac lone0x sep 6 text = some bytes := by
  constructor
  · rintro ⟨hlen, sep, hsep, hfields⟩
    exact ⟨sep, hsep, scanMac_eq_some_iff.mpr ⟨hlen, hfields⟩⟩
  · rintro ⟨sep, hsep, hscan⟩
    obtain ⟨hlen, hfields⟩ := scanMac_eq_some_iff.mp hscan
    exact ⟨hlen, sep, hsep, hfields⟩

/-- A text is accepted with bytes a pattern finds, or no pattern finds any and it is
rejected with the address left zero. -/
theorem macToBytes_cases {mac : String} (hne : mac ≠ "") :
    (∃ bytes, Loose lone0x (cText mac) bytes ∧ macToBytes lone0x mac = (true, bytes)) ∨
      (¬ ∃ bytes, Loose lone0x (cText mac) bytes) ∧
        macToBytes lone0x mac = (false, List.replicate 6 0) := by
  have hempty : mac.isEmpty = false := by
    rw [Bool.eq_false_iff]
    exact fun hempty => hne (String.isEmpty_iff.mp hempty)
  simp only [macToBytes, hempty, Bool.false_eq_true, if_false]
  cases hcolon : scanMac lone0x [':'] 6 (mac.toList.takeWhile (· ≠ '\x00')) with
  | some bytes => exact .inl ⟨bytes, loose_iff.mpr ⟨_, .inl rfl, hcolon⟩, rfl⟩
  | none =>
    cases hplain : scanMac lone0x [] 6 (mac.toList.takeWhile (· ≠ '\x00')) with
    | some bytes => exact .inl ⟨bytes, loose_iff.mpr ⟨_, .inr rfl, hplain⟩, rfl⟩
    | none =>
      refine .inr ⟨?_, rfl⟩
      rintro ⟨bytes, hloose⟩
      obtain ⟨sep, hsep, hscan⟩ := loose_iff.mp hloose
      rcases hsep with rfl | rfl
      · exact Option.some_ne_none _ (hscan.symm.trans hcolon)
      · exact Option.some_ne_none _ (hscan.symm.trans hplain)

theorem fst_macToBytes_of_loose {mac : String} {bytes : List UInt8}
    (h : Loose lone0x (cText mac) bytes) : (macToBytes lone0x mac).1 = true := by
  by_cases hempty : mac = ""
  · rw [hempty]
    rfl
  · rcases macToBytes_cases hempty with ⟨bytes', -, heq⟩ | ⟨hnot, -⟩
    · rw [heq]
    · exact absurd ⟨bytes, h⟩ hnot

/-- Exactly the loose addresses are accepted. -/
theorem fst_macToBytes_iff {mac : String} (hne : mac ≠ "") :
    (macToBytes lone0x mac).1 = true ↔ ∃ bytes, Loose lone0x (cText mac) bytes := by
  constructor
  · intro h
    rcases macToBytes_cases hne with ⟨bytes, hloose, -⟩ | ⟨-, heq⟩
    · exact ⟨bytes, hloose⟩
    · rw [heq] at h
      cases h
  · rintro ⟨bytes, hloose⟩
    exact fst_macToBytes_of_loose hloose

/-- A rejected text leaves the address zero. -/
theorem snd_macToBytes_of_rejected {mac : String} (hne : mac ≠ "")
    (h : (macToBytes lone0x mac).1 = false) : (macToBytes lone0x mac).2 = List.replicate 6 0 := by
  rcases macToBytes_cases hne with ⟨bytes, -, heq⟩ | ⟨-, heq⟩
  · rw [heq] at h
    cases h
  · rw [heq]

/-! ## Other notations -/

/-- A text with a character among its first six that no field has is rejected: the notation
with dots, for one. -/
theorem macToBytes_of_stray {mac : String} {c : Char} (hc : c ∈ (cText mac).take 6)
    (hstray : ¬ InField c) : (macToBytes lone0x mac).1 = false := by
  have hne : mac ≠ "" := by
    rintro rfl
    cases hc
  rw [Bool.eq_false_iff, Ne, fst_macToBytes_iff hne]
  rintro ⟨bytes, hloose⟩
  exact hstray (hloose.inField c hc)

/-- An address with dashes is accepted. -/
theorem fst_macToBytes_dashed {groups : List (List Char)} {bytes : List UInt8}
    (h : List.Forall₂ Group groups bytes) (hlen : bytes.length = 6) :
    (macToBytes lone0x (String.ofList (List.intercalate ['-'] groups))).1 = true := by
  obtain ⟨bytes', hloose⟩ := loose_dashed h hlen
  -- dashes, letters and digits: no NUL cuts the text
  have htext : cText (String.ofList (List.intercalate ['-'] groups)) =
      List.intercalate ['-'] groups := by
    rw [cText_of_chars, String.toList_ofList]
    rw [String.toList_ofList]
    rintro c hc rfl
    rcases chars_intercalate ['-'] h _ hc with hdash | halnum
    · exact absurd hdash (by decide)
    · cases halnum
  apply fst_macToBytes_of_loose
  rw [htext]
  exact hloose

/-! ## Read as written -/

/-- The text is accepted if and only if it denotes an address, the address is then the one it
denotes, and it is zero otherwise. -/
structure ReadExactly (lone0x : Bool) (mac : String) : Prop where
  accepted : (macToBytes lone0x mac).1 = true ↔ ∃ bytes, Denotes mac.toList bytes
  denoted : ∀ bytes, Denotes mac.toList bytes → (macToBytes lone0x mac).2 = bytes
  rejected : (macToBytes lone0x mac).1 = false → (macToBytes lone0x mac).2 = List.replicate 6 0

theorem readExactly_of_denotes {mac : String} {bytes : List UInt8}
    (h : Denotes mac.toList bytes) : ReadExactly lone0x mac := by
  have hread := macToBytes_of_denotes lone0x h
  constructor
  · simp only [hread, true_iff]
    exact ⟨bytes, h⟩
  · intro bytes' h'
    rw [macToBytes_of_denotes lone0x h']
  · intro hfalse
    rw [hread] at hfalse
    cases hfalse

/-- What no pattern finds is no address, and it is rejected. -/
theorem readExactly_of_not_loose {mac : String} (hne : mac ≠ "")
    (h : ¬ ∃ bytes, Loose lone0x (cText mac) bytes) : ReadExactly lone0x mac := by
  have hrejected : (macToBytes lone0x mac).1 ≠ true := fun htrue =>
    h ((fst_macToBytes_iff hne).mp htrue)
  have hnone : ¬ ∃ bytes, Denotes mac.toList bytes := by
    rintro ⟨bytes, hdenotes⟩
    exact hrejected (by rw [macToBytes_of_denotes lone0x hdenotes])
  constructor
  · exact iff_of_false hrejected hnone
  · intro bytes hdenotes
    exact absurd ⟨bytes, hdenotes⟩ hnone
  · exact snd_macToBytes_of_rejected hne

/-- A text is read as MAC addresses are written if and only if it is one or is no loose
address either, whatever the C library makes of a `0x`; six printed bytes are one. -/
theorem readExactly_iff (lone0x : Bool) (mac : String) (hne : mac ≠ "") (addr : List UInt8)
    (hlen : addr.length = 6) :
    (ReadExactly lone0x mac ↔
      (∃ bytes, Denotes mac.toList bytes) ∨ ¬ ∃ bytes, Loose lone0x (cText mac) bytes) ∧
      macToBytes lone0x (formatMac addr) = (true, addr) := by
  refine ⟨?_, macToBytes_formatMac hlen⟩
  constructor
  · intro h
    by_cases hloose : ∃ bytes, Loose lone0x (cText mac) bytes
    · -- a loose address is accepted, so it has to denote one
      exact .inl (h.accepted.mp ((fst_macToBytes_iff hne).mpr hloose))
    · exact .inr hloose
  · intro h
    cases h with
    | inl hdenotes => exact hdenotes.elim fun _ hbytes => readExactly_of_denotes hbytes
    | inr hnot => exact readExactly_of_not_loose hne hnot

-- a `0x` between colons, where it is a zero and where it is not a number
example : macToBytes true "0x:11:22:33:44:55" = (true, [0x00, 0x11, 0x22, 0x33, 0x44, 0x55]) ∧
    macToBytes false "0x:11:22:33:44:55" = (false, List.replicate 6 0) := by
  decide

/-- The notation of a switch, three groups of four digits with dots, is rejected. -/
theorem readExactly_iff_dots :
    ReadExactly true "0011.2233.4455" ∧
      macToBytes true (formatMac [0x02, 0x00, 0x5E, 0x10, 0xFF, 0x01]) =
        (true, [0x02, 0x00, 0x5E, 0x10, 0xFF, 0x01]) := by
  have hboth := readExactly_iff true "0011.2233.4455" (by decide)
    [0x02, 0x00, 0x5E, 0x10, 0xFF, 0x01] rfl
  refine ⟨hboth.1.mpr (.inr ?_), hboth.2⟩
  rintro ⟨bytes, hloose⟩
  exact not_inField_dot (hloose.inField '.' (by decide))

/-- The notation with dashes is accepted, and is another address. -/
theorem not_readExactly_dashes :
    macToBytes true "00-11-22-33-44-55" = (true, [0x00, 0xFF, 0x01, 0xFE, 0x02, 0xFD]) ∧
      ¬ ReadExactly true "00-11-22-33-44-55" := by
  have hread : macToBytes true "00-11-22-33-44-55" =
      (true, [0x00, 0xFF, 0x01, 0xFE, 0x02, 0xFD]) := by decide
  refine ⟨hread, fun h => ?_⟩
  obtain ⟨bytes, hdenotes⟩ := h.accepted.mp (by rw [hread])
  cases hdenotes.chars '-' (by decide) <;> contradiction

end TrafficGen
