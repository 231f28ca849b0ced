import Mathlib.Data.Bool.AllAny
import TrafficGen.ForStd.JsonString
import TrafficGen.ForStd.JsonText

/-!
# Texts of JSON objects

A text is an object when it renders the tokens of one, and its strings, numbers and literals are
of the grammar. The end of an object is found by counting brackets outside strings (`scan`), so a
text that goes on behind one is no other object.

## Key results

- `IsObject.scan_eq`: all brackets of an object are closed, and all its strings
- `not_isObject_of_cut`: an object cut off anywhere before its last bracket is none
-/

namespace Json

/-! ## The grammar -/

/-- The characters between the quotes of a string. -/
inductive IsStringBody : List Char → Prop
  | nil : IsStringBody []
  | plain {c : Char} {s : List Char} (hquote : c ≠ '"') (hback : c ≠ '\\')
      (hctl : 0x20 ≤ c.toNat) (hs : IsStringBody s) : IsStringBody (c :: s)
  | short {e : Char} {s : List Char} (he : e ∈ shortEscapes.map Prod.fst)
      (hs : IsStringBody s) : IsStringBody ('\\' :: e :: s)
  | unicode {hex s : List Char} {n : Nat} (hhex : Hex4 hex n) (hs : IsStringBody s) :
      IsStringBody ('\\' :: 'u' :: (hex ++ s))

/-- One digit or more. -/
def IsDigits (s : List Char) : Prop := s ≠ [] ∧ ∀ c ∈ s, c.isDigit = true

/-- A number: an integer without leading zeros, then perhaps a fraction and an exponent. -/
inductive IsNumber : List Char → Prop
  | mk {sign int frac exp : List Char} (hsign : sign = [] ∨ sign = ['-'])
      (hint : int = ['0'] ∨ IsDigits int ∧ int.head? ≠ some '0')
      (hfrac : frac = [] ∨ ∃ ds, frac = '.' :: ds ∧ IsDigits ds)
      (hexp : exp = [] ∨ ∃ e expSign ds, exp = e :: (expSign ++ ds) ∧ (e = 'e' ∨ e = 'E') ∧
        (expSign = [] ∨ expSign = ['+'] ∨ expSign = ['-']) ∧ IsDigits ds) :
      IsNumber (sign ++ (int ++ (frac ++ exp)))

/-- A token of the grammar. -/
def Token.IsLexical : Token → Prop
  | .str body => IsStringBody body.toList
  | .word text => text ∈ ["true", "false", "null"] ∨ IsNumber text.toList
  | .punct c => IsPunct c

/-- The text of an object. -/
def IsObject (text : List Char) : Prop :=
  ∃ ms, (∀ t ∈ (obj ms).tokens, t.IsLexical) ∧ Renders (obj ms).tokens text

example : IsObject ['{', ' ', '}', '\n'] := by
  have hlexical : ∀ t ∈ (obj []).tokens, t.IsLexical := by
    intro t ht
    rcases List.mem_pair.mp ht with rfl | rfl
    · exact .inl rfl
    · exact .inr (.inl rfl)
  have hblank : ∀ c ∈ ['\n'], IsSpace c := List.forall_mem_singleton.mpr (.inr (.inr (.inl rfl)))
  exact ⟨[], hlexical, @Renders.cons [] _ _ _ (List.forall_mem_nil _)
    (@Renders.cons [' '] _ _ _ (List.forall_mem_singleton.mpr (.inl rfl)) (.nil hblank))⟩

/-! ## Counting brackets -/

/-- Where in a text a character stands: outside strings, in one, or behind a backslash in one. -/
inductive Mode where
  | outside
  | inside
  | escaped
deriving DecidableEq, Repr

/-- What is known of the text so far: `depth` is the number of brackets opened, less those
    closed. -/
structure Scan where
  mode : Mode
  depth : Int
deriving DecidableEq, Repr

/-- How a character outside strings changes the depth. -/
def nest (c : Char) : Int :=
  if c = '{' ∨ c = '[' then 1 else if c = '}' ∨ c = ']' then -1 else 0

def Scan.step (s : Scan) (c : Char) : Scan :=
  match s.mode with
  | .outside =>
    if c = '"' then { s with mode := .inside } else { s with depth := s.depth + nest c }
  | .inside =>
    if c = '"' then { s with mode := .outside }
    else if c = '\\' then { s with mode := .escaped }
    else s
  | .escaped => { s with mode := .inside }

/-- The count after a text. -/
def scan (s : Scan) (text : List Char) : Scan := text.foldl Scan.step s

@[simp] theorem scan_nil (s : Scan) : scan s [] = s := rfl

theorem scan_cons (s : Scan) (c : Char) (text : List Char) :
    scan s (c :: text) = scan (s.step c) text := rfl

theorem scan_append (s : Scan) (a b : List Char) : scan s (a ++ b) = scan (scan s a) b :=
  List.foldl_append

theorem step_outside {c : Char} (hc : c ≠ '"') (d : Int) :
    Scan.step ⟨.outside, d⟩ c = ⟨.outside, d + nest c⟩ :=
  if_neg hc

theorem step_inside {c : Char} (hquote : c ≠ '"') (hback : c ≠ '\\') (d : Int) :
    Scan.step ⟨.inside, d⟩ c = ⟨.inside, d⟩ :=
  (if_neg hquote).trans (if_neg hback)

/-- A backslash takes the next character with it. -/
theorem step_escape (c : Char) (d : Int) :
    Scan.step (Scan.step ⟨.inside, d⟩ '\\') c = ⟨.inside, d⟩ := rfl

/-- Characters that are neither quotes nor brackets change nothing. -/
theorem scan_outside {a : List Char} (ha : ∀ c ∈ a, c ≠ '"' ∧ nest c = 0) (d : Int) :
    scan ⟨.outside, d⟩ a = ⟨.outside, d⟩ := by
  induction a with
  | nil => rfl
  | cons c a ih =>
    obtain ⟨⟨hquote, hnest⟩, ha⟩ := List.forall_mem_cons.mp ha
    rw [scan_cons, step_outside hquote, hnest, Int.add_zero, ih ha]

/-- In a string, characters that are neither quotes nor backslashes change nothing. -/
theorem scan_inside {a : List Char} (ha : ∀ c ∈ a, c ≠ '"' ∧ c ≠ '\\') (d : Int) :
    scan ⟨.inside, d⟩ a = ⟨.inside, d⟩ := by
  induction a with
  | nil => rfl
  | cons c a ih =>
    obtain ⟨⟨hquote, hback⟩, ha⟩ := List.forall_mem_cons.mp ha
    rw [scan_cons, step_inside hquote hback, ih ha]

theorem Hex4.ne_of_mem {hex : List Char} {n : Nat} (h : Hex4 hex n) :
    ∀ c ∈ hex, c ≠ '"' ∧ c ≠ '\\' := by
  intro c hc
  have halnum := h.isAlphanum.2 c hc
  constructor
  · rintro rfl
    exact absurd halnum (by decide)
  · rintro rfl
    exact absurd halnum (by decide)

/-- A string does not end in its body. -/
theorem IsStringBody.scan_eq {body : List Char} (h : IsStringBody body) (d : Int) :
    scan ⟨.inside, d⟩ body = ⟨.inside, d⟩ := by
  induction h with
  | nil => rfl
  | plain hquote hback _ _ ih => rw [scan_cons, step_inside hquote hback, ih]
  | short _ _ ih => rw [scan_cons, scan_cons, step_escape, ih]
  | unicode hhex _ ih =>
    rw [scan_cons, scan_cons, step_escape, scan_append, scan_inside hhex.ne_of_mem, ih]

theorem IsStringBody.scan_mode {body : List Char} (h : IsStringBody body) (d : Int)
    {a b : List Char} (hab : body = a ++ b) : (scan ⟨.inside, d⟩ a).mode ≠ .outside := by
  have hinside : Mode.inside ≠ .outside := by decide
  have hescaped : Mode.escaped ≠ .outside := by decide
  induction h generalizing a with
  | nil =>
    rw [(List.append_eq_nil_iff.mp hab.symm).1]
    exact hinside
  | plain hquote hback _ _ ih =>
    cases a with
    | nil => exact hinside
    | cons c a =>
      obtain ⟨rfl, htail⟩ := List.cons.inj hab
      rw [scan_cons, step_inside hquote hback]
      exact ih htail
  | short _ _ ih =>
    match a with
    | [] => exact hinside
    | [c] =>
      obtain ⟨rfl, -⟩ := List.cons.inj hab
      exact hescaped
    | c :: e :: a =>
      obtain ⟨rfl, htail⟩ := List.cons.inj hab
      rw [scan_cons, scan_cons, step_escape]
      exact ih (List.cons.inj htail).2
  | @unicode hex s n hhex _ ih =>
    match a with
    | [] => exact hinside
    | [c] =>
      obtain ⟨rfl, -⟩ := List.cons.inj hab
      exact hescaped
    | c :: e :: a =>
      obtain ⟨rfl, htail⟩ := List.cons.inj hab
      rw [scan_cons, scan_cons, step_escape]
      rcases List.append_eq_append_iff.mp (List.cons.inj htail).2 with
        ⟨a', rfl, hs⟩ | ⟨c', hc, -⟩
      · rw [scan_append, scan_inside hhex.ne_of_mem]
        exact ih hs
      · rw [scan_inside]
        · exact hinside
        · intro c hmem
          exact hhex.ne_of_mem c (hc ▸ List.mem_append_left _ hmem)

/-! ## Tokens -/

/-- How a token changes the depth. -/
def Token.nest : Token → Int
  | .punct c => Json.nest c
  | _ => 0

/-- How tokens change the depth. -/
def nesting : List Token → Int
  | [] => 0
  | t :: ts => t.nest + nesting ts

theorem nesting_cons (t : Token) (ts : List Token) : nesting (t :: ts) = t.nest + nesting ts := rfl

theorem nesting_append (ts us : List Token) : nesting (ts ++ us) = nesting ts + nesting us := by
  induction ts with
  | nil => exact (Int.zero_add _).symm
  | cons t ts ih => rw [List.cons_append, nesting_cons, nesting_cons, ih, Int.add_assoc]

theorem nest_of_isDigit {c : Char} (h : c.isDigit = true) : c ≠ '"' ∧ nest c = 0 := by
  have hne : ∀ d : Char, d.isDigit = false → c ≠ d := by
    rintro d hd rfl
    rw [h] at hd
    cases hd
  refine ⟨hne _ (by decide), ?_⟩
  rw [nest, if_neg, if_neg]
  · exact not_or.mpr ⟨hne _ (by decide), hne _ (by decide)⟩
  · exact not_or.mpr ⟨hne _ (by decide), hne _ (by decide)⟩

/-- A number has digits, signs, a point and an exponent letter. -/
theorem IsNumber.nest {s : List Char} (h : IsNumber s) : ∀ c ∈ s, c ≠ '"' ∧ nest c = 0 := by
  obtain ⟨hsign, hint, hfrac, hexp⟩ := h
  have hdigits : ∀ {ds : List Char}, IsDigits ds → ∀ c ∈ ds, c ≠ '"' ∧ Json.nest c = 0 :=
    fun hds c hc => nest_of_isDigit (hds.2 c hc)
  simp only [List.forall_mem_append]
  refine ⟨?_, ?_, ?_, ?_⟩
  · rcases hsign with rfl | rfl <;> simp [Json.nest]
  · rcases hint with rfl | ⟨hint, -⟩
    · simp [Json.nest]
    · exact hdigits hint
  · rcases hfrac with rfl | ⟨ds, rfl, hds⟩
    · simp
    · exact List.forall_mem_cons.mpr ⟨by decide, hdigits hds⟩
  · rcases hexp with rfl | ⟨e, expSign, ds, rfl, he, hsign, hds⟩
    · simp
    · refine List.forall_mem_cons.mpr ⟨?_, List.forall_mem_append.mpr ⟨?_, hdigits hds⟩⟩
      · rcases he with rfl | rfl <;> decide
      · rcases hsign with rfl | rfl | rfl <;> simp [Json.nest]

theorem nest_of_isSpace {c : Char} (h : IsSpace c) : c ≠ '"' ∧ nest c = 0 := by
  rcases h with rfl | rfl | rfl | rfl <;> decide

namespace Token

variable {t : Token}

theorem IsLexical.word {text : String} (h : (Token.word text).IsLexical) :
    ∀ c ∈ text.toList, c ≠ '"' ∧ Json.nest c = 0 := by
  rcases h with hliteral | hnumber
  · simp only [List.mem_cons, List.not_mem_nil, or_false] at hliteral
    rcases hliteral with rfl | rfl | rfl <;> exact List.all_iff_forall_prop.mp (by decide)
  · exact hnumber.nest

theorem IsLexical.punct {c : Char} (h : (Token.punct c).IsLexical) : c ≠ '"' := by
  rintro rfl
  exact absurd (show IsPunct '"' from h) (by decide)

/-- Behind a token the count is outside strings again. -/
theorem IsLexical.scan_chars (ht : t.IsLexical) (d : Int) :
    scan ⟨.outside, d⟩ t.chars = ⟨.outside, d + t.nest⟩ := by
  cases t with
  | str body =>
    show scan ⟨.inside, d⟩ (body.toList ++ ['"']) = ⟨.outside, d + 0⟩
    rw [scan_append, IsStringBody.scan_eq ht, Int.add_zero]
    rfl
  | word text =>
    show scan ⟨.outside, d⟩ text.toList = ⟨.outside, d + 0⟩
    rw [scan_outside ht.word, Int.add_zero]
  | punct c => exact step_outside ht.punct d

/-- Within a token it is inside a string, or as in front of the token. -/
theorem IsLexical.scan_part (ht : t.IsLexical) (d : Int) {a b : List Char}
    (hab : t.chars = a ++ b) (hb : b ≠ []) :
    (scan ⟨.outside, d⟩ a).mode ≠ .outside ∨ scan ⟨.outside, d⟩ a = ⟨.outside, d⟩ := by
  cases t with
  | str body =>
    cases a with
    | nil => exact .inr rfl
    | cons q a =>
      obtain ⟨rfl, htail⟩ := List.cons.inj hab
      left
      show (scan ⟨.inside, d⟩ a).mode ≠ .outside
      rcases List.append_eq_append_iff.mp htail with ⟨a', ha, hq⟩ | ⟨c', hbody, -⟩
      · -- the closing quote is still to come
        have hnil : a' = [] := by
          cases a' with
          | nil => rfl
          | cons q a' =>
            have := (List.cons.inj hq).2
            exact absurd (List.append_eq_nil_iff.mp this.symm).2 hb
        rw [hnil, List.append_nil] at ha
        exact IsStringBody.scan_mode ht d (ha.symm.trans (List.append_nil a).symm)
      · exact IsStringBody.scan_mode ht d hbody
  | word text =>
    right
    apply scan_outside
    intro c hc
    exact ht.word c (show c ∈ (Token.word text).chars from hab ▸ List.mem_append_left _ hc)
  | punct c =>
    cases a with
    | nil => exact .inr rfl
    | cons q a =>
      have := (List.cons.inj hab).2
      exact absurd (List.append_eq_nil_iff.mp this.symm).2 hb

end Token

namespace Renders

variable {ts : List Token} {s : List Char}

/-- A text changes the depth as its tokens do. -/
theorem scan_eq (h : Renders ts s) (hts : ∀ t ∈ ts, t.IsLexical) (d : Int) :
    scan ⟨.outside, d⟩ s = ⟨.outside, d + nesting ts⟩ := by
  induction h generalizing d with
  | nil hws =>
    rw [scan_outside fun c hc => nest_of_isSpace (hws c hc)]
    exact congrArg _ (Int.add_zero d).symm
  | cons hws hs ih =>
    obtain ⟨ht, hts⟩ := List.forall_mem_cons.mp hts
    rw [scan_append, scan_outside fun c hc => nest_of_isSpace (hws c hc), scan_append,
      ht.scan_chars, ih hts, nesting_cons, Int.add_assoc]

/-- Wherever a text is cut, the cut is inside a string or the count is that of the tokens in
    front of it. Only blanks are behind it when these are all the tokens. -/
theorem scan_cut (h : Renders ts s) (hts : ∀ t ∈ ts, t.IsLexical) (d : Int) {a b : List Char}
    (hab : s = a ++ b) :
    (scan ⟨.outside, d⟩ a).mode ≠ .outside ∨
      ∃ us vs, ts = us ++ vs ∧ scan ⟨.outside, d⟩ a = ⟨.outside, d + nesting us⟩ ∧
        (vs = [] → ∀ c ∈ b, IsSpace c) := by
  induction h generalizing d a with
  | nil hws =>
    right
    subst hab
    refine ⟨[], [], rfl, ?_, fun _ c hc => hws c (List.mem_append_right a hc)⟩
    rw [scan_outside fun c hc => nest_of_isSpace (hws c (List.mem_append_left b hc))]
    exact congrArg _ (Int.add_zero d).symm
  | @cons ws t ts s hws hs ih =>
    obtain ⟨ht, hts⟩ := List.forall_mem_cons.mp hts
    have hblank := scan_outside (fun c hc => nest_of_isSpace (hws c hc)) d
    have hbefore : ∀ a, scan ⟨.outside, d⟩ a = ⟨.outside, d⟩ →
        ∃ us vs, t :: ts = us ++ vs ∧ scan ⟨.outside, d⟩ a = ⟨.outside, d + nesting us⟩ ∧
          (vs = [] → ∀ c ∈ b, IsSpace c) := by
      intro a ha
      refine ⟨[], t :: ts, rfl, ?_, fun hnil => absurd hnil (List.cons_ne_nil t ts)⟩
      rw [ha]
      exact congrArg _ (Int.add_zero d).symm
    have hbehind : ∀ a, s = a ++ b →
        (scan ⟨.outside, d⟩ (t.chars ++ a)).mode ≠ .outside ∨
          ∃ us vs, t :: ts = us ++ vs ∧
            scan ⟨.outside, d⟩ (t.chars ++ a) = ⟨.outside, d + nesting us⟩ ∧
            (vs = [] → ∀ c ∈ b, IsSpace c) := by
      intro a ha
      rw [scan_append, ht.scan_chars]
      apply (ih hts _ ha).imp_right
      rintro ⟨us, vs, hsplit, hscan, hvs⟩
      refine ⟨t :: us, vs, congrArg (t :: ·) hsplit, ?_, hvs⟩
      rw [hscan, nesting_cons, Int.add_assoc]
    rcases List.append_eq_append_iff.mp hab with ⟨a', rfl, hrest⟩ | ⟨c', rfl, -⟩
    · rw [scan_append, hblank]
      rcases List.append_eq_append_iff.mp hrest with ⟨a'', rfl, hs'⟩ | ⟨c', hchars, hb⟩
      · exact hbehind a'' hs'
      · cases c' with
        | nil =>
          -- right behind the token
          rw [List.append_nil] at hchars
          have := hbehind [] hb.symm
          rwa [List.append_nil, hchars] at this
        | cons q c' => exact (ht.scan_part d hchars (List.cons_ne_nil q c')).imp_right (hbefore a')
    · -- in the blanks before the token
      right
      exact hbefore a (scan_outside
        (fun c hc => nest_of_isSpace (hws c (List.mem_append_left _ hc))) d)

end Renders

/-! ## Documents -/

/-- The tokens close all brackets they open, and no other. -/
structure Level (ts : List Token) : Prop where
  total : nesting ts = 0
  nonneg : ∀ us vs, ts = us ++ vs → 0 ≤ nesting us

namespace Level

theorem nil : Level [] where
  total := rfl
  nonneg us vs h := by
    rw [(List.append_eq_nil_iff.mp h.symm).1]
    exact Int.le_refl 0

theorem append {ts us : List Token} (ht : Level ts) (hu : Level us) : Level (ts ++ us) where
  total := by rw [nesting_append, ht.total, hu.total, Int.add_zero]
  nonneg as bs h := by
    rcases List.append_eq_append_iff.mp h with ⟨a', rfl, hrest⟩ | ⟨c', rfl, -⟩
    · rw [nesting_append, ht.total, Int.zero_add]
      exact hu.nonneg a' bs hrest
    · exact ht.nonneg as c' rfl

theorem cons {t : Token} (ht : t.nest = 0) {ts : List Token} (h : Level ts) :
    Level (t :: ts) where
  total := by rw [nesting_cons, ht, h.total, Int.add_zero]
  nonneg us vs hsplit := by
    cases us with
    | nil => exact Int.le_refl 0
    | cons u us =>
      obtain ⟨rfl, hrest⟩ := List.cons.inj hsplit
      rw [nesting_cons, ht, Int.zero_add]
      exact h.nonneg us vs hrest

/-- With a closing bracket behind, the depth falls by one at the most. -/
theorem nesting_append_closing {c : Char} (hc : nest c = -1) {ts us vs : List Token}
    (h : Level ts) (hsplit : ts ++ [.punct c] = us ++ vs) :
    0 ≤ nesting us ∨ nesting us = -1 ∧ vs = [] := by
  rcases List.append_eq_append_iff.mp hsplit with ⟨a', rfl, hrest⟩ | ⟨c', rfl, -⟩
  · rw [nesting_append, h.total, Int.zero_add]
    cases a' with
    | nil => exact .inl (Int.le_refl 0)
    | cons u a' =>
      obtain ⟨rfl, hnil⟩ := List.cons.inj hrest
      obtain ⟨rfl, rfl⟩ := List.append_eq_nil_iff.mp hnil.symm
      exact .inr ⟨(nesting_cons (.punct c) []).trans ((Int.add_zero _).trans hc), rfl⟩
  · exact .inl (h.nonneg us c' rfl)

theorem wrap {o c : Char} (ho : nest o = 1) (hc : nest c = -1) {ts : List Token} (h : Level ts) :
    Level (.punct o :: (ts ++ [.punct c])) where
  total := by
    rw [nesting_cons, nesting_append, h.total, nesting_cons]
    show nest o + (0 + (nest c + 0)) = 0
    rw [ho, hc]
    rfl
  nonneg us vs hsplit := by
    cases us with
    | nil => exact Int.le_refl 0
    | cons u us =>
      obtain ⟨rfl, hrest⟩ := List.cons.inj hsplit
      have hinner := h.nesting_append_closing hc hrest
      rw [nesting_cons]
      show 0 ≤ nest o + nesting us
      omega

theorem intercalate {l : List (List Token)} (h : ∀ ts ∈ l, Level ts) :
    Level (List.intercalate [.punct ','] l) := by
  induction l with
  | nil => exact nil
  | cons ts l ih =>
    obtain ⟨hts, hl⟩ := List.forall_mem_cons.mp h
    cases l with
    | nil =>
      rw [List.intercalate_singleton]
      exact hts
    | cons us l =>
      rw [List.intercalate_cons_cons]
      exact (hts.append (cons rfl nil)).append (ih hl)

end Level

mutual

theorem level_tokens (v : Json) : Level v.tokens := by
  cases v with
  | str body => exact .cons rfl .nil
  | word text => exact .cons rfl .nil
  | arr items =>
    rw [tokens]
    exact (Level.intercalate (level_itemTokens items)).wrap rfl rfl
  | obj members =>
    rw [tokens]
    exact (Level.intercalate (level_memberTokens members)).wrap rfl rfl

theorem level_itemTokens (vs : List Json) : ∀ ts ∈ itemTokens vs, Level ts := by
  cases vs with
  | nil => exact List.forall_mem_nil _
  | cons v vs =>
    rw [itemTokens, List.forall_mem_cons]
    exact ⟨level_tokens v, level_itemTokens vs⟩

theorem level_memberTokens (ms : List (String × Json)) : ∀ ts ∈ memberTokens ms, Level ts := by
  cases ms with
  | nil => exact List.forall_mem_nil _
  | cons m ms =>
    rw [memberTokens, List.forall_mem_cons]
    exact ⟨.cons rfl (.cons rfl (level_tokens m.2)), level_memberTokens ms⟩

end

/-! ## Objects -/

/-- All brackets of an object are closed, and all its strings. -/
theorem IsObject.scan_eq {text : List Char} (h : IsObject text) :
    scan ⟨.outside, 0⟩ text = ⟨.outside, 0⟩ := by
  obtain ⟨ms, hlexical, htext⟩ := h
  rw [htext.scan_eq hlexical, (level_tokens (obj ms)).total]
  rfl

/-- An object starts with its bracket, and the tokens behind it end with the other one. -/
theorem IsObject.exists_cons {text : List Char} (h : IsObject text) :
    ∃ ws s ts, text = ws ++ '{' :: s ∧ (∀ c ∈ ws, IsSpace c) ∧ Level ts ∧
      (∀ t ∈ ts ++ [.punct '}'], t.IsLexical) ∧ Renders (ts ++ [.punct '}']) s := by
  obtain ⟨ms, hlexical, htext⟩ := h
  rw [tokens] at hlexical htext
  cases htext with
  | @cons ws _ _ s hws hs =>
    exact ⟨ws, s, _, rfl, hws, Level.intercalate (level_memberTokens ms),
      (List.forall_mem_cons.mp hlexical).2, hs⟩

theorem not_isSpace_brace : ¬ IsSpace '{' := by
  simp [IsSpace]

/-- A text that goes on behind an object is another object only if it goes on with blanks. -/
theorem IsObject.isSpace_of_append {a b : List Char} (ha : IsObject a) (hab : IsObject (a ++ b)) :
    ∀ c ∈ b, IsSpace c := by
  obtain ⟨ws, s, ts, rfl, hws, hlevel, hlexical, hs⟩ := ha.exists_cons
  obtain ⟨ws', s', ts', htext, hws', hlevel', hlexical', hs'⟩ := hab.exists_cons
  rw [List.append_assoc, List.cons_append] at htext
  -- both start at the first bracket
  have hmark : ws ++ ['{'] <+: ws' ++ '{' :: s' :=
    ⟨s ++ b, (List.append_assoc ws ['{'] (s ++ b)).trans htext⟩
  have hsame : ws = ws' := List.eq_of_marked_prefix (fun h => not_isSpace_brace (hws _ h))
    (fun h => not_isSpace_brace (hws' _ h)) hmark
  subst hsame
  have hs'eq : s ++ b = s' := (List.cons.inj (List.append_cancel_left htext)).2
  -- the count is back at zero behind the first object
  have hclosed : scan ⟨.outside, 1⟩ s = ⟨.outside, 0⟩ := by
    rw [hs.scan_eq hlexical, nesting_append, hlevel.total]
    rfl
  rcases hs'.scan_cut hlexical' 1 hs'eq.symm with hmode | ⟨us, vs, hsplit, hscan, hblank⟩
  · rw [hclosed] at hmode
    exact absurd rfl hmode
  · rw [hclosed] at hscan
    have hdepth : (0 : Int) = 1 + nesting us := congrArg Scan.depth hscan
    rcases hlevel'.nesting_append_closing rfl hsplit with hle | ⟨-, hvs⟩
    · omega
    · exact hblank hvs

/-- An object that is cut off before its last bracket is none. -/
theorem not_isObject_of_cut {a b : List Char} (hab : IsObject (a ++ b))
    (hcut : ∃ c ∈ b, ¬ IsSpace c) : ¬ IsObject a := by
  intro ha
  obtain ⟨c, hc, hspace⟩ := hcut
  exact hspace (ha.isSpace_of_append hab c hc)

end Json
