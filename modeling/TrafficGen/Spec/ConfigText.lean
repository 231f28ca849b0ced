import Mathlib.Data.Bool.AllAny
import Mathlib.Data.List.TakeWhile
import TrafficGen.ForStd.JsonText
import TrafficGen.Util.ConfigParser

/-!
# Reading a rendered configuration

The parser at the front of a text that renders a value: where the value ends, what number its
digits denote, and how an array is cut into its objects. A value ends where the document ends it
when its strings hold no quote, backslash or bracket of the kind being counted.
-/

namespace TrafficGen.ConfigParser

open Json (Token Renders)

/-! ## The front of a text -/

theorem not_mem_of_space {ws : List Char} (hws : ∀ c ∈ ws, Json.IsSpace c) {c : Char}
    (hc : ¬ Json.IsSpace c) : c ∉ ws :=
  fun h => hc (hws c h)

theorem isSpace_of_json {c : Char} (h : Json.IsSpace c) : isSpace c = true := by
  rcases h with rfl | rfl | rfl | rfl
  all_goals decide

theorem dropWhile_space_append {ws : List Char} (hws : ∀ c ∈ ws, Json.IsSpace c)
    (s : List Char) : (ws ++ s).dropWhile isSpace = s.dropWhile isSpace := by
  induction ws with
  | nil => rfl
  | cons c ws ih =>
    rw [List.forall_mem_cons] at hws
    rw [List.cons_append, List.dropWhile_cons_of_pos (isSpace_of_json hws.1), ih hws.2]

/-- White space in front of a token is passed over. -/
theorem dropWhile_isSpace {t : Token} {ts : List Token} {s : List Char} (h : Renders (t :: ts) s)
    (ht : ∃ c ∈ t.chars.head?, isSpace c = false) :
    ∃ rest, s.dropWhile isSpace = t.chars ++ rest ∧ Renders ts rest := by
  cases h with
  | @cons ws _ _ rest hws hrest =>
    obtain ⟨c, hc, hspace⟩ := ht
    refine ⟨rest, ?_, hrest⟩
    rw [dropWhile_space_append hws]
    cases hchars : t.chars with
    | nil => simp [hchars] at hc
    | cons d cs =>
      simp only [hchars, List.head?_cons, Option.mem_some_iff] at hc
      subst hc
      rw [List.cons_append, List.dropWhile_cons_of_neg (by simp [hspace])]

/-- A raw value starts like the value. -/
theorem head?_rawValue {t : Token} {ts : List Token} {s : List Char} (h : Renders (t :: ts) s)
    {c : Char} (hc : t.chars.head? = some c) (hspace : isSpace c = false) :
    rawValue s = [] ∨ (rawValue s).head? = some c := by
  obtain ⟨rest, hs, -⟩ := dropWhile_isSpace h ⟨c, hc, hspace⟩
  cases hchars : t.chars with
  | nil => simp [hchars] at hc
  | cons d cs =>
    obtain rfl : d = c := by simpa [hchars] using hc
    unfold rawValue
    rw [hs, hchars, List.cons_append]
    dsimp only
    split
    · split
      · exact .inl rfl
      · exact .inr rfl
    · split
      · split
        · exact .inl rfl
        · exact .inr rfl
      · rw [List.takeWhile_cons]
        split
        · exact .inr rfl
        · exact .inl rfl

/-! ## Strings -/

/-- A string without quotes or backslashes ends at its quote. -/
theorem closeQuote_append {body : List Char} (hbody : ∀ c ∈ body, c ≠ '"' ∧ c ≠ '\\')
    {prev : Char} (hprev : prev ≠ '\\') (s : List Char) :
    closeQuote prev (body ++ '"' :: s) = some (body ++ ['"']) := by
  induction body generalizing prev with
  | nil => rw [List.nil_append, closeQuote, if_pos ⟨rfl, hprev⟩, List.nil_append]
  | cons c body ih =>
    rw [List.forall_mem_cons] at hbody
    rw [List.cons_append, closeQuote, if_neg (fun h => hbody.1.1 h.1), ih hbody.2 hbody.1.2]
    rfl

theorem rawValue_str {body : String} (hbody : ∀ c ∈ body.toList, c ≠ '"' ∧ c ≠ '\\')
    {ts : List Token} {s : List Char} (h : Renders (.str body :: ts) s) :
    rawValue s = quoted body := by
  obtain ⟨rest, hs, -⟩ := dropWhile_isSpace h ⟨'"', rfl, by decide⟩
  have hclose : closeQuote '"' (body.toList ++ '"' :: rest) = _ :=
    closeQuote_append hbody (by decide) rest
  unfold rawValue
  rw [hs]
  simp only [Token.chars, List.cons_append, List.append_assoc, List.nil_append, if_true, hclose]
  rfl

/-! ## Words -/

/-- A word of letters and digits, as numbers and truth values are. -/
def IsWord (w : String) : Prop := w.toList ≠ [] ∧ ∀ c ∈ w.toList, c.isAlphanum = true

theorem ne_of_isAlphanum {c d : Char} (hc : c.isAlphanum = true) (hd : d.isAlphanum = false) :
    c ≠ d := by
  intro heq
  rw [heq, hd] at hc
  cases hc

theorem isSpace_of_isAlphanum {c : Char} (hc : c.isAlphanum = true) : isSpace c = false := by
  have hlow : ¬ c.toNat < 48 := by
    intro hlt
    have hall : ∀ n < 48, (Char.ofNat n).isAlphanum = false := by decide
    rw [← Char.ofNat_toNat c, hall _ hlt] at hc
    cases hc
  have hspace : c ≠ ' ' := ne_of_isAlphanum hc (by decide)
  have hle : ¬ c ≤ '\r' := fun h => hlow (Nat.lt_of_le_of_lt h (by decide))
  simp [isSpace, hspace, hle]

/-- A character of a value that is written without quotes and brackets. -/
def IsBare (c : Char) : Prop :=
  isSpace c = false ∧ c ≠ '"' ∧ ¬ (c = '{' ∨ c = '[') ∧ (c ≠ ',' && c ≠ '}' && c ≠ ']') = true

theorem isBare_of_isAlphanum {c : Char} (hc : c.isAlphanum = true) : IsBare c := by
  refine ⟨isSpace_of_isAlphanum hc, ne_of_isAlphanum hc (by decide), ?_, ?_⟩
  · intro h
    cases h with
    | inl hbrace => exact ne_of_isAlphanum hc (by decide) hbrace
    | inr hsquare => exact ne_of_isAlphanum hc (by decide) hsquare
  · simp [ne_of_isAlphanum hc (d := ',') (by decide), ne_of_isAlphanum hc (d := '}') (by decide),
      ne_of_isAlphanum hc (d := ']') (by decide)]

/-- The raw value of such characters is all of them, with the blanks behind them. -/
theorem rawValue_bare {w : List Char} (hne : w ≠ []) (hw : ∀ c ∈ w, IsBare c)
    {ws ws' rest : List Char} {d : Char} (hws : ∀ c ∈ ws, Json.IsSpace c)
    (hws' : ∀ c ∈ ws', Json.IsSpace c) (hd : d = ',' ∨ d = '}') :
    rawValue (ws ++ (w ++ (ws' ++ d :: rest))) = w ++ ws' := by
  have hspace : ∀ c ∈ ws', (c ≠ ',' && c ≠ '}' && c ≠ ']') = true := by
    intro c hc
    rcases hws' c hc with rfl | rfl | rfl | rfl
    all_goals decide
  have hend : (d :: rest).takeWhile (fun c => c ≠ ',' && c ≠ '}' && c ≠ ']') = [] := by
    rcases hd with rfl | rfl
    all_goals rfl
  cases hlist : w with
  | nil => exact absurd hlist hne
  | cons c cs =>
    obtain ⟨hc, hquote, hbracket, -⟩ := hw c (hlist ▸ List.mem_cons_self)
    unfold rawValue
    rw [dropWhile_space_append hws, List.cons_append, List.dropWhile_cons_of_neg (by simp [hc])]
    simp only [if_neg hquote, if_neg hbracket]
    rw [← List.cons_append, ← hlist, List.takeWhile_append_of_pos fun c hc => (hw c hc).2.2.2,
      List.takeWhile_append_of_pos hspace, hend, List.append_nil]

theorem rawValue_word {w : String} (hw : IsWord w) {d : Char} (hd : d = ',' ∨ d = '}')
    {ts : List Token} {s : List Char} (h : Renders (.word w :: .punct d :: ts) s) :
    ∃ ws, (∀ c ∈ ws, Json.IsSpace c) ∧ rawValue s = w.toList ++ ws := by
  have hbare : ∀ c ∈ w.toList, IsBare c := fun c hc => isBare_of_isAlphanum (hw.2 c hc)
  cases h with
  | cons hws hrest =>
    cases hrest with
    | cons hws' _ => exact ⟨_, hws', rawValue_bare hw.1 hbare hws hws' hd⟩

theorem isAlphanum_of_isDigit {c : Char} (hc : c.isDigit = true) : c.isAlphanum = true := by
  show (c.isAlpha || c.isDigit) = true
  rw [hc, Bool.or_true]

theorem isDigit_of_space {c : Char} (hc : Json.IsSpace c) : c.isDigit = false := by
  rcases hc with rfl | rfl | rfl | rfl
  all_goals decide

/-- The number of a run of digits, up to the largest of 64 bits. -/
def ofDigits (digits : List Char) : Option UInt64 :=
  if digits = [] then none
  else if UInt64.size ≤ Nat.ofDigitChars 10 digits 0 then some (UInt64.ofNat (UInt64.size - 1))
  else some (UInt64.ofNat (Nat.ofDigitChars 10 digits 0))

/-- What starts with neither white space nor a sign is read from its leading digits. -/
theorem strtoull_cons {c : Char} (hspace : isSpace c = false) (hminus : c ≠ '-')
    (hplus : c ≠ '+') (s : List Char) :
    strtoull (c :: s) = ofDigits ((c :: s).takeWhile Char.isDigit) := by
  have hdrop : (c :: s).dropWhile isSpace = c :: s :=
    List.dropWhile_cons_of_neg (by simp [hspace])
  unfold strtoull ofDigits
  rw [hdrop]
  split
  next negative s' hsign =>
    split at hsign
    · next heq => exact absurd (List.cons.inj heq).1 hminus
    · next heq => exact absurd (List.cons.inj heq).1 hplus
    · cases hsign
      rfl

theorem strtoull_eq_none {c : Char} (hspace : isSpace c = false) (hdigit : c.isDigit = false)
    (hminus : c ≠ '-') (hplus : c ≠ '+') (s : List Char) : strtoull (c :: s) = none := by
  rw [strtoull_cons hspace hminus hplus, List.takeWhile_cons_of_neg (by simp [hdigit])]
  rfl

/-- A word is read from its leading digits, whatever white space is behind it. -/
theorem strtoull_word {w : List Char} (hne : w ≠ []) (hw : ∀ c ∈ w, c.isAlphanum = true)
    {ws : List Char} (hws : ∀ c ∈ ws, Json.IsSpace c) :
    strtoull (w ++ ws) = ofDigits (w.takeWhile Char.isDigit) := by
  have hdigits : (w ++ ws).takeWhile Char.isDigit = w.takeWhile Char.isDigit := by
    rw [List.takeWhile_append]
    split
    · next hlen =>
      have hspace : ws.takeWhile Char.isDigit = [] := by
        cases ws with
        | nil => rfl
        | cons c ws => simp [isDigit_of_space (hws c List.mem_cons_self)]
      rw [hspace, List.append_nil, List.IsPrefix.eq_of_length (List.takeWhile_prefix _) hlen]
    · rfl
  cases w with
  | nil => exact absurd rfl hne
  | cons c cs =>
    have hc := hw c List.mem_cons_self
    rw [← hdigits]
    exact strtoull_cons (isSpace_of_isAlphanum hc) (ne_of_isAlphanum hc (by decide))
      (ne_of_isAlphanum hc (by decide)) (cs ++ ws)

/-- A number is a word, and read back from its digits. -/
theorem isWord_repr (n : Nat) : IsWord n.repr := by
  unfold IsWord
  rw [Nat.toList_repr]
  refine ⟨Nat.toDigits_ne_nil, ?_⟩
  intro c hc
  exact isAlphanum_of_isDigit (Nat.isDigit_of_mem_toDigits (by decide) (by decide) hc)

theorem isWord_bool (b : Bool) : IsWord (if b then "true" else "false") := by
  cases b
  all_goals exact ⟨by decide, List.all_iff_forall_prop.mp (by decide)⟩

theorem strtoull_repr_eq (n : Nat) : strtoull n.repr.toList =
    some (if UInt64.size ≤ n then UInt64.ofNat (UInt64.size - 1) else UInt64.ofNat n) := by
  have hword := strtoull_word (isWord_repr n).1 (isWord_repr n).2 (List.forall_mem_nil _)
  have hdigits : ∀ c ∈ Nat.toDigits 10 n, c.isDigit = true := fun c hc =>
    Nat.isDigit_of_mem_toDigits (by decide) (by decide) hc
  rw [List.append_nil, Nat.toList_repr, List.takeWhile_eq_self_iff.mpr hdigits] at hword
  rw [Nat.toList_repr, hword, ofDigits, if_neg Nat.toDigits_ne_nil, Nat.ofDigitChars_ten_toDigits]
  exact (apply_ite some _ _ _).symm

theorem strtoull_repr {n : Nat} (hn : n < UInt64.size) :
    strtoull n.repr.toList = some (UInt64.ofNat n) := by
  rw [strtoull_repr_eq, if_neg (Nat.not_le.mpr hn)]

/-! ## Brackets -/

/-- Text without brackets of the kind being counted is passed over. -/
theorem closeBracket_append {o c : Char} {a : List Char} (ho : o ∉ a) (hc : c ∉ a) (depth : Nat)
    (s : List Char) :
    closeBracket o c depth (a ++ s) = (closeBracket o c depth s).map (a ++ ·) := by
  induction a with
  | nil => simp
  | cons d a ih =>
    rw [List.mem_cons, not_or] at ho hc
    rw [List.cons_append, closeBracket, if_neg (Ne.symm ho.1), if_neg (Ne.symm hc.1),
      ih ho.2 hc.2, Option.map_map]
    rfl

/-- Two brackets the parser counts together. -/
def IsPair (o c : Char) : Prop := o = '{' ∧ c = '}' ∨ o = '[' ∧ c = ']'

/-- A bracketed value ends at its bracket when there is none of the kind inside. -/
theorem rawValue_bracket {o c : Char} (hpair : IsPair o c) {ts us : List Token}
    (hts : ∀ t ∈ ts, o ∉ t.chars ∧ c ∉ t.chars) {s : List Char}
    (h : Renders (.punct o :: (ts ++ .punct c :: us)) s) :
    (rawValue s).head? = some o ∧ Renders (.punct o :: (ts ++ [.punct c])) (rawValue s) := by
  have hopen : isSpace o = false ∧ o ≠ '"' ∧ (o = '{' ∨ o = '[') ∧ o ≠ c ∧
      (if o = '{' then '}' else ']') = c ∧ ¬ Json.IsSpace o ∧ ¬ Json.IsSpace c := by
    rcases hpair with ⟨rfl, rfl⟩ | ⟨rfl, rfl⟩
    all_goals simp [isSpace, Json.IsSpace]
  obtain ⟨hspace, hquote, hopen, hne, hclosing, hospace, hcspace⟩ := hopen
  obtain ⟨rest, hs, hrest⟩ := dropWhile_isSpace h ⟨o, rfl, hspace⟩
  obtain ⟨a, b, rfl, ha, hb⟩ := hrest.append
  cases hb with
  | @cons ws _ _ b hws hb =>
    have hoa : o ∉ a := ha.not_mem hospace fun t ht => (hts t ht).1
    have hca : c ∉ a := ha.not_mem hcspace fun t ht => (hts t ht).2
    have hows : o ∉ ws := fun h => hospace (hws o h)
    have hcws : c ∉ ws := fun h => hcspace (hws c h)
    have hclose : closeBracket o c 1 (a ++ (ws ++ c :: b)) = some (a ++ (ws ++ [c])) := by
      rw [closeBracket_append hoa hca, closeBracket_append hows hcws, closeBracket,
        if_neg (Ne.symm hne), if_pos rfl, if_pos rfl]
      rfl
    have hraw : rawValue s = o :: (a ++ (ws ++ [c])) := by
      unfold rawValue
      rw [hs]
      simp only [Token.chars, List.cons_append, List.nil_append, if_neg hquote, if_pos hopen,
        hclosing, hclose]
    rw [hraw]
    have hclosed := ha.concat (Renders.single hws (.punct c))
    exact ⟨rfl, @Renders.cons [] (.punct o) _ _ (List.forall_mem_nil _) hclosed⟩

/-- A name the parser looks for. -/
def IsName (k : String) : Prop := Json.IsKey k ∧ ':' ∉ k.toList

/-! ## Objects of an array -/

/-- An object without a brace in its names or values. -/
def Flat (ms : List (String × Json)) : Prop :=
  ∀ m ∈ ms, '{' ∉ m.1.toList ∧ '}' ∉ m.1.toList ∧
    ∀ t ∈ m.2.tokens, '{' ∉ t.chars ∧ '}' ∉ t.chars

/-- Between the braces of a flat object there is none. -/
theorem Flat.tokens {ms : List (String × Json)} (hms : Flat ms) :
    ∀ t ∈ List.intercalate [.punct ','] (Json.memberTokens ms),
      '{' ∉ t.chars ∧ '}' ∉ t.chars := by
  intro t ht
  match Json.mem_memberTokens ht with
  | .inl heq => subst heq; decide
  | .inr (.inl heq) => subst heq; decide
  | .inr (.inr ⟨m, hm, .inl heq⟩) =>
    subst heq
    simpa [Token.chars] using ⟨(hms m hm).1, (hms m hm).2.1⟩
  | .inr (.inr ⟨m, hm, .inr hvalue⟩) => exact (hms m hm).2.2 t hvalue

theorem splitObjectsFrom_eq_drop (skip : Nat) (s : List Char) :
    splitObjectsFrom skip s = splitObjectsInArray (s.drop skip) := by
  induction s generalizing skip with
  | nil => simp [splitObjectsInArray, splitObjectsFrom]
  | cons c s ih =>
    cases skip with
    | zero => rfl
    | succ skip =>
      rw [splitObjectsFrom, ih, List.drop_succ_cons]

/-- What holds no opening brace is passed over. -/
theorem splitObjectsInArray_append {a : List Char} (ha : '{' ∉ a) (s : List Char) :
    splitObjectsInArray (a ++ s) = splitObjectsInArray s := by
  induction a with
  | nil => rfl
  | cons c a ih =>
    rw [List.mem_cons, not_or] at ha
    rw [← ih ha.2, List.cons_append, splitObjectsInArray, splitObjectsFrom,
      if_neg (Ne.symm ha.1)]
    rfl

/-- An object is taken up to the brace that closes it. -/
theorem splitObjectsInArray_cons {body s : List Char}
    (h : closeBracket '{' '}' 1 (body ++ s) = some body) :
    splitObjectsInArray ('{' :: (body ++ s)) = ('{' :: body) :: splitObjectsInArray s := by
  rw [splitObjectsInArray, splitObjectsFrom, if_pos rfl, h]
  dsimp only
  rw [splitObjectsFrom_eq_drop, List.drop_left]

/-- A flat object behind text without an opening brace is taken off. -/
theorem splitObjectsInArray_step {ms : List (String × Json)} (hms : Flat ms) {ts us : List Token}
    (hts : ∀ t ∈ ts, '{' ∉ t.chars) {s : List Char}
    (h : Renders (ts ++ ((Json.obj ms).tokens ++ us)) s) :
    ∃ o b, Renders (Json.obj ms).tokens o ∧ Renders us b ∧
      splitObjectsInArray s = o :: splitObjectsInArray b := by
  have hbrace : ¬ Json.IsSpace '{' ∧ ¬ Json.IsSpace '}' := by simp [Json.IsSpace]
  obtain ⟨a, s', rfl, ha, hobj⟩ := h.append
  rw [Json.tokens, List.cons_append, List.append_assoc, List.singleton_append] at hobj
  cases hobj with
  | @cons ws _ _ s'' hws hrest =>
    obtain ⟨inner, s''', rfl, hinner, hrest⟩ := hrest.append
    cases hrest with
    | @cons ws' _ _ b hws' hb =>
      have ha : '{' ∉ a ++ ws :=
        List.not_mem_append (ha.not_mem hbrace.1 hts) fun h => hbrace.1 (hws _ h)
      have hopen : '{' ∉ inner ++ ws' := List.not_mem_append
        (hinner.not_mem hbrace.1 fun t ht => (hms.tokens t ht).1) fun h => hbrace.1 (hws' _ h)
      have hclosing : '}' ∉ inner ++ ws' := List.not_mem_append
        (hinner.not_mem hbrace.2 fun t ht => (hms.tokens t ht).2) fun h => hbrace.2 (hws' _ h)
      have hclose : closeBracket '{' '}' 1 (inner ++ ws' ++ '}' :: b) =
          some (inner ++ ws' ++ ['}']) := by
        rw [closeBracket_append hopen hclosing, closeBracket, if_neg (by decide), if_pos rfl,
          if_pos rfl]
        rfl
      refine ⟨'{' :: (inner ++ ws' ++ ['}']), b, ?_, hb, ?_⟩
      · rw [Json.tokens, List.append_assoc]
        exact @Renders.cons [] _ _ _ (List.forall_mem_nil _) (hinner.concat (Renders.single hws' _))
      · have hsplit : splitObjectsInArray ('{' :: ((inner ++ ws' ++ ['}']) ++ b)) = _ :=
          splitObjectsInArray_cons (by simpa using hclose)
        have htext : a ++ (ws ++ ((Token.punct '{').chars ++
            (inner ++ (ws' ++ ((Token.punct '}').chars ++ b))))) =
            (a ++ ws) ++ '{' :: ((inner ++ ws' ++ ['}']) ++ b) := by
          simp [Token.chars]
        rw [htext, splitObjectsInArray_append ha, hsplit]

/-- The objects of a rendered array, in order. -/
theorem splitObjectsInArray_arr {os : List (List (String × Json))} (hos : ∀ ms ∈ os, Flat ms)
    {s : List Char} (h : Renders (Json.arr (os.map .obj)).tokens s) :
    List.Forall₂ (fun ms o => Renders (Json.obj ms).tokens o) os (splitObjectsInArray s) := by
  -- behind the first object the others stand each with a comma in front
  have hafter : ∀ {os : List (List (String × Json))} {s : List Char}, (∀ ms ∈ os, Flat ms) →
      Renders ((Json.itemTokens (os.map .obj)).flatMap ([.punct ','] ++ ·) ++ [.punct ']']) s →
      List.Forall₂ (fun ms o => Renders (Json.obj ms).tokens o) os (splitObjectsInArray s) := by
    intro os
    induction os with
    | nil =>
      intro s _ h
      have hnone : '{' ∉ s := Renders.not_mem h (by simp [Json.IsSpace]) (by decide)
      have := splitObjectsInArray_append hnone []
      rw [List.append_nil] at this
      rw [this]
      exact List.Forall₂.nil
    | cons ms os ih =>
      intro s hos h
      rw [List.forall_mem_cons] at hos
      rw [List.map_cons, Json.itemTokens, List.flatMap_cons, List.append_assoc,
        List.append_assoc] at h
      obtain ⟨o, b, ho, hb, hsplit⟩ := splitObjectsInArray_step hos.1 (by decide) h
      rw [hsplit]
      exact List.Forall₂.cons ho (ih hos.2 hb)
  cases os with
  | nil =>
    have hnone : '{' ∉ s := h.not_mem (by simp [Json.IsSpace]) (by decide)
    have := splitObjectsInArray_append hnone []
    rw [List.append_nil] at this
    rw [this]
    exact List.Forall₂.nil
  | cons ms os =>
    rw [List.forall_mem_cons] at hos
    have htokens : (Json.arr ((ms :: os).map .obj)).tokens = [.punct '['] ++
        ((Json.obj ms).tokens ++ ((Json.itemTokens (os.map .obj)).flatMap ([.punct ','] ++ ·) ++
          [.punct ']'])) := by
      have := Json.intercalate_split [Token.punct ','] (Json.obj ms).tokens []
        (Json.itemTokens (os.map .obj))
      rw [List.nil_append, List.flatMap_nil, List.nil_append] at this
      rw [List.map_cons, Json.tokens, Json.itemTokens, this, List.append_assoc]
      rfl
    rw [htokens] at h
    obtain ⟨o, b, ho, hb, hsplit⟩ := splitObjectsInArray_step hos.1 (by decide) h
    rw [hsplit]
    exact List.Forall₂.cons ho (hafter hos.2 hb)

end TrafficGen.ConfigParser
