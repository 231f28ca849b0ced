import Mathlib.Data.List.Chain
import TrafficGen.ForStd.TextSearch

/-!
# JSON documents and their texts

A document is written as a sequence of tokens, and a text renders the sequence when it is the
tokens in order with any white space before, between and after them. The body of a string is
kept as it is written, escapes and all.

## Key results

- `Renders.append`: a text of two sequences splits into a text of each
- `Renders.search_str`: searching a text for a quoted key finds the first string token that is
  the key
- `Json.tokens_obj_split`: the tokens of an object around one of its members
-/

namespace Json

/-- White space between tokens. -/
def IsSpace (c : Char) : Prop := c = ' ' ∨ c = '\t' ∨ c = '\n' ∨ c = '\r'

/-- The characters that are tokens on their own. -/
def IsPunct (c : Char) : Prop :=
  c = '{' ∨ c = '}' ∨ c = '[' ∨ c = ']' ∨ c = ':' ∨ c = ','

instance : DecidablePred IsPunct := fun _ => inferInstanceAs (Decidable (_ ∨ _))

/-- A string, a word (a number, `true`, `false` or `null`), or a bracket or separator. -/
inductive Token where
  | str (body : String)
  | word (text : String)
  | punct (c : Char)
deriving DecidableEq, Repr

namespace Token

/-- The characters of a token, between its quotes when it is a string. -/
def inner : Token → List Char
  | str body => body.toList
  | word text => text.toList
  | punct c => [c]

/-- A token as it is written. -/
def chars : Token → List Char
  | str body => '"' :: (body.toList ++ ['"'])
  | word text => text.toList
  | punct c => [c]

/-- A string is followed by a bracket or a separator. -/
def MayPrecede : Token → Token → Prop
  | str _, punct c => IsPunct c
  | str _, _ => False
  | _, _ => True

end Token

/-- A text that is the tokens in order, with white space anywhere around them. -/
inductive Renders : List Token → List Char → Prop
  | nil {ws : List Char} (hws : ∀ c ∈ ws, IsSpace c) : Renders [] ws
  | cons {ws : List Char} {t : Token} {ts : List Token} {s : List Char}
      (hws : ∀ c ∈ ws, IsSpace c) (hs : Renders ts s) : Renders (t :: ts) (ws ++ (t.chars ++ s))

namespace Renders

/-- The text with no white space. -/
theorem flatMap_chars (ts : List Token) : Renders ts (ts.flatMap Token.chars) := by
  induction ts with
  | nil => exact nil (List.forall_mem_nil _)
  | cons t ts ih => exact @cons [] t ts _ (List.forall_mem_nil _) ih

/-- A text of two sequences splits where the second starts. -/
theorem append {ts us : List Token} {s : List Char} (h : Renders (ts ++ us) s) :
    ∃ a b, s = a ++ b ∧ Renders ts a ∧ Renders us b := by
  induction ts generalizing s with
  | nil => exact ⟨[], s, rfl, nil (List.forall_mem_nil _), h⟩
  | cons t ts ih =>
    cases h with
    | cons hws hs =>
      obtain ⟨a, b, rfl, ha, hb⟩ := ih hs
      exact ⟨_, b, by simp only [List.append_assoc], cons hws ha, hb⟩

/-- White space in front changes nothing. -/
theorem space_append {ts : List Token} {ws s : List Char} (hws : ∀ c ∈ ws, IsSpace c)
    (h : Renders ts s) : Renders ts (ws ++ s) := by
  cases h with
  | nil hws' => exact nil (List.forall_mem_append.mpr ⟨hws, hws'⟩)
  | cons hws' hs =>
    rw [← List.append_assoc]
    exact cons (List.forall_mem_append.mpr ⟨hws, hws'⟩) hs

/-- Texts of two sequences put together. -/
theorem concat {ts us : List Token} {a b : List Char} (ha : Renders ts a) (hb : Renders us b) :
    Renders (ts ++ us) (a ++ b) := by
  induction ha with
  | nil hws => exact hb.space_append hws
  | cons hws _ ih =>
    rw [List.append_assoc, List.append_assoc]
    exact cons hws ih

/-- One token. -/
theorem single {ws : List Char} (hws : ∀ c ∈ ws, IsSpace c) (t : Token) :
    Renders [t] (ws ++ t.chars) := by
  have := @cons ws t [] [] hws (nil (List.forall_mem_nil _))
  rwa [List.append_nil] at this

/-- Every character is white space or belongs to a token. -/
theorem mem {ts : List Token} {s : List Char} (h : Renders ts s) {c : Char} (hc : c ∈ s) :
    IsSpace c ∨ ∃ t ∈ ts, c ∈ t.chars := by
  induction h with
  | nil hws => exact .inl (hws c hc)
  | @cons ws t ts s hws hs ih =>
    rw [List.mem_append, List.mem_append] at hc
    match hc with
    | .inl hc => exact .inl (hws c hc)
    | .inr (.inl hc) => exact .inr ⟨t, List.mem_cons_self, hc⟩
    | .inr (.inr hc) =>
      apply (ih hc).imp_right
      intro ⟨u, hu, huc⟩
      exact ⟨u, List.mem_cons_of_mem t hu, huc⟩

/-- A character that is neither white space nor in a token is not in the text. -/
theorem not_mem {ts : List Token} {s : List Char} (h : Renders ts s) {c : Char}
    (hspace : ¬ IsSpace c) (hc : ∀ t ∈ ts, c ∉ t.chars) : c ∉ s := by
  intro hmem
  cases h.mem hmem with
  | inl hs => exact hspace hs
  | inr ht =>
    obtain ⟨t, ht, hct⟩ := ht
    exact hc t ht hct

end Renders

/-! ## Searching for a key -/

/-- A name that can be searched for: it starts with a character that no text has between its
    tokens, and holds no quote. -/
def IsKey (k : String) : Prop :=
  '"' ∉ k.toList ∧ ∃ c ∈ k.toList.head?, ¬ IsSpace c ∧ ¬ IsPunct c

/-- Behind a string, a text does not start like a key. -/
theorem Renders.head_of_mayPrecede {k : String} (hk : IsKey k) {body : String} {ts : List Token}
    {s : List Char} (h : Renders ts s) (hnext : ∀ t ∈ ts.head?, Token.MayPrecede (.str body) t)
    (pattern : List Char) : ¬ k.toList ++ pattern <+: s := by
  obtain ⟨-, c, hc, hspace, hpunct⟩ := hk
  intro hstart
  have hhead : s.head? = some c := by
    obtain ⟨v, rfl⟩ := hstart
    rw [List.append_assoc, List.head?_append, Option.mem_def.mp hc, Option.some_or]
  cases h with
  | nil hws => exact hspace (hws c (List.mem_of_head? hhead))
  | @cons ws t ts s hws hs =>
    rw [List.head?_append] at hhead
    cases ws with
    | cons w ws =>
      injection hhead with hhead
      exact hspace (hhead ▸ hws w List.mem_cons_self)
    | nil =>
      have hnext := hnext t rfl
      cases t with
      | str _ => exact hnext
      | word _ => exact hnext
      | punct d =>
        injection hhead with hhead
        exact hpunct (hhead ▸ hnext)

/-- No occurrence of a key starts in a token that is another string. -/
theorem skipFree_chars {k : String} (hk : IsKey k) {t : Token} (hquote : '"' ∉ t.inner)
    (hne : t ≠ .str k) {ts : List Token} {s : List Char} (hs : Renders ts s)
    (hnext : ∀ u ∈ ts.head?, t.MayPrecede u) :
    List.SkipFree (Token.str k).chars t.chars s := by
  cases t with
  | word text => exact List.skipFree_of_not_mem hquote s
  | punct c => exact List.skipFree_of_not_mem hquote s
  | str body =>
    have hopening : ¬ (Token.str k).chars <+: '"' :: (body.toList ++ ['"'] ++ s) := by
      intro hstart
      rw [List.append_assoc] at hstart
      have := List.eq_of_marked_prefix hk.1 hquote (List.cons_prefix_cons.mp hstart).2
      exact hne (congrArg Token.str (String.toList_inj.mp this).symm)
    have hclosing : ¬ (Token.str k).chars <+: '"' :: ([] ++ s) := by
      intro hstart
      exact hs.head_of_mayPrecede hk hnext _ (List.cons_prefix_cons.mp hstart).2
    apply List.skipFree_cons.mpr ⟨hopening, ?_⟩
    apply List.SkipFree.append
    · exact List.skipFree_of_not_mem hquote _
    · exact List.skipFree_cons.mpr ⟨hclosing, List.skipFree_nil _ s⟩

/-- Tokens in which every string is followed by a bracket or a separator. -/
def Spaced (ts : List Token) : Prop := ts.IsChain Token.MayPrecede

theorem not_isSpace_quote : ¬ IsSpace '"' := by
  simp [IsSpace]

theorem not_isSpace_colon : ¬ IsSpace ':' := by
  simp [IsSpace]

/-- No occurrence of a key starts in a part of a text that holds no string token equal to it. -/
theorem Renders.skip {k : String} (hk : IsKey k) {ts us : List Token}
    (hquote : ∀ t ∈ ts, '"' ∉ t.inner) (hspaced : Spaced (ts ++ us)) (hmem : .str k ∉ ts)
    {s : List Char} (h : Renders (ts ++ us) s) :
    ∃ a b, s = a ++ b ∧ List.SkipFree (Token.str k).chars a b ∧ Renders us b := by
  induction ts generalizing s with
  | nil => exact ⟨[], s, rfl, List.skipFree_nil _ s, h⟩
  | cons t ts ih =>
    cases h with
    | @cons ws _ _ s hws hs =>
      obtain ⟨hnext, hspaced⟩ := List.isChain_cons.mp hspaced
      rw [List.forall_mem_cons] at hquote
      rw [List.mem_cons, not_or] at hmem
      have ht := skipFree_chars hk hquote.1 (Ne.symm hmem.1) hs hnext
      obtain ⟨a, b, rfl, ha, hb⟩ := ih hquote.2 hspaced hmem.2 hs
      refine ⟨ws ++ (t.chars ++ a), b, by simp only [List.append_assoc], ?_, hb⟩
      apply List.SkipFree.append
      · exact List.skipFree_of_not_mem (fun hc => not_isSpace_quote (hws _ hc)) _
      · exact List.SkipFree.append ht ha

/-- Searching for a quoted key finds the first string token that is the key. -/
theorem Renders.search_str {k : String} (hk : IsKey k) {ts us : List Token}
    (hquote : ∀ t ∈ ts, '"' ∉ t.inner) (hspaced : Spaced (ts ++ .str k :: us))
    (hmem : .str k ∉ ts) {s : List Char} (h : Renders (ts ++ .str k :: us) s) :
    ∃ rest, List.search (Token.str k).chars s = some ((Token.str k).chars ++ rest) ∧
      Renders us rest := by
  obtain ⟨a, b, rfl, ha, hb⟩ := h.skip hk hquote hspaced hmem
  cases hb with
  | @cons ws _ _ rest hws hrest =>
    refine ⟨rest, ?_, hrest⟩
    have hspace : List.SkipFree (Token.str k).chars ws ((Token.str k).chars ++ rest) :=
      List.skipFree_of_not_mem (fun hc => not_isSpace_quote (hws _ hc)) _
    rw [List.search_skip ha, List.search_skip hspace,
      List.search_of_prefix (List.prefix_append _ rest)]

/-- A quoted key that is no string token is not found. -/
theorem Renders.search_str_eq_none {k : String} (hk : IsKey k) {ts : List Token}
    (hquote : ∀ t ∈ ts, '"' ∉ t.inner) (hspaced : Spaced ts) (hmem : .str k ∉ ts)
    {s : List Char} (h : Renders ts s) : List.search (Token.str k).chars s = none := by
  rw [← List.append_nil ts] at h hspaced
  obtain ⟨a, b, rfl, ha, hb⟩ := h.skip hk hquote hspaced hmem
  rw [List.search_skip ha]
  cases hb with
  | nil hws =>
    apply List.search_eq_none_of_skipFree
    exact List.skipFree_of_not_mem (fun hc => not_isSpace_quote (hws _ hc)) []

/-! ## Documents -/

end Json

/-- A document. Strings and words are as they are written. -/
inductive Json where
  | str (body : String)
  | word (text : String)
  | arr (items : List Json)
  | obj (members : List (String × Json))

namespace Json

mutual

/-- The tokens a document is written as. -/
def tokens : Json → List Token
  | .str body => [.str body]
  | .word text => [.word text]
  | .arr items =>
    .punct '[' :: (List.intercalate [.punct ','] (itemTokens items) ++ [.punct ']'])
  | .obj members =>
    .punct '{' :: (List.intercalate [.punct ','] (memberTokens members) ++ [.punct '}'])

/-- The tokens of each item. -/
def itemTokens : List Json → List (List Token)
  | [] => []
  | v :: vs => tokens v :: itemTokens vs

/-- The tokens of each member, its name in front. -/
def memberTokens : List (String × Json) → List (List Token)
  | [] => []
  | (k, v) :: ms => (.str k :: .punct ':' :: tokens v) :: memberTokens ms

end

theorem itemTokens_eq_map (vs : List Json) : itemTokens vs = vs.map tokens := by
  induction vs with
  | nil => rfl
  | cons v vs ih => rw [itemTokens, ih, List.map_cons]

theorem memberTokens_eq_map (ms : List (String × Json)) :
    memberTokens ms = ms.map fun m => .str m.1 :: .punct ':' :: m.2.tokens := by
  induction ms with
  | nil => rfl
  | cons m ms ih => rw [memberTokens, ih, List.map_cons]

/-- A number, in decimal. -/
def nat (n : Nat) : Json := .word n.repr

/-- A truth value. -/
def bool (b : Bool) : Json := .word (if b then "true" else "false")

/-! ## The tokens of a list -/

/-- A list with separators, around one of its elements. -/
theorem intercalate_split {α : Type*} (sep x : List α) (a b : List (List α)) :
    List.intercalate sep (a ++ x :: b) = a.flatMap (· ++ sep) ++ (x ++ b.flatMap (sep ++ ·)) := by
  have hrest : ∀ y, List.intercalate sep (y :: b) = y ++ b.flatMap (sep ++ ·) := by
    induction b with
    | nil => simp [List.intercalate]
    | cons z b ih =>
      intro y
      rw [List.flatMap_cons, List.append_assoc, ← ih z]
      simp [List.intercalate]
  induction a with
  | nil => exact hrest x
  | cons y a ih =>
    rw [List.flatMap_cons, List.append_assoc, ← ih]
    cases a with
    | nil => simp [List.intercalate]
    | cons z a => simp [List.intercalate]

theorem mem_of_mem_intercalate {α : Type*} {sep : List α} {l : List (List α)} {x : α}
    (h : x ∈ List.intercalate sep l) : x ∈ sep ∨ ∃ ys ∈ l, x ∈ ys := by
  cases l with
  | nil => simp [List.intercalate] at h
  | cons y l =>
    have hsplit := intercalate_split sep y [] l
    rw [List.nil_append] at hsplit
    simp only [hsplit, List.flatMap_nil, List.nil_append, List.mem_append, List.mem_flatMap] at h
    match h with
    | .inl hy => exact .inr ⟨y, List.mem_cons_self, hy⟩
    | .inr ⟨_, _, .inl hsep⟩ => exact .inl hsep
    | .inr ⟨z, hz, .inr hx⟩ => exact .inr ⟨z, List.mem_cons_of_mem y hz, hx⟩

/-- The tokens of an array's brackets, of its separators and of its items. -/
theorem mem_itemTokens {vs : List Json} {t : Token}
    (h : t ∈ List.intercalate [.punct ','] (itemTokens vs)) :
    t = .punct ',' ∨ ∃ v ∈ vs, t ∈ v.tokens := by
  rw [itemTokens_eq_map] at h
  apply (mem_of_mem_intercalate h).imp List.mem_singleton.mp
  intro ⟨ts, hts, ht⟩
  obtain ⟨v, hv, rfl⟩ := List.mem_map.mp hts
  exact ⟨v, hv, ht⟩

/-- The tokens of an array are punctuation, or belong to an item. -/
theorem mem_tokens_arr {vs : List Json} {t : Token} (h : t ∈ (arr vs).tokens) :
    (∃ c, IsPunct c ∧ t = .punct c) ∨ ∃ v ∈ vs, t ∈ v.tokens := by
  rw [tokens, List.mem_cons, List.mem_append, List.mem_singleton] at h
  match h with
  | .inl h => exact .inl ⟨'[', by decide, h⟩
  | .inr (.inr h) => exact .inl ⟨']', by decide, h⟩
  | .inr (.inl h) =>
    match mem_itemTokens h with
    | .inl h => exact .inl ⟨',', by decide, h⟩
    | .inr h => exact .inr h

/-- The tokens of an object's separators, of the names and of the values of its members. -/
theorem mem_memberTokens {ms : List (String × Json)} {t : Token}
    (h : t ∈ List.intercalate [.punct ','] (memberTokens ms)) :
    t = .punct ',' ∨ t = .punct ':' ∨ ∃ m ∈ ms, t = .str m.1 ∨ t ∈ m.2.tokens := by
  rw [memberTokens_eq_map] at h
  apply (mem_of_mem_intercalate h).imp List.mem_singleton.mp
  intro ⟨ts, hts, ht⟩
  obtain ⟨m, hm, rfl⟩ := List.mem_map.mp hts
  rw [List.mem_cons, List.mem_cons] at ht
  match ht with
  | .inl hname => exact .inr ⟨m, hm, .inl hname⟩
  | .inr (.inl hcolon) => exact .inl hcolon
  | .inr (.inr hvalue) => exact .inr ⟨m, hm, .inr hvalue⟩

/-- The punctuation of an object itself. -/
def objPunct : List Char := ['{', '}', ',', ':']

/-- The tokens of an object are punctuation, or the name or in the value of a member. -/
theorem mem_tokens_obj {ms : List (String × Json)} {t : Token} (h : t ∈ (obj ms).tokens) :
    (∃ c ∈ objPunct, t = .punct c) ∨ ∃ m ∈ ms, t = .str m.1 ∨ t ∈ m.2.tokens := by
  rw [tokens, List.mem_cons, List.mem_append, List.mem_singleton] at h
  match h with
  | .inl h => exact .inl ⟨'{', by decide, h⟩
  | .inr (.inr h) => exact .inl ⟨'}', by decide, h⟩
  | .inr (.inl h) =>
    match mem_memberTokens h with
    | .inl h => exact .inl ⟨',', by decide, h⟩
    | .inr (.inl h) => exact .inl ⟨':', by decide, h⟩
    | .inr (.inr h) => exact .inr h

/-- The tokens of a member's value are tokens of the object. -/
theorem mem_tokens_of_mem {ms : List (String × Json)} {m : String × Json} (hm : m ∈ ms) {t : Token}
    (ht : t ∈ m.2.tokens) : t ∈ (obj ms).tokens := by
  have hrun : t ∈ List.intercalate [.punct ','] (memberTokens ms) := by
    obtain ⟨before, after, rfl⟩ := List.append_of_mem hm
    rw [memberTokens_eq_map, List.map_append, List.map_cons, intercalate_split]
    apply List.mem_append_right
    apply List.mem_append_left
    exact List.mem_cons_of_mem _ (List.mem_cons_of_mem _ ht)
  rw [tokens]
  exact List.mem_cons_of_mem _ (List.mem_append_left _ hrun)

/-- The tokens of an object before one of its members. -/
def tokensBefore (ms : List (String × Json)) : List Token :=
  .punct '{' :: (memberTokens ms).flatMap (· ++ [.punct ','])

/-- The tokens of an object after one of its members. -/
def tokensAfter (ms : List (String × Json)) : List Token :=
  (memberTokens ms).flatMap ([.punct ','] ++ ·) ++ [.punct '}']

/-- The tokens of an object around one of its members. -/
theorem tokens_obj_split (ms : List (String × Json)) (k : String) (v : Json)
    (ms' : List (String × Json)) : (obj (ms ++ (k, v) :: ms')).tokens =
      tokensBefore ms ++ .str k :: .punct ':' :: (v.tokens ++ tokensAfter ms') := by
  unfold tokensBefore tokensAfter
  rw [tokens, memberTokens_eq_map, List.map_append, List.map_cons, intercalate_split,
    memberTokens_eq_map, memberTokens_eq_map]
  simp only [List.cons_append, List.append_assoc]

theorem mem_tokensBefore {ms : List (String × Json)} {t : Token} (h : t ∈ tokensBefore ms) :
    (∃ c, IsPunct c ∧ t = .punct c) ∨ ∃ m ∈ ms, t = .str m.1 ∨ t ∈ m.2.tokens := by
  unfold tokensBefore at h
  rw [memberTokens_eq_map, List.mem_cons, List.mem_flatMap] at h
  match h with
  | .inl h => exact .inl ⟨'{', by decide, h⟩
  | .inr ⟨ts, hts, ht⟩ =>
    obtain ⟨m, hm, rfl⟩ := List.mem_map.mp hts
    simp only [List.cons_append, List.mem_cons, List.mem_append, List.not_mem_nil, or_false] at ht
    match ht with
    | .inl h => exact .inr ⟨m, hm, .inl h⟩
    | .inr (.inl h) => exact .inl ⟨':', by decide, h⟩
    | .inr (.inr (.inl h)) => exact .inr ⟨m, hm, .inr h⟩
    | .inr (.inr (.inr h)) => exact .inl ⟨',', by decide, h⟩

/-- Behind a member stands a comma or the closing brace. -/
theorem tokensAfter_eq_cons (ms : List (String × Json)) :
    ∃ c ts, (c = ',' ∨ c = '}') ∧ tokensAfter ms = .punct c :: ts := by
  cases ms with
  | nil => exact ⟨'}', [], .inr rfl, rfl⟩
  | cons m ms => exact ⟨',', _, .inl rfl, rfl⟩

/-! ## Spacing -/

theorem mayPrecede_punct {c : Char} (hc : IsPunct c) (t : Token) : t.MayPrecede (.punct c) := by
  cases t with
  | str body => exact hc
  | word text => trivial
  | punct d => trivial

theorem spaced_punct_cons {c : Char} {ts : List Token} : Spaced (.punct c :: ts) ↔ Spaced ts := by
  unfold Spaced
  rw [List.isChain_cons]
  exact and_iff_right fun _ _ => trivial

theorem Spaced.append_punct {ts us : List Token} {c : Char} (hc : IsPunct c) (hts : Spaced ts)
    (hus : Spaced us) : Spaced (ts ++ .punct c :: us) := by
  apply List.isChain_append.mpr
  refine ⟨hts, spaced_punct_cons.mpr hus, ?_⟩
  intro t _ u hu
  cases Option.mem_some.mp hu
  exact mayPrecede_punct hc t

theorem spaced_intercalate {l : List (List Token)} (h : ∀ ts ∈ l, Spaced ts) {o c : Char}
    (hc : IsPunct c) :
    Spaced (.punct o :: (List.intercalate [.punct ','] l ++ [.punct c])) := by
  apply spaced_punct_cons.mpr
  apply Spaced.append_punct hc ?_ List.isChain_nil
  cases l with
  | nil => exact List.isChain_nil
  | cons ts l =>
    have hsplit := intercalate_split [Token.punct ','] ts [] l
    rw [List.nil_append, List.flatMap_nil, List.nil_append] at hsplit
    rw [hsplit]
    clear hsplit
    induction l generalizing ts with
    | nil => simpa using h
    | cons us l ih =>
      rw [List.forall_mem_cons] at h
      exact h.1.append_punct (by decide) (ih us h.2)

mutual

/-- In a document, a bracket or a separator follows every string. -/
theorem spaced_tokens (v : Json) : Spaced v.tokens := by
  cases v with
  | str body => exact List.isChain_singleton _
  | word text => exact List.isChain_singleton _
  | arr items =>
    rw [tokens]
    exact spaced_intercalate (spaced_itemTokens items) (by decide)
  | obj members =>
    rw [tokens]
    exact spaced_intercalate (spaced_memberTokens members) (by decide)

theorem spaced_itemTokens (vs : List Json) : ∀ ts ∈ itemTokens vs, Spaced ts := by
  cases vs with
  | nil => exact List.forall_mem_nil _
  | cons v vs =>
    rw [itemTokens, List.forall_mem_cons]
    exact ⟨spaced_tokens v, spaced_itemTokens vs⟩

theorem spaced_memberTokens (ms : List (String × Json)) : ∀ ts ∈ memberTokens ms, Spaced ts := by
  cases ms with
  | nil => exact List.forall_mem_nil _
  | cons m ms =>
    rw [memberTokens, List.forall_mem_cons]
    refine ⟨?_, spaced_memberTokens ms⟩
    show Spaced ([.str m.1] ++ .punct ':' :: m.2.tokens)
    exact Spaced.append_punct (by decide) (List.isChain_singleton _) (spaced_tokens m.2)

end

end Json
