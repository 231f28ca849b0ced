import TrafficGen.Spec.ConfigText

/-!
# Searching a rendered object

A search for a quoted key in the text of an object ends at the first string that is the key and
goes on to the next colon. When that string is the name of a member, the value behind the colon
is the member's own; when it is the value of one, it belongs to the member written next.

## Key results

- `searchable_obj`: a search for `k` offers the value of the member `target k` picks
-/

namespace TrafficGen.ConfigParser

open Json (Token Renders Spaced IsPunct)

/-- The members of an object that is a value. -/
def membersOf : Json → List (String × Json)
  | .obj ms => ms
  | _ => []

/-- The members of an object in the order of a text, with those of inner objects. -/
def entries (ms : List (String × Json)) : List (String × Json) :=
  ms.flatMap fun m => m :: membersOf m.2

theorem entries_eq_self {ms : List (String × Json)} (h : ∀ m ∈ ms, membersOf m.2 = []) :
    entries ms = ms := by
  induction ms with
  | nil => rfl
  | cons m ms ih =>
    rw [List.forall_mem_cons] at h
    rw [entries, List.flatMap_cons, h.1]
    exact congrArg (m :: ·) (ih h.2)

/-- The value is the string `k`. -/
def isStr (k : String) : Json → Bool
  | .str body => body = k
  | _ => false

/-- The member whose value a search for `k` ends at: the one `k` names, or the one behind a value
    that is the string `k`, whichever comes first. -/
def target (k : String) : List (String × Json) → Option (String × Json)
  | [] => none
  | m :: es => if m.1 = k then some m else if isStr k m.2 then es.head? else target k es

/-- The raw value behind the next colon. -/
def behindColon (s : List Char) : List Char :=
  match List.search [':'] s with
  | none => []
  | some s => rawValue s.tail

theorem findRawValue_eq (s : List Char) (k : String) :
    findRawValue s k = match List.search (Token.str k).chars s with
      | none => []
      | some s => behindColon s := rfl

theorem behindColon_append {a : List Char} (ha : ':' ∉ a) (s : List Char) :
    behindColon (a ++ s) = behindColon s := by
  unfold behindColon
  rw [List.search_skip (List.skipFree_of_not_mem ha s)]

theorem behindColon_of_renders {a : List Char} (ha : ':' ∉ a) {ts : List Token} {s : List Char}
    (h : Renders (.punct ':' :: ts) s) :
    ∃ rest, behindColon (a ++ s) = rawValue rest ∧ Renders ts rest := by
  cases h with
  | @cons ws _ _ rest hws hrest =>
    refine ⟨rest, ?_, hrest⟩
    have hspace : ':' ∉ ws := not_mem_of_space hws Json.not_isSpace_colon
    rw [behindColon_append ha, behindColon_append hspace, behindColon]
    show (match List.search [':'] ([] ++ ':' :: rest) with
      | none => []
      | some s => _) = _
    rw [List.search_singleton List.not_mem_nil]
    rfl

/-- A raw value is the one of a member, with `P` of what follows it. -/
inductive Offers (P : Json → List Token → Prop) : List Char → Option (String × Json) → Prop
  | none : Offers P [] none
  | some {n : String} {v : Json} {ts : List Token} {rest : List Char} (hP : P v ts)
      (h : Renders (v.tokens ++ ts) rest) : Offers P (rawValue rest) (some (n, v))

/-- In the texts of these tokens the next colon belongs to the first of the members `es`, and a
    search for `k` ends at its target among them. -/
structure Searchable (P : Json → List Token → Prop) (k : String) (ts : List Token)
    (es : List (String × Json)) : Prop where
  spaced : Spaced ts
  colon : ∀ {s}, Renders ts s → Offers P (behindColon s) es.head?
  key : ∀ {s}, Renders ts s → Offers P (findRawValue s k) (target k es)

/-- Tokens that any other may stand in front of. -/
def FollowsAny (ts : List Token) : Prop := ∀ t, ∀ u ∈ ts.head?, Token.MayPrecede t u

theorem followsAny_punct {c : Char} (hc : IsPunct c) (ts : List Token) :
    FollowsAny (.punct c :: ts) := by
  intro t u hu
  cases Option.mem_some.mp hu
  exact Json.mayPrecede_punct hc t

variable {P : Json → List Token → Prop} {k : String}

/-- A search passes over tokens that hold no string equal to the key. -/
theorem findRawValue_skip (hk : IsName k) {ts us : List Token} (hquote : ∀ t ∈ ts, '"' ∉ t.inner)
    (hmem : .str k ∉ ts) (hspaced : Spaced (ts ++ us)) {s : List Char}
    (h : Renders (ts ++ us) s) : ∃ b, findRawValue s k = findRawValue b k ∧ Renders us b := by
  obtain ⟨a, b, rfl, ha, hb⟩ := h.skip hk.1 hquote hspaced hmem
  refine ⟨b, ?_, hb⟩
  rw [findRawValue_eq, findRawValue_eq, List.search_skip ha]

/-- A search ends at the name it is for when the tokens in front of it hold no quote and no
    string that is the name. -/
theorem findRawValue_of_front (hk : IsName k) {ts us : List Token}
    (hspaced : Spaced (ts ++ .str k :: .punct ':' :: us)) (hquote : ∀ t ∈ ts, '"' ∉ t.inner)
    (hmem : .str k ∉ ts) {s : List Char}
    (h : Renders (ts ++ .str k :: .punct ':' :: us) s) :
    ∃ rest, findRawValue s k = rawValue rest ∧ Renders us rest := by
  obtain ⟨rest, hsearch, hrest⟩ := Renders.search_str hk.1 hquote hspaced hmem h
  have hcolon : ':' ∉ (Token.str k).chars := by simpa [Token.chars] using hk.2
  rw [findRawValue_eq, hsearch]
  exact behindColon_of_renders hcolon hrest

theorem searchable_nil (hk : IsName k) : Searchable P k [] [] where
  spaced := List.isChain_nil
  colon := by
    intro s h
    cases h with
    | nil hws =>
      have hspace : ':' ∉ s := not_mem_of_space hws Json.not_isSpace_colon
      unfold behindColon
      rw [List.search_singleton_eq_none hspace]
      exact .none
  key := by
    intro s h
    rw [findRawValue_eq,
      h.search_str_eq_none hk.1 (List.forall_mem_nil _) List.isChain_nil List.not_mem_nil]
    exact .none

/-- Punctuation in front changes nothing. -/
theorem Searchable.punct {ts : List Token} {es : List (String × Json)}
    (h : Searchable P k ts es) (hk : IsName k) {c : Char} (hc : IsPunct c) (hne : c ≠ ':') :
    Searchable P k (.punct c :: ts) es where
  spaced := Json.spaced_punct_cons.mpr h.spaced
  colon := by
    intro s hs
    cases hs with
    | @cons ws _ _ rest hws hrest =>
      have hspace : ':' ∉ ws := not_mem_of_space hws Json.not_isSpace_colon
      rw [behindColon_append hspace, behindColon_append (by simpa [Token.chars] using hne.symm)]
      exact h.colon hrest
  key := by
    intro s hs
    have hquote : '"' ≠ c := fun h => absurd (h ▸ hc) (by decide)
    obtain ⟨b, hb, hrest⟩ := @findRawValue_skip k hk [.punct c] ts
      (by simpa [Token.inner] using hquote) (by simp) (Json.spaced_punct_cons.mpr h.spaced) s hs
    rw [hb]
    exact h.key hrest

theorem spaced_member {n : String} {v : Json} {ts : List Token} (hspaced : Spaced ts)
    (hfollows : FollowsAny ts) : Spaced (.str n :: .punct ':' :: (v.tokens ++ ts)) := by
  apply List.isChain_cons.mpr
  constructor
  · intro u hu
    cases Option.mem_some.mp hu
    exact Json.mayPrecede_punct (by decide) _
  · apply Json.spaced_punct_cons.mpr
    apply List.isChain_append.mpr
    exact ⟨Json.spaced_tokens v, hspaced, fun t _ u hu => hfollows t u hu⟩

/-- Behind a name, the next colon is that of its member. -/
theorem offers_value {n : String} (hn : IsName n) {v : Json} {ts : List Token} (hP : P v ts)
    {s : List Char} (hs : Renders (.str n :: .punct ':' :: (v.tokens ++ ts)) s) :
    Offers P (behindColon s) (some (n, v)) := by
  cases hs with
  | @cons ws _ _ rest hws hrest =>
    have hspace : ':' ∉ ws := not_mem_of_space hws Json.not_isSpace_colon
    have hname : ':' ∉ (Token.str n).chars := by simpa [Token.chars] using hn.2
    obtain ⟨rest', hbehind, hrest'⟩ := behindColon_of_renders (List.not_mem_append hspace hname)
      hrest
    rw [List.append_assoc] at hbehind
    rw [hbehind]
    exact .some hP hrest'

/-- A search that comes to the name it is for goes on to the member. -/
theorem offers_named (hk : IsName k) {v : Json} {ts : List Token} (hP : P v ts)
    (hspaced : Spaced (.str k :: .punct ':' :: (v.tokens ++ ts))) {s : List Char}
    (hs : Renders (.str k :: .punct ':' :: (v.tokens ++ ts)) s) :
    Offers P (findRawValue s k) (some (k, v)) := by
  obtain ⟨rest, hfind, hrest⟩ := @findRawValue_of_front k hk [] (v.tokens ++ ts) hspaced
    (List.forall_mem_nil _) List.not_mem_nil s hs
  rw [hfind]
  exact .some hP hrest

/-- A search passes a name that is another. -/
theorem findRawValue_name (hk : IsName k) {n : String} (hn : IsName n) (hne : n ≠ k)
    {us : List Token} (hspaced : Spaced (.str n :: .punct ':' :: us)) {s : List Char}
    (hs : Renders (.str n :: .punct ':' :: us) s) :
    ∃ b, findRawValue s k = findRawValue b k ∧ Renders us b := by
  have hquote : ∀ t ∈ [Token.str n, .punct ':'], '"' ∉ t.inner := by
    simpa [Token.inner] using hn.1.1
  have hmem : Token.str k ∉ [Token.str n, .punct ':'] := by simpa using Ne.symm hne
  exact findRawValue_skip hk hquote hmem hspaced hs

/-- A member in front of the others. What a search that passes its name finds in its value, or
    behind it, is asked for separately. -/
theorem Searchable.member {n : String} {v : Json} {ts : List Token} {es : List (String × Json)}
    (h : Searchable P k ts es) (hfollows : FollowsAny ts) (hk : IsName k) (hn : IsName n)
    (hP : P v ts) (hvalue : isStr k v = false → ∀ {s}, Renders (v.tokens ++ ts) s →
      Offers P (findRawValue s k) (target k (membersOf v ++ es))) :
    Searchable P k (.str n :: .punct ':' :: (v.tokens ++ ts)) ((n, v) :: (membersOf v ++ es)) where
  spaced := spaced_member h.spaced hfollows
  colon := offers_value hn hP
  key := by
    intro s hs
    have hspaced := spaced_member (n := n) (v := v) h.spaced hfollows
    by_cases hnk : n = k
    · subst hnk
      rw [target, if_pos rfl]
      exact offers_named hn hP hspaced hs
    · obtain ⟨b, hb, hrest⟩ := findRawValue_name hk hn hnk hspaced hs
      rw [hb, target, if_neg hnk]
      cases hstr : isStr k v with
      | false => exact hvalue hstr hrest
      | true =>
        cases v with
        | str body =>
          -- the search ends at the value, and goes on to the member written next
          obtain rfl : body = k := by simpa [isStr] using hstr
          have hname : ':' ∉ (Token.str body).chars := by simpa [Token.chars] using hk.2
          have hspaced' : Spaced (.str body :: ts) :=
            Json.spaced_punct_cons.mp (List.isChain_cons.mp hspaced).2
          obtain ⟨rest, hsearch, hrest'⟩ := @Renders.search_str body hk.1 [] _
            (List.forall_mem_nil _) hspaced' List.not_mem_nil b hrest
          rw [findRawValue_eq, hsearch]
          dsimp only
          rw [behindColon_append hname]
          exact h.colon hrest'
        | word _ => cases hstr
        | arr _ => cases hstr
        | obj _ => cases hstr

/-- A value that holds no string equal to the key, and no object a search could stop in. -/
theorem Searchable.passValue {v : Json} {ts : List Token} {es : List (String × Json)}
    (h : Searchable P k ts es) (hfollows : FollowsAny ts) (hk : IsName k)
    (hquote : ∀ t ∈ v.tokens, '"' ∉ t.inner) (hmem : .str k ∉ v.tokens) {s : List Char}
    (hs : Renders (v.tokens ++ ts) s) : Offers P (findRawValue s k) (target k es) := by
  have hspaced : Spaced (v.tokens ++ ts) :=
    List.isChain_append.mpr
      ⟨Json.spaced_tokens v, h.spaced, fun t _ u hu => hfollows t u hu⟩
  obtain ⟨b, hb, hrest⟩ := findRawValue_skip hk hquote hmem hspaced hs
  rw [hb]
  exact h.key hrest

/-- The tokens of members that others stand in front of. -/
def memberRun (ms : List (String × Json)) : List Token :=
  (Json.memberTokens ms).flatMap ([.punct ','] ++ ·)

theorem memberRun_cons (m : String × Json) (ms : List (String × Json)) :
    memberRun (m :: ms) =
      .punct ',' :: .str m.1 :: .punct ':' :: (m.2.tokens ++ memberRun ms) := rfl

/-- A member that can stand in front of any others: what a search finds in its value, it finds
    there whatever follows. -/
def Passable (P : Json → List Token → Prop) (k : String) (m : String × Json) : Prop :=
  IsName m.1 ∧ ∀ {ts es}, Searchable P k ts es → FollowsAny ts → isStr k m.2 = false →
    ∀ {s}, Renders (m.2.tokens ++ ts) s →
      Offers P (findRawValue s k) (target k (membersOf m.2 ++ es))

/-- A run of members in front of others. -/
theorem searchable_memberRun (hk : IsName k) {ms : List (String × Json)}
    (hms : ∀ m ∈ ms, Passable P k m) {ts : List Token} {es : List (String × Json)}
    (h : Searchable P k ts es) (hfollows : FollowsAny ts)
    (hP : ∀ before m after, ms = before ++ m :: after → P m.2 (memberRun after ++ ts)) :
    Searchable P k (memberRun ms ++ ts) (entries ms ++ es) ∧ FollowsAny (memberRun ms ++ ts) := by
  induction ms with
  | nil => exact ⟨h, hfollows⟩
  | cons m ms ih =>
    rw [List.forall_mem_cons] at hms
    obtain ⟨hrun, hrunFollows⟩ := ih hms.2 fun before m' after heq =>
      hP (m :: before) m' after (congrArg (m :: ·) heq)
    have hmember := hrun.member hrunFollows hk hms.1.1 (hP [] m ms rfl) fun hstr =>
      hms.1.2 hrun hrunFollows hstr
    rw [memberRun_cons]
    simp only [List.cons_append, List.append_assoc]
    refine ⟨?_, followsAny_punct (by decide) _⟩
    have := hmember.punct hk (c := ',') (by decide) (by decide)
    simpa [entries] using this

/-- The tokens of an object in front of others. -/
theorem tokens_obj_cons (m : String × Json) (ms : List (String × Json)) (ts : List Token) :
    (Json.obj (m :: ms)).tokens ++ ts = .punct '{' :: .str m.1 :: .punct ':' ::
      (m.2.tokens ++ (memberRun ms ++ .punct '}' :: ts)) := by
  have := Json.tokens_obj_split [] m.1 m.2 ms
  rw [List.nil_append] at this
  rw [this]
  simp [Json.tokensBefore, Json.tokensAfter, Json.memberTokens, memberRun]

/-- An object in front of other tokens. -/
theorem searchable_obj (hk : IsName k) {ms : List (String × Json)}
    (hms : ∀ m ∈ ms, Passable P k m) {ts : List Token} {es : List (String × Json)}
    (h : Searchable P k ts es)
    (hP : ∀ before m after, ms = before ++ m :: after → P m.2 (Json.tokensAfter after ++ ts)) :
    Searchable P k ((Json.obj ms).tokens ++ ts) (entries ms ++ es) := by
  have hclose := h.punct hk (c := '}') (by decide) (by decide)
  have hfollows := followsAny_punct (c := '}') (by decide) ts
  cases ms with
  | nil => exact hclose.punct hk (by decide) (by decide)
  | cons m ms =>
    rw [List.forall_mem_cons] at hms
    have hP' : ∀ before m' after, m :: ms = before ++ m' :: after →
        P m'.2 (memberRun after ++ .punct '}' :: ts) := by
      intro before m' after heq
      have := hP before m' after heq
      rwa [Json.tokensAfter, List.append_assoc] at this
    obtain ⟨hrun, hrunFollows⟩ := searchable_memberRun hk hms.2 hclose hfollows
      fun before m' after heq => hP' (m :: before) m' after (congrArg (m :: ·) heq)
    have hmember := hrun.member hrunFollows hk hms.1.1 (hP' [] m ms rfl) fun hstr =>
      hms.1.2 hrun hrunFollows hstr
    rw [tokens_obj_cons]
    have := hmember.punct hk (c := '{') (by decide) (by decide)
    simpa [entries] using this

/-- A number, a truth value or a string can stand in front of any members. -/
theorem passable_of_not_mem {m : String × Json} (hk : IsName k) (hm : IsName m.1)
    (hinner : membersOf m.2 = []) (hquote : ∀ t ∈ m.2.tokens, '"' ∉ t.inner)
    (hmem : isStr k m.2 = false → .str k ∉ m.2.tokens) : Passable P k m := by
  refine ⟨hm, ?_⟩
  intro ts es h hfollows hstr s hs
  rw [hinner, List.nil_append]
  exact h.passValue hfollows hk hquote (hmem hstr) hs

/-- So can an object of such members. -/
theorem passable_obj {n : String} {ms : List (String × Json)} (hk : IsName k) (hn : IsName n)
    (hms : ∀ m ∈ ms, Passable P k m) (hinner : ∀ m ∈ ms, membersOf m.2 = [])
    (hP : ∀ m ∈ ms, ∀ us ts, P m.2 (Json.tokensAfter us ++ ts)) : Passable P k (n, .obj ms) := by
  refine ⟨hn, ?_⟩
  intro ts es h hfollows hstr s hs
  have hobj := searchable_obj hk hms h fun before m after heq =>
    hP m (heq ▸ List.mem_append_right _ List.mem_cons_self) after ts
  rw [entries_eq_self hinner] at hobj
  exact hobj.key hs

/-! ## Reading what is offered -/

/-- A comma or a closing brace comes next. -/
def Ends (ts : List Token) : Prop :=
  ∃ c us, (c = ',' ∨ c = '}') ∧ ts = .punct c :: us

/-- The number a value denotes. -/
def readNat : Json → Option UInt64
  | .word w => strtoull w.toList
  | _ => none

/-- The string a value is, as it is written. -/
def readString : Json → Option String
  | .str body => some body
  | _ => none

/-- A value whose end the parser sees: a string without quotes or backslashes, a word of letters
    and digits, or an array without inner brackets. -/
def Delimited : Json → Prop
  | .str body => ∀ c ∈ body.toList, c ≠ '"' ∧ c ≠ '\\'
  | .word w => IsWord w
  | .arr vs => ∀ v ∈ vs, ∀ t ∈ v.tokens, '[' ∉ t.chars ∧ ']' ∉ t.chars
  | .obj _ => True

/-- A value whose end the parser sees, strings left aside. -/
def HasEnd : Json → Prop
  | .str _ => True
  | .word w => IsWord w
  | .arr vs => ∀ v ∈ vs, ∀ t ∈ v.tokens, '[' ∉ t.chars ∧ ']' ∉ t.chars
  | .obj _ => True

theorem Delimited.hasEnd {v : Json} (h : Delimited v) : HasEnd v := by
  cases v with
  | str body => trivial
  | word w => exact h
  | arr vs => exact h
  | obj ms => trivial

/-- The first character of a value. -/
def firstChar : Json → Option Char
  | .str _ => some '"'
  | .word w => w.toList.head?
  | .arr _ => some '['
  | .obj _ => some '{'

theorem exists_firstChar_word {w : String} (h : IsWord w) :
    ∃ c, firstChar (.word w) = some c ∧ c.isAlphanum = true := by
  obtain ⟨hne, hw⟩ := h
  cases hlist : w.toList with
  | nil => exact absurd hlist hne
  | cons c cs => exact ⟨c, by rw [firstChar, hlist]; rfl, hw c (hlist ▸ List.mem_cons_self)⟩

/-- What is offered starts like the value. -/
theorem head?_rawValue_of_value {v : Json} {c : Char} (hc : firstChar v = some c)
    (hspace : isSpace c = false) {ts : List Token} {s : List Char}
    (h : Renders (v.tokens ++ ts) s) : rawValue s = [] ∨ (rawValue s).head? = some c := by
  cases v with
  | str body => exact head?_rawValue h hc hspace
  | word w => exact head?_rawValue h hc hspace
  | arr vs =>
    rw [Json.tokens] at h
    exact head?_rawValue h hc hspace
  | obj ms =>
    rw [Json.tokens] at h
    exact head?_rawValue h hc hspace

/-- What is offered does not start like another kind of value. -/
theorem head?_rawValue_ne {v : Json} {c d : Char} (hc : firstChar v = some c)
    (hspace : isSpace c = false) (hne : c ≠ d) {ts : List Token} {s : List Char}
    (h : Renders (v.tokens ++ ts) s) : (rawValue s).head? ≠ some d := by
  intro hhead
  cases head?_rawValue_of_value hc hspace h with
  | inl hnil => simp [hnil] at hhead
  | inr hfirst => exact hne (Option.some.inj (hfirst.symm.trans hhead))

variable {s : List Char} {t : Option (String × Json)}

theorem parseUint_of_offers (h : Offers P (findRawValue s k) t) (hP : ∀ {v ts}, P v ts → Ends ts)
    (ht : ∀ m ∈ t, HasEnd m.2) {α : Type} (cut : UInt64 → α) :
    parseUint cut s k = ((t.map Prod.snd).bind readNat).map cut := by
  unfold parseUint
  generalize findRawValue s k = raw at h
  cases h with
  | none => rfl
  | @some n v ts rest hends hrest =>
    have ht := ht _ rfl
    have hother : ∀ c, firstChar v = some c → isSpace c = false → c.isDigit = false →
        c ≠ '-' → c ≠ '+' → (if rawValue rest = [] then none
          else (strtoull (rawValue rest)).map cut) = none := by
      intro c hc hspace hdigit hminus hplus
      cases head?_rawValue_of_value hc hspace hrest with
      | inl hnil => rw [if_pos hnil]
      | inr hhead =>
        obtain ⟨s', hs'⟩ : ∃ s', rawValue rest = c :: s' := by
          cases hraw : rawValue rest with
          | nil => simp [hraw] at hhead
          | cons d s' =>
            rw [hraw] at hhead
            exact ⟨s', by rw [Option.some.inj hhead]⟩
        rw [hs', strtoull_eq_none hspace hdigit hminus hplus]
        rfl
    cases v with
    | word w =>
      obtain ⟨c, us, hc, rfl⟩ := hP hends
      obtain ⟨ws, hws, hraw⟩ := rawValue_word ht hc hrest
      have hword := strtoull_word ht.1 ht.2 (List.forall_mem_nil _)
      rw [List.append_nil] at hword
      dsimp only [Option.map_some, Option.bind_some, readNat]
      rw [hraw, if_neg (List.append_ne_nil_of_left_ne_nil ht.1 ws), strtoull_word ht.1 ht.2 hws,
        hword]
    | str body => exact hother '"' rfl (by decide) (by decide) (by decide) (by decide)
    | arr vs => exact hother '[' rfl (by decide) (by decide) (by decide) (by decide)
    | obj ms => exact hother '{' rfl (by decide) (by decide) (by decide) (by decide)

theorem parseString_of_offers (h : Offers P (findRawValue s k) t)
    (ht : ∀ m ∈ t, Delimited m.2) :
    parseString s k = (t.map Prod.snd).bind readString := by
  unfold parseString
  generalize findRawValue s k = raw at h
  cases h with
  | none => rfl
  | @some n v ts rest hends hrest =>
    have ht := ht _ rfl
    have hother : ∀ c, firstChar v = some c → isSpace c = false → c ≠ '"' →
        (rawValue rest).head? ≠ some '"' :=
      fun c hc hspace hquote => head?_rawValue_ne hc hspace hquote hrest
    cases v with
    | str body =>
      rw [rawValue_str ht hrest]
      simp [quoted, readString]
    | word w =>
      obtain ⟨c, hfirst, hc⟩ := exists_firstChar_word ht
      have hnot := hother c hfirst (isSpace_of_isAlphanum hc) (ne_of_isAlphanum hc (by decide))
      dsimp only
      rw [if_pos (.inl hnot)]
      rfl
    | arr vs =>
      dsimp only
      rw [if_pos (.inl (hother '[' rfl (by decide) (by decide)))]
      rfl
    | obj ms =>
      dsimp only
      rw [if_pos (.inl (hother '{' rfl (by decide) (by decide)))]
      rfl

/-- A truth value that is offered is read, and nothing is when none is. -/
theorem parseBool_of_offers (h : Offers P (findRawValue s k) t) (hP : ∀ {v ts}, P v ts → Ends ts)
    {b : Option Bool} (ht : t.map Prod.snd = b.map Json.bool) : parseBool s k = b := by
  unfold parseBool
  generalize findRawValue s k = raw at h
  cases h with
  | none =>
    cases b with
    | none => rfl
    | some b => cases ht
  | @some n v ts rest hends hrest =>
    cases b with
    | none => cases ht
    | some b =>
      obtain rfl : v = .bool b := Option.some.inj ht
      obtain ⟨c, us, hc, rfl⟩ := hP hends
      obtain ⟨ws, hws, hword⟩ := rawValue_word (isWord_bool b) hc hrest
      rw [hword]
      cases b with
      | true =>
        have htrue : List.search "true".toList ("true".toList ++ ws) = some _ :=
          List.search_of_prefix (List.prefix_append _ ws)
        show (if "true".toList ++ ws = [] then none
          else if (List.search "true".toList ("true".toList ++ ws)).isSome then some true
          else _) = _
        rw [if_neg (by simp), htrue]
        rfl
      | false =>
        have hspace : 't' ∉ ws := not_mem_of_space hws (by simp [Json.IsSpace])
        have htrue : List.search "true".toList ("false".toList ++ ws) = none :=
          List.search_eq_none_of_skipFree
            (List.skipFree_of_not_mem (List.not_mem_append (by decide) hspace) [])
        have hfalse : List.search "false".toList ("false".toList ++ ws) = some _ :=
          List.search_of_prefix (List.prefix_append _ ws)
        show (if "false".toList ++ ws = [] then none
          else if (List.search "true".toList ("false".toList ++ ws)).isSome then some true
          else if (List.search "false".toList ("false".toList ++ ws)).isSome then some false
          else none) = _
        rw [if_neg (by simp), htrue, hfalse]
        rfl

/-- The members of each object of an array. -/
def readItems : Json → Option (List (List (String × Json)))
  | .arr vs => some (vs.map membersOf)
  | _ => none

theorem readItems_arr (os : List (List (String × Json))) :
    readItems (.arr (os.map .obj)) = some os := by
  simp [readItems, membersOf, Function.comp_def]

/-- An array of flat objects that is offered is read entry by entry. -/
theorem parseItems_of_offers (h : Offers P (findRawValue s k) t)
    (ht : ∀ m ∈ t, HasEnd m.2) {Good : List (String × Json) → Prop}
    (hflat : ∀ {ms}, Good ms → Flat ms)
    (hgood : ∀ m ∈ t, ∀ vs, m.2 = .arr vs →
      ∃ os : List (List (String × Json)), vs = os.map .obj ∧ ∀ ms ∈ os, Good ms)
    {α : Type} {parse : List Char → α} {read : List (String × Json) → α}
    (hparse : ∀ {ms s}, Good ms → Renders (Json.obj ms).tokens s → parse s = read ms)
    (d : List α) :
    (if extractArray s k = [] then d else (splitObjectsInArray (extractArray s k)).map parse) =
      ((t.map Prod.snd).bind readItems).elim d (·.map read) := by
  unfold extractArray
  generalize findRawValue s k = raw at h
  cases h with
  | none => rfl
  | @some n v ts rest hends hrest =>
    have ht := ht _ rfl
    have hother : ∀ c, firstChar v = some c → isSpace c = false → c ≠ '[' →
        (if (rawValue rest).head? = some '[' then rawValue rest else []) = [] := by
      intro c hc hspace hbracket
      exact if_neg (head?_rawValue_ne hc hspace hbracket hrest)
    dsimp only
    cases v with
    | str body =>
      rw [hother '"' rfl (by decide) (by decide)]
      rfl
    | word w =>
      obtain ⟨c, hfirst, hc⟩ := exists_firstChar_word ht
      rw [hother c hfirst (isSpace_of_isAlphanum hc) (ne_of_isAlphanum hc (by decide))]
      rfl
    | obj ms =>
      rw [hother '{' rfl (by decide) (by decide)]
      rfl
    | arr vs =>
      obtain ⟨os, rfl, hos⟩ := hgood _ rfl vs rfl
      have hinner : ∀ t ∈ List.intercalate [.punct ','] (Json.itemTokens (os.map .obj)),
          '[' ∉ t.chars ∧ ']' ∉ t.chars := by
        intro t htok
        rcases Json.mem_itemTokens htok with heq | ⟨v, hv, htok⟩
        · subst heq; decide
        · exact ht v hv t htok
      rw [Json.tokens, List.cons_append, List.append_assoc] at hrest
      obtain ⟨hopen, harr⟩ := rawValue_bracket (.inr ⟨rfl, rfl⟩) hinner hrest
      have hne : rawValue rest ≠ [] := fun hnil => by simp [hnil] at hopen
      have hsplit := splitObjectsInArray_arr (fun ms hms => hflat (hos ms hms))
        (s := rawValue rest) (by rw [Json.tokens]; exact harr)
      have hmap : ∀ {os ss}, (∀ ms ∈ os, Good ms) →
          List.Forall₂ (fun ms o => Renders (Json.obj ms).tokens o) os ss →
          ss.map parse = os.map read := by
        intro os ss hos hforall
        induction hforall with
        | nil => rfl
        | cons hrender _ ih =>
          rw [List.forall_mem_cons] at hos
          rw [List.map_cons, List.map_cons, hparse hos.1 hrender, ih hos.2]
      rw [if_pos hopen, if_neg hne, hmap hos hsplit]
      simp [readItems, membersOf, Function.comp_def]

end TrafficGen.ConfigParser
