import TrafficGen.ForStd.Nesting
import TrafficGen.Spec.ConfigText

/-!
# Splitting an array into its objects

`split_objects_in_array` looks for a brace and takes what follows up to the brace that closes it,
by counting (in an `int`, which is a `Nat` here). On any text what it takes are objects, disjoint
and in order; where the text is objects with separators around them it takes exactly these. Its
loop goes on behind the object last taken, so it ends.

## Key results

- `closeBracket_eq_some_iff`: the scanner stops where the bracket is closed
- `splitObjectsLoop_eq`: the loop ends within one round more than there are characters
- `splitObjects_exact`: what is taken are the objects of the text
-/

namespace TrafficGen.ConfigParser

open Nesting

/-! ## One object -/

/-- The scanner takes what closes the brackets that are open, if the text starts with that. -/
theorem closeBracket_eq_some_iff {opening closing : Char} (hne : opening ≠ closing) {depth : Nat}
    (hdepth : 0 < depth) {s body : List Char} :
    closeBracket opening closing depth s = some body ↔
      Closes opening closing depth body ∧ body <+: s := by
  induction s generalizing depth body with
  | nil =>
    refine iff_of_false (by simp [closeBracket]) fun ⟨hbody, hstart⟩ => ?_
    rw [List.prefix_nil.mp hstart] at hbody
    exact absurd (closes_nil_iff.mp hbody) (Nat.ne_of_gt hdepth)
  | cons c s ih =>
    -- the rest of the object is what closes the brackets open behind `c`
    have hrest : ∀ {depth' : Nat}, 0 < depth' →
        (if c = opening then depth + 1 else if c = closing then depth - 1 else depth) = depth' →
        ((closeBracket opening closing depth' s).map (c :: ·) = some body ↔
          Closes opening closing depth body ∧ body <+: c :: s) := by
      intro depth' hdepth' heq
      rw [Option.map_eq_some_iff]
      constructor
      · rintro ⟨rest, hrest, rfl⟩
        obtain ⟨hcloses, hstart⟩ := (ih hdepth').mp hrest
        rw [closes_cons_iff hne hdepth, heq, List.cons_prefix_cons]
        exact ⟨hcloses, rfl, hstart⟩
      · rintro ⟨hcloses, hstart⟩
        cases body with
        | nil => exact absurd (closes_nil_iff.mp hcloses) (Nat.ne_of_gt hdepth)
        | cons x body =>
          obtain ⟨rfl, htail⟩ := List.cons_prefix_cons.mp hstart
          rw [closes_cons_iff hne hdepth, heq] at hcloses
          exact ⟨body, (ih hdepth').mpr ⟨hcloses, htail⟩, rfl⟩
    rw [closeBracket]
    split
    · next hopen => exact hrest (Nat.succ_pos depth) (if_pos hopen)
    · next hopen =>
      split
      · next hclose =>
        split
        · next hone =>
          subst hone
          -- the last bracket is closed
          constructor
          · rintro ⟨⟩
            rw [closes_cons_iff hne hdepth, if_neg hopen, if_pos hclose, List.cons_prefix_cons]
            exact ⟨closes_zero_iff.mpr rfl, rfl, List.nil_prefix⟩
          · rintro ⟨hcloses, hstart⟩
            cases body with
            | nil => exact absurd (closes_nil_iff.mp hcloses) Nat.one_ne_zero
            | cons x body =>
              obtain ⟨rfl, -⟩ := List.cons_prefix_cons.mp hstart
              rw [closes_cons_iff hne hdepth, if_neg hopen, if_pos hclose] at hcloses
              rw [closes_zero_iff.mp hcloses]
        · next hone =>
          exact hrest (by omega) (by rw [if_neg hopen, if_pos hclose])
      · next hclose => exact hrest hdepth (by rw [if_neg hopen, if_neg hclose])

/-- The inner loop stops on the brace that closes the object. -/
theorem closeBracket_eq_scanDepth {depth : Nat} (hdepth : 0 < depth) (s : List Char) :
    closeBracket '{' '}' depth s =
      if (scanDepth depth s).2 = 0 then some (s.take ((scanDepth depth s).1 + 1)) else none := by
  induction s generalizing depth with
  | nil => rw [closeBracket, scanDepth, if_neg (Nat.ne_of_gt hdepth)]
  | cons c s ih =>
    have hmap : ∀ depth', 0 < depth' → (closeBracket '{' '}' depth' s).map (c :: ·) =
        if (scanDepth depth' s).2 = 0 then some ((c :: s).take ((scanDepth depth' s).1 + 1 + 1))
        else none := by
      intro depth' hdepth'
      rw [ih hdepth']
      split
      · rfl
      · rfl
    rw [closeBracket, scanDepth]
    split
    · exact hmap _ (Nat.succ_pos depth)
    · split
      · by_cases hone : depth = 1
        · subst hone
          rfl
        · have hopen : ¬ depth - 1 = 0 := by omega
          rw [if_neg hone, if_neg hopen]
          exact hmap _ (Nat.pos_of_ne_zero hopen)
      · exact hmap _ hdepth

/-! ## The loop -/

/-- A text without an opening brace holds no object. -/
theorem splitObjectsInArray_of_not_mem {s : List Char} (hs : '{' ∉ s) :
    splitObjectsInArray s = [] := by
  rw [← List.append_nil s, splitObjectsInArray_append hs]
  rfl

/-- A brace that is not closed ends the search. -/
theorem splitObjectsInArray_unclosed {s : List Char} (h : closeBracket '{' '}' 1 s = none) :
    splitObjectsInArray ('{' :: s) = [] := by
  rw [splitObjectsInArray, splitObjectsFrom, if_pos rfl, h]

/-- An object of `k` characters is taken off. -/
theorem splitObjectsInArray_take {s : List Char} {k : Nat}
    (h : closeBracket '{' '}' 1 s = some (s.take k)) :
    splitObjectsInArray ('{' :: s) = ('{' :: s.take k) :: splitObjectsInArray (s.drop k) := by
  have hcons := @splitObjectsInArray_cons (s.take k) (s.drop k)
  rw [List.take_append_drop] at hcons
  exact hcons h

/-- The first occurrence of a character splits a text. -/
theorem split_at_findIdx {c : Char} {s : List Char} {n : Nat}
    (h : s.findIdx? (· = c) = some n) :
    n < s.length ∧ c ∉ s.take n ∧ s.drop n = c :: s.drop (n + 1) := by
  obtain ⟨hn, hfound, hbefore⟩ := List.findIdx?_eq_some_iff_getElem.mp h
  refine ⟨hn, fun hmem => ?_, ?_⟩
  · obtain ⟨i, hi, heq⟩ := List.mem_take_iff_getElem.mp hmem
    exact hbefore i (by omega) (by simpa using heq)
  · rw [List.drop_eq_getElem_cons hn]
    congr 1
    simpa using hfound

/-- From any position on, the loop adds the objects of the text from there on. -/
theorem splitObjectsLoop_eq_append (arrayStr : List Char) (fuel pos : Nat)
    (result : List (List Char)) (hfuel : arrayStr.length - pos < fuel) :
    splitObjectsLoop arrayStr fuel pos result =
      some (result ++ splitObjectsInArray (arrayStr.drop pos)) := by
  induction fuel generalizing pos result with
  | zero => exact absurd hfuel (Nat.not_lt_zero _)
  | succ fuel ih =>
    rw [splitObjectsLoop]
    cases hfind : (arrayStr.drop pos).findIdx? (· = '{') with
    | none =>
      have hnone : '{' ∉ arrayStr.drop pos := fun hmem => by
        simpa using List.findIdx?_eq_none_iff.mp hfind _ hmem
      rw [splitObjectsInArray_of_not_mem hnone, List.append_nil]
    | some n =>
      obtain ⟨hn, hbefore, hfound⟩ := split_at_findIdx hfind
      rw [List.drop_drop, List.drop_drop, ← Nat.add_assoc] at hfound
      rw [List.length_drop] at hn
      have hskip : splitObjectsInArray (arrayStr.drop pos) =
          splitObjectsInArray ('{' :: arrayStr.drop (pos + n + 1)) := by
        rw [← List.take_append_drop n (arrayStr.drop pos), splitObjectsInArray_append hbefore,
          List.drop_drop, hfound]
      have hclose := closeBracket_eq_scanDepth Nat.one_pos (arrayStr.drop (pos + n + 1))
      dsimp only
      split
      · next hopen =>
        rw [if_neg hopen] at hclose
        rw [hskip, splitObjectsInArray_unclosed hclose, List.append_nil]
      · next hclosed =>
        rw [if_pos (not_not.mp hclosed)] at hclose
        generalize hk : (scanDepth 1 (arrayStr.drop (pos + n + 1))).1 = k at hclose ⊢
        have hcons := splitObjectsInArray_take hclose
        rw [List.drop_drop] at hcons
        have hpiece : (arrayStr.drop (pos + n)).take (pos + n + 1 + k - (pos + n) + 1) =
            '{' :: (arrayStr.drop (pos + n + 1)).take (k + 1) := by
          rw [hfound, show pos + n + 1 + k - (pos + n) + 1 = k + 1 + 1 by omega,
            List.take_succ_cons]
        rw [ih _ _ (by omega), hskip, hcons, hpiece, List.append_assoc, List.singleton_append]
        rfl

/-- A round for each character and one more are enough. -/
theorem splitObjectsLoop_eq {arrayStr : List Char} {fuel : Nat} (h : arrayStr.length < fuel) :
    splitObjectsLoop arrayStr fuel 0 [] = some (splitObjectsInArray arrayStr) :=
  splitObjectsLoop_eq_append arrayStr fuel 0 [] h

/-! ## All objects -/

/-- Objects, each behind its separator, and what comes behind the last. -/
def separated (fields : List (List Char × List Char)) (rest : List Char) : List Char :=
  fields.flatMap (fun field => field.1 ++ field.2) ++ rest

/-- Fields of an array: in front of the object no object begins. -/
def AreFields (fields : List (List Char × List Char)) : Prop :=
  ∀ field ∈ fields, '{' ∉ field.1 ∧ Object '{' '}' field.2

theorem separated_cons (sep object : List Char) (fields : List (List Char × List Char))
    (rest : List Char) :
    separated ((sep, object) :: fields) rest = sep ++ (object ++ separated fields rest) := by
  rw [separated, List.flatMap_cons, List.append_assoc, List.append_assoc]
  rfl

/-- The objects of the fields are taken off the front of a text. -/
theorem splitObjectsInArray_separated {fields : List (List Char × List Char)}
    (hfields : AreFields fields) (rest : List Char) :
    splitObjectsInArray (separated fields rest) =
      fields.map (·.2) ++ splitObjectsInArray rest := by
  induction fields with
  | nil => rfl
  | cons field fields ih =>
    obtain ⟨sep, object⟩ := field
    obtain ⟨⟨hsep, hobject⟩, hrest⟩ := List.forall_mem_cons.mp hfields
    obtain ⟨body, rfl⟩ : ∃ body, object = '{' :: body := List.head?_eq_some_iff.mp hobject.opens
    have hclose : closeBracket '{' '}' 1 (body ++ separated fields rest) = some body :=
      (closeBracket_eq_some_iff (by decide) Nat.one_pos).mpr
        ⟨(object_cons_iff (by decide)).mp hobject, List.prefix_append _ _⟩
    rw [separated_cons, splitObjectsInArray_append hsep, List.cons_append,
      splitObjectsInArray_cons hclose, ih hrest]
    rfl

/-- Every text is fields and a rest that yields no object. -/
theorem exists_fields (s : List Char) : ∃ fields rest,
    AreFields fields ∧ s = separated fields rest ∧ splitObjectsInArray rest = [] := by
  induction hlen : s.length using Nat.strong_induction_on generalizing s with
  | _ n ih =>
    cases hfind : s.findIdx? (· = '{') with
    | none =>
      have hnone : '{' ∉ s := fun hmem => by
        simpa using List.findIdx?_eq_none_iff.mp hfind _ hmem
      exact ⟨[], s, List.forall_mem_nil _, rfl, splitObjectsInArray_of_not_mem hnone⟩
    | some k =>
      obtain ⟨hk, hbefore, hfound⟩ := split_at_findIdx hfind
      have htext : s = s.take k ++ '{' :: s.drop (k + 1) := by
        rw [← hfound, List.take_append_drop]
      cases hclose : closeBracket '{' '}' 1 (s.drop (k + 1)) with
      | none =>
        refine ⟨[], s, List.forall_mem_nil _, rfl, ?_⟩
        rw [htext, splitObjectsInArray_append hbefore, splitObjectsInArray_unclosed hclose]
      | some body =>
        obtain ⟨hobject, tail, htail⟩ :=
          (closeBracket_eq_some_iff (by decide) Nat.one_pos).mp hclose
        have hshort : tail.length < n := by
          have := congrArg List.length htail
          rw [List.length_append, List.length_drop] at this
          omega
        obtain ⟨fields, rest, hfields, rfl, hrest⟩ := ih _ hshort tail rfl
        refine ⟨(s.take k, '{' :: body) :: fields, rest, List.forall_mem_cons.mpr
          ⟨⟨hbefore, (object_cons_iff (by decide)).mpr hobject⟩, hfields⟩, ?_, hrest⟩
        rw [separated_cons, List.cons_append, htail]
        exact htext

/-- Of objects with separators around them the objects are taken, in order, and of any text at
    all what is taken are objects, disjoint and in order; and the loop ends. -/
theorem splitObjects_exact :
    (∀ fields last, AreFields fields → '{' ∉ last →
      splitObjectsInArray (separated fields last) = fields.map (·.2)) ∧
    ∀ arrayStr,
      (∃ fields rest, AreFields fields ∧ arrayStr = separated fields rest ∧
        splitObjectsInArray arrayStr = fields.map (·.2)) ∧
      ∀ fuel, arrayStr.length < fuel →
        splitObjectsLoop arrayStr fuel 0 [] = some (splitObjectsInArray arrayStr) := by
  refine ⟨fun fields last hfields hlast => ?_, fun arrayStr => ⟨?_, fun _ => splitObjectsLoop_eq⟩⟩
  · rw [splitObjectsInArray_separated hfields, splitObjectsInArray_of_not_mem hlast,
      List.append_nil]
  · obtain ⟨fields, rest, hfields, rfl, hrest⟩ := exists_fields arrayStr
    refine ⟨fields, rest, hfields, rfl, ?_⟩
    rw [splitObjectsInArray_separated hfields, hrest, List.append_nil]

/-- A nested object and an empty one. -/
theorem splitObjects_nested :
    splitObjectsInArray "[\x7b\"a\":\x7b\x7d\x7d, \x7b\x7d]".toList =
      ["\x7b\"a\":\x7b\x7d\x7d".toList, "\x7b\x7d".toList] := by
  have hobject : ∀ {body : List Char}, closeBracket '{' '}' 1 body = some body →
      Object '{' '}' ('{' :: body) := fun h =>
    (object_cons_iff (by decide)).mpr
      ((closeBracket_eq_some_iff (by decide) Nat.one_pos).mp h).1
  have hfields : AreFields [("[".toList, "\x7b\"a\":\x7b\x7d\x7d".toList),
      (", ".toList, "\x7b\x7d".toList)] :=
    List.forall_mem_cons.mpr ⟨⟨by decide, hobject (by decide)⟩,
      List.forall_mem_singleton.mpr ⟨by decide, hobject (by decide)⟩⟩
  exact splitObjects_exact.1 _ "]".toList hfields (by decide)

end TrafficGen.ConfigParser
