import Mathlib.Data.List.Infix

/-!
# Searching a text

`search pattern s` is `s` from the first place on where `pattern` occurs. What comes before
that place can be skipped when no occurrence starts in it.
-/

namespace List

variable {α : Type*} [DecidableEq α]

/-- The text from the first occurrence of `pattern` on. -/
def search (pattern : List α) : List α → Option (List α)
  | [] => if pattern = [] then some [] else none
  | c :: s => if pattern <+: c :: s then some (c :: s) else search pattern s

/-- No occurrence of `pattern` in `a ++ s` starts inside `a`. -/
def SkipFree (pattern a s : List α) : Prop :=
  ∀ u v, a = u ++ v → v ≠ [] → ¬ pattern <+: v ++ s

omit [DecidableEq α] in
theorem skipFree_nil (pattern s : List α) : SkipFree pattern [] s :=
  fun _ _ huv hv => absurd (append_eq_nil_iff.mp huv.symm).2 hv

omit [DecidableEq α] in
theorem skipFree_cons {pattern a s : List α} {c : α} :
    SkipFree pattern (c :: a) s ↔ ¬ pattern <+: c :: (a ++ s) ∧ SkipFree pattern a s := by
  constructor
  · intro h
    exact ⟨h [] (c :: a) rfl (cons_ne_nil c a),
      fun u v huv => h (c :: u) v (congrArg (c :: ·) huv)⟩
  · intro h u v huv hv
    cases u with
    | nil =>
      subst huv
      exact h.1
    | cons d u => exact h.2 u v (cons.inj huv).2 hv

omit [DecidableEq α] in
/-- Two parts without an occurrence put together. -/
theorem SkipFree.append {pattern a b s : List α} (ha : SkipFree pattern a (b ++ s))
    (hb : SkipFree pattern b s) : SkipFree pattern (a ++ b) s := by
  intro u v huv hv
  rcases append_eq_append_iff.mp huv with ⟨w, rfl, rfl⟩ | ⟨w, rfl, rfl⟩
  · exact hb w v rfl hv
  · cases w with
    | nil => exact hb [] b rfl hv
    | cons c w =>
      rw [append_assoc]
      exact ha u (c :: w) rfl (cons_ne_nil c w)

omit [DecidableEq α] in
/-- A part that does not hold the first element of the pattern. -/
theorem skipFree_of_not_mem {c : α} {pattern a : List α} (h : c ∉ a) (s : List α) :
    SkipFree (c :: pattern) a s := by
  intro u v huv hv hstart
  cases v with
  | nil => exact hv rfl
  | cons d v =>
    obtain ⟨rfl, -⟩ := cons_prefix_cons.mp hstart
    exact h (huv ▸ mem_append_right u mem_cons_self)

omit [DecidableEq α] in
/-- Of two words that end at the same mark, one is a prefix of the other only if they are equal. -/
theorem eq_of_marked_prefix {c : α} {a b s : List α} (ha : c ∉ a) (hb : c ∉ b)
    (h : a ++ [c] <+: b ++ c :: s) : a = b := by
  induction a generalizing b with
  | nil =>
    cases b with
    | nil => rfl
    | cons d b => exact absurd (cons_prefix_cons.mp h).1 (ne_of_not_mem_cons hb)
  | cons x a ih =>
    cases b with
    | nil => exact absurd (cons_prefix_cons.mp h).1.symm (ne_of_not_mem_cons ha)
    | cons d b =>
      obtain ⟨rfl, hrest⟩ := cons_prefix_cons.mp h
      rw [ih (not_mem_of_not_mem_cons ha) (not_mem_of_not_mem_cons hb) hrest]

theorem search_skip {pattern a s : List α} (h : SkipFree pattern a s) :
    search pattern (a ++ s) = search pattern s := by
  induction a with
  | nil => rfl
  | cons c a ih =>
    obtain ⟨hc, ha⟩ := skipFree_cons.mp h
    rw [cons_append, search, if_neg hc, ih ha]

theorem search_of_prefix {pattern s : List α} (h : pattern <+: s) :
    search pattern s = some s := by
  cases s with
  | nil => rw [search, if_pos (prefix_nil.mp h)]
  | cons c s => rw [search, if_pos h]

theorem search_eq_none_of_skipFree {c : α} {pattern a : List α}
    (h : SkipFree (c :: pattern) a []) : search (c :: pattern) a = none := by
  rw [← append_nil a, search_skip h, search, if_neg (cons_ne_nil c pattern)]

/-- Searching for one element. -/
theorem search_singleton {c : α} {a : List α} (h : c ∉ a) (s : List α) :
    search [c] (a ++ c :: s) = some (c :: s) := by
  rw [search_skip (skipFree_of_not_mem h _)]
  exact search_of_prefix (prefix_append [c] s)

theorem search_singleton_eq_none {c : α} {a : List α} (h : c ∉ a) : search [c] a = none :=
  search_eq_none_of_skipFree (skipFree_of_not_mem h [])

end List
