import Mathlib.Data.List.Count
import Mathlib.Data.List.Infix

/-!
# Nested brackets

A text balances its brackets when it opens as many as it closes, and an object is balanced for
the first time at its end: it is the shortest balanced text from its first bracket on.
`Closes depth s` is the same with `depth` brackets open in front of `s`, which is what a scanner
with a depth counter keeps.
-/

namespace Nesting

variable {α : Type*} [DecidableEq α]

/-- As many brackets opened as closed. -/
def Balanced (opening closing : α) (s : List α) : Prop :=
  s.count opening = s.count closing

/-- A bracket and what follows up to the one that matches it. -/
structure Object (opening closing : α) (s : List α) : Prop where
  opens : s.head? = some opening
  closes : s.getLast? = some closing
  balanced : Balanced opening closing s
  minimal : ∀ p q, s = p ++ q → p ≠ [] → q ≠ [] → ¬ Balanced opening closing p

/-- The last bracket of `depth` open ones is closed at the end of the text and not before. -/
structure Closes (opening closing : α) (depth : Nat) (s : List α) : Prop where
  balanced : s.count closing = s.count opening + depth
  minimal : ∀ p q, s = p ++ q → q ≠ [] → p.count closing < p.count opening + depth

section Scanning

variable {opening closing x : α} {depth : Nat} {s : List α}

theorem closes_nil_iff : Closes opening closing depth [] ↔ depth = 0 := by
  constructor
  · intro h
    simpa using h.balanced.symm
  · rintro rfl
    exact ⟨rfl, fun p q hpq hq => absurd (List.append_eq_nil_iff.mp hpq.symm).2 hq⟩

/-- With none open there is nothing to close. -/
theorem closes_zero_iff : Closes opening closing 0 s ↔ s = [] := by
  constructor
  · intro h
    by_contra hs
    simpa using h.minimal [] s rfl hs
  · rintro rfl
    exact closes_nil_iff.mpr rfl

/-- What one character does to the depth. -/
theorem closes_cons_iff (hne : opening ≠ closing) (hdepth : 0 < depth) :
    Closes opening closing depth (x :: s) ↔
      Closes opening closing
        (if x = opening then depth + 1 else if x = closing then depth - 1 else depth) s := by
  have hcount : ∀ t : List α, ((x :: t).count closing < (x :: t).count opening + depth ↔
      t.count closing < t.count opening +
        if x = opening then depth + 1 else if x = closing then depth - 1 else depth) ∧
      ((x :: t).count closing = (x :: t).count opening + depth ↔
      t.count closing = t.count opening +
        if x = opening then depth + 1 else if x = closing then depth - 1 else depth) := by
    intro t
    rw [List.count_cons, List.count_cons]
    by_cases hopen : x = opening
    · subst hopen
      simp only [beq_self_eq_true, if_true, beq_eq_false_iff_ne.mpr hne, Bool.false_eq_true,
        if_false]
      omega
    · by_cases hclose : x = closing
      · subst hclose
        simp only [beq_self_eq_true, if_true, beq_eq_false_iff_ne.mpr hopen, Bool.false_eq_true,
          if_false, if_neg hopen]
        omega
      · simp only [beq_eq_false_iff_ne.mpr hopen, beq_eq_false_iff_ne.mpr hclose,
          Bool.false_eq_true, if_false, if_neg hopen, if_neg hclose]
        omega
  constructor
  · intro h
    refine ⟨(hcount s).2.mp h.balanced, fun p q hpq hq => (hcount p).1.mp ?_⟩
    exact h.minimal (x :: p) q (congrArg (x :: ·) hpq) hq
  · intro h
    refine ⟨(hcount s).2.mpr h.balanced, fun p q hpq hq => ?_⟩
    cases p with
    | nil => simpa using hdepth
    | cons y p =>
      obtain ⟨rfl, hs⟩ := List.cons.inj hpq
      exact (hcount p).1.mpr (h.minimal p q hs hq)

/-- What closes brackets ends with one. -/
theorem Closes.getLast?_eq (hdepth : 0 < depth) (h : Closes opening closing depth s) :
    s.getLast? = some closing := by
  rcases List.eq_nil_or_concat s with rfl | ⟨p, x, rfl⟩
  · exact absurd (closes_nil_iff.mp h) (Nat.ne_of_gt hdepth)
  · have hp := h.minimal p [x] List.concat_eq_append (List.cons_ne_nil x [])
    have hall := h.balanced
    rw [List.concat_eq_append, List.count_append, List.count_append] at hall
    rw [List.concat_eq_append, List.getLast?_append]
    by_contra hx
    have hx : x ≠ closing := fun h => hx (congrArg some h)
    have : [x].count closing = 0 := List.count_eq_zero_of_not_mem (by simpa using hx.symm)
    omega

/-- An object is a bracket and what closes it. -/
theorem object_cons_iff (hne : opening ≠ closing) :
    Object opening closing (opening :: s) ↔ Closes opening closing 1 s := by
  have hcount : ∀ t : List α, Balanced opening closing (opening :: t) ↔
      t.count closing = t.count opening + 1 := by
    intro t
    rw [Balanced, List.count_cons_self, List.count_cons_of_ne hne]
    exact eq_comm
  constructor
  · intro h
    refine ⟨(hcount s).mp h.balanced, fun p => ?_⟩
    -- the depth changes by one at most, so it does not pass zero unseen
    induction p using List.reverseRecOn with
    | nil =>
      intro q _ _
      exact Nat.one_pos
    | append_singleton p x ih =>
      intro q hs hq
      have hp := ih (x :: q) (by rw [hs, List.append_assoc, List.singleton_append])
        (List.cons_ne_nil x q)
      have hunbalanced := mt (hcount (p ++ [x])).mpr
        (h.minimal (opening :: (p ++ [x])) q (congrArg (opening :: ·) hs) (List.cons_ne_nil _ _) hq)
      have hstep : [x].count closing ≤ 1 := List.count_le_length
      rw [List.count_append, List.count_append] at hunbalanced ⊢
      omega
  · intro h
    refine ⟨rfl, ?_, (hcount s).mpr h.balanced, fun p q hpq hp hq => ?_⟩
    · rw [List.getLast?_cons, h.getLast?_eq Nat.one_pos]
      rfl
    · cases p with
      | nil => exact absurd rfl hp
      | cons y p =>
        obtain ⟨rfl, hs⟩ := List.cons.inj hpq
        rw [hcount]
        exact Nat.ne_of_lt (h.minimal p q hs hq)

end Scanning

end Nesting
