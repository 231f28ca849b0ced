import Mathlib.Logic.Function.Basic

/-!
# An index over two-way keys

Owners are filed under a key, and an index answers, for a key or its reverse,
which owner to use. The index is a second map kept beside the first, so it can
drift from it in two ways: an entry may name an owner whose key is not that one
(`Sound` fails), or an owner may have no entry for its key (`Complete` fails).

For each operation the lemmas say exactly when it keeps either property.
-/

/-- Owners filed under keys, and the index from keys to owners. -/
structure KeyedIndex (ι κ : Type*) where
  owner : ι → Option κ
  entry : κ → Option ι

namespace KeyedIndex

variable {ι κ : Type*} [DecidableEq ι] [DecidableEq κ]

/-- `k'` is the key `k` in one of its two directions. -/
def Same (rev : κ → κ) (k k' : κ) : Prop := k' = k ∨ k' = rev k

instance (rev : κ → κ) (k k' : κ) : Decidable (Same rev k k') :=
  inferInstanceAs (Decidable (_ ∨ _))

/-- File owner `i` under `k`, and index it under both directions of `k`. -/
def put (rev : κ → κ) (ix : KeyedIndex ι κ) (i : ι) (k : κ) : KeyedIndex ι κ where
  owner := fun j => if j = i then some k else ix.owner j
  entry := fun k' => if Same rev k k' then some i else ix.entry k'

/-- Forget owner `i` and whatever the index holds under its key. -/
def drop (rev : κ → κ) (ix : KeyedIndex ι κ) (i : ι) : KeyedIndex ι κ :=
  match ix.owner i with
  | none => ix
  | some k =>
    { owner := fun j => if j = i then none else ix.owner j
      entry := fun k' => if Same rev k k' then none else ix.entry k' }

/-- Forget every owner, leaving the index as it is. -/
def clear (ix : KeyedIndex ι κ) : KeyedIndex ι κ where
  owner := fun _ => none
  entry := ix.entry

/-- Every entry names an owner filed under that key, in one direction or the other. -/
def Sound (rev : κ → κ) (ix : KeyedIndex ι κ) : Prop :=
  ∀ k i, ix.entry k = some i → ∃ k', ix.owner i = some k' ∧ Same rev k' k

/-- Looking up `k₀` finds an owner filed under `k`, in one direction or the other. -/
def Finds (rev : κ → κ) (ix : KeyedIndex ι κ) (k₀ k : κ) : Prop :=
  ∃ j k', ix.entry k₀ = some j ∧ ix.owner j = some k' ∧ Same rev k k'

/-- Every owner's key is found in both directions. -/
def Complete (rev : κ → κ) (ix : KeyedIndex ι κ) : Prop :=
  ∀ i k, ix.owner i = some k → Finds rev ix k k ∧ Finds rev ix (rev k) k

variable {rev : κ → κ}

/-! ## Keys up to direction -/

omit [DecidableEq κ] in
theorem Same.symm (hrev : Function.Involutive rev) {k k' : κ} (h : Same rev k k') :
    Same rev k' k := by
  rcases h with rfl | rfl
  · exact Or.inl rfl
  · exact Or.inr (hrev k).symm

omit [DecidableEq κ] in
theorem same_rev_iff (hrev : Function.Involutive rev) (k k' : κ) :
    Same rev k (rev k') ↔ Same rev k k' := by
  constructor
  · rintro (h | h)
    · exact Or.inr (by rw [← h, hrev])
    · exact Or.inl (hrev.injective h)
  · rintro (rfl | rfl)
    · exact Or.inr rfl
    · exact Or.inl (hrev k)

omit [DecidableEq κ] in
/-- Keys that are not the same up to direction have no key in common with each other. -/
theorem apart_of_not_same (hrev : Function.Involutive rev) {k k' : κ} (h : ¬ Same rev k k')
    (k₀ : κ) : ¬ (Same rev k k₀ ∧ Same rev k' k₀) := by
  rintro ⟨rfl | rfl, hk'⟩
  · exact h (hk'.symm hrev)
  · exact h (((same_rev_iff hrev _ _).mp hk').symm hrev)

/-! ## Soundness -/

/-- Filing `i` under `k` keeps the index sound exactly when the index names `i` under
    no key but `k`. -/
theorem sound_put_iff {ix : KeyedIndex ι κ} (h : ix.Sound rev) (i : ι) (k : κ) :
    (ix.put rev i k).Sound rev ↔ ∀ k', ix.entry k' = some i → Same rev k k' := by
  constructor
  · intro hput k' hk'
    by_cases hsame : Same rev k k'
    · exact hsame
    · -- `put` kept this entry, and `i` is now filed under `k`
      obtain ⟨k'', hown, hdir⟩ := hput k' i (by simpa only [put, if_neg hsame] using hk')
      simp only [put, if_true, Option.some.injEq] at hown
      exact hown ▸ hdir
  · intro hi k' j hj
    by_cases hsame : Same rev k k'
    · simp only [put, if_pos hsame, Option.some.injEq] at hj
      subst hj
      exact ⟨k, by simp only [put, if_true], hsame⟩
    · simp only [put, if_neg hsame] at hj
      -- an older entry does not name `i`, so its owner is untouched
      have hne : j ≠ i := fun hji => hsame (hi k' (hji ▸ hj))
      obtain ⟨k'', hown, hdir⟩ := h k' j hj
      exact ⟨k'', by simpa only [put, if_neg hne] using hown, hdir⟩

/-- Dropping an owner keeps a sound index sound. -/
theorem sound_drop {ix : KeyedIndex ι κ} (h : ix.Sound rev) (i : ι) :
    (ix.drop rev i).Sound rev := by
  cases hown : ix.owner i with
  | none => simpa only [drop, hown] using h
  | some k =>
    intro k' j hj
    simp only [drop, hown] at hj ⊢
    split at hj
    · cases hj
    · next hsame =>
      obtain ⟨k'', hj', hdir⟩ := h k' j hj
      -- `i` is filed under `k`, whose entries are gone
      have hne : j ≠ i := by
        rintro rfl
        rw [hown, Option.some.injEq] at hj'
        exact hsame (hj' ▸ hdir)
      exact ⟨k'', by rw [if_neg hne, hj'], hdir⟩

omit [DecidableEq ι] [DecidableEq κ] in
/-- Forgetting the owners alone is sound only over an empty index. -/
theorem sound_clear_iff (ix : KeyedIndex ι κ) :
    ix.clear.Sound rev ↔ ∀ k, ix.entry k = none := by
  constructor
  · intro h k
    cases hk : ix.entry k with
    | none => rfl
    | some i =>
      obtain ⟨_, hown, _⟩ := h k i hk
      cases hown
  · intro h k i hk
    rw [clear, h k] at hk
    cases hk

/-! ## Completeness -/

theorem finds_put_of_same {ix : KeyedIndex ι κ} (hrev : Function.Involutive rev) {i : ι}
    {k k₀ k' : κ} (hk₀ : Same rev k k₀) (hk' : Same rev k k') :
    (ix.put rev i k).Finds rev k₀ k' :=
  ⟨i, k, by simp only [put, if_pos hk₀], by simp only [put, if_true], hk'.symm hrev⟩

/-- A lookup that `put` does not redirect finds what it found, unless it found `i`. -/
theorem finds_put_of_not_same {ix : KeyedIndex ι κ} {i : ι} {k k₀ k' : κ}
    (h : ix.Finds rev k₀ k') (hk₀ : ¬ Same rev k k₀) (hi : ix.entry k₀ ≠ some i) :
    (ix.put rev i k).Finds rev k₀ k' := by
  obtain ⟨j, k₁, hj, hown, hdir⟩ := h
  have hne : j ≠ i := fun hji => hi (hji ▸ hj)
  exact ⟨j, k₁, by simpa only [put, if_neg hk₀] using hj,
    by simpa only [put, if_neg hne] using hown, hdir⟩

/-- Filing `i` under `k` keeps the index complete exactly when no other owner is found
    through `i` under a key that is not `k`. -/
theorem complete_put_iff (hrev : Function.Involutive rev) {ix : KeyedIndex ι κ}
    (h : ix.Complete rev) (i : ι) (k : κ) :
    (ix.put rev i k).Complete rev ↔
      ∀ j k', j ≠ i → ix.owner j = some k' →
        (ix.entry k' = some i ∨ ix.entry (rev k') = some i) → Same rev k k' := by
  constructor
  · intro hput j k' hne hown hentry
    by_cases hsame : Same rev k k'
    · exact hsame
    · have hsame' : ¬ Same rev k (rev k') := by rwa [same_rev_iff hrev]
      obtain ⟨⟨j₁, k₁, hj₁, hown₁, hdir₁⟩, ⟨j₂, k₂, hj₂, hown₂, hdir₂⟩⟩ :=
        hput j k' (by simpa only [put, if_neg hne] using hown)
      simp only [put, if_neg hsame, if_neg hsame'] at hj₁ hj₂ hown₁ hown₂
      -- one direction of `k'` still leads to `i`, which is filed under `k` now
      rcases hentry with he | he
      · rw [he, Option.some.injEq] at hj₁
        rw [if_pos hj₁.symm, Option.some.injEq] at hown₁
        exact (hown₁ ▸ hdir₁).symm hrev
      · rw [he, Option.some.injEq] at hj₂
        rw [if_pos hj₂.symm, Option.some.injEq] at hown₂
        exact (hown₂ ▸ hdir₂).symm hrev
  · intro hi j k' hown
    by_cases hji : j = i
    · simp only [put, if_pos hji, Option.some.injEq] at hown
      subst hown
      exact ⟨finds_put_of_same hrev (Or.inl rfl) (Or.inl rfl),
        finds_put_of_same hrev (Or.inr rfl) (Or.inl rfl)⟩
    · simp only [put, if_neg hji] at hown
      by_cases hsame : Same rev k k'
      · exact ⟨finds_put_of_same hrev hsame hsame,
          finds_put_of_same hrev ((same_rev_iff hrev k k').mpr hsame) hsame⟩
      · -- neither direction was redirected, and neither leads to `i`
        have hsame' : ¬ Same rev k (rev k') := by rwa [same_rev_iff hrev]
        obtain ⟨hfwd, hbwd⟩ := h j k' hown
        exact ⟨finds_put_of_not_same hfwd hsame fun he => hsame (hi j k' hji hown (Or.inl he)),
          finds_put_of_not_same hbwd hsame' fun he => hsame (hi j k' hji hown (Or.inr he))⟩

/-- Dropping `i` keeps the index complete exactly when no other owner shares its key. -/
theorem complete_drop_iff (hrev : Function.Involutive rev) {ix : KeyedIndex ι κ}
    (h : ix.Complete rev) (i : ι) :
    (ix.drop rev i).Complete rev ↔
      ∀ k j k', ix.owner i = some k → j ≠ i → ix.owner j = some k' → ¬ Same rev k k' := by
  cases hown : ix.owner i with
  | none =>
    simp only [drop, hown, reduceCtorEq, false_implies, implies_true, iff_true]
    exact h
  | some k =>
    simp only [Complete, Finds, drop, hown, Option.some.injEq]
    constructor
    · rintro hdrop _ j k' rfl hne hj hsame
      -- the entries of `k` were taken away, so nothing is found under `k'`
      obtain ⟨⟨_, _, hentry, _⟩, _⟩ := hdrop j k' (by rw [if_neg hne, hj])
      rw [if_pos hsame] at hentry
      cases hentry
    · intro hfree j k' hj
      split at hj
      · cases hj
      · next hne =>
        have hsame : ¬ Same rev k k' := hfree k j k' rfl hne hj
        have hsame' : ¬ Same rev k (rev k') := by rwa [same_rev_iff hrev]
        -- what is found under `k'` is filed under `k'`, so it is not the dropped owner
        have hkeep : ∀ k₀, ¬ Same rev k k₀ → ix.Finds rev k₀ k' →
            ∃ j₁ k₁, (if Same rev k k₀ then none else ix.entry k₀) = some j₁ ∧
              (if j₁ = i then none else ix.owner j₁) = some k₁ ∧ Same rev k' k₁ := by
          rintro k₀ hk₀ ⟨j₁, k₁, hj₁, hown₁, hdir⟩
          have hne₁ : j₁ ≠ i := by
            rintro rfl
            rw [hown, Option.some.injEq] at hown₁
            exact hsame ((hown₁ ▸ hdir).symm hrev)
          exact ⟨j₁, k₁, by rw [if_neg hk₀, hj₁], by rw [if_neg hne₁, hown₁], hdir⟩
        obtain ⟨hfwd, hbwd⟩ := h j k' hj
        exact ⟨hkeep k' hsame hfwd, hkeep (rev k') hsame' hbwd⟩

omit [DecidableEq ι] [DecidableEq κ] in
/-- With no owner left there is nothing to find. -/
theorem complete_clear (ix : KeyedIndex ι κ) : ix.clear.Complete rev := by
  intro i k h
  cases h

end KeyedIndex
