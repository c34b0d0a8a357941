import Mathlib

/-! Histories of a registry that offers put-if-absent and take.

A registry maps keys to values. Its history is the list of the operations that
took effect, newest first. The conservation law counts the operations on one
key; uniqueness of the values put makes every take of a value the only one. -/

set_option autoImplicit false

namespace Ledger

variable {κ ν : Type*} [DecidableEq κ]

inductive Entry (κ ν : Type*) where
  | put : κ → ν → Entry κ ν
  | take : κ → ν → Entry κ ν
  deriving DecidableEq, Repr

def Entry.putAt (k : κ) : Entry κ ν → Bool
  | .put k' _ => k' = k
  | .take _ _ => false

def Entry.takeAt (k : κ) : Entry κ ν → Bool
  | .put _ _ => false
  | .take k' _ => k' = k

/-- `Valid l m`: the operations of `l` can have happened in this order, and
afterwards the registry holds `m`. -/
inductive Valid : List (Entry κ ν) → (κ → Option ν) → Prop where
  | nil : Valid [] fun _ => none
  | put {l : List (Entry κ ν)} {m : κ → Option ν} {k : κ} {v : ν} : Valid l m → m k = none →
      Valid (.put k v :: l) (Function.update m k (some v))
  | take {l : List (Entry κ ν)} {m : κ → Option ν} {k : κ} {v : ν} : Valid l m → m k = some v →
      Valid (.take k v :: l) (Function.update m k none)

/-- Conservation: the puts under a key exceed the takes by one exactly while
the key is present. -/
theorem Valid.countP_put {l : List (Entry κ ν)} {m : κ → Option ν} (h : Valid l m) (k : κ) :
    l.countP (Entry.putAt k) = l.countP (Entry.takeAt k) + if (m k).isSome then 1 else 0 := by
  induction h with
  | nil => simp
  | @put l m k' v _ habs ih =>
    by_cases hk : k' = k
    · subst hk
      simp [Entry.putAt, Entry.takeAt, habs] at ih ⊢
      omega
    · simpa [Entry.putAt, Entry.takeAt, hk, Function.update_of_ne (Ne.symm hk)] using ih
  | @take l m k' v _ hpres ih =>
    by_cases hk : k' = k
    · subst hk
      simp [Entry.putAt, Entry.takeAt, hpres] at ih ⊢
      omega
    · simpa [Entry.putAt, Entry.takeAt, hk, Function.update_of_ne (Ne.symm hk)] using ih

def taken : List (Entry κ ν) → List ν
  | [] => []
  | .put _ _ :: l => taken l
  | .take _ v :: l => v :: taken l

def stored : List (Entry κ ν) → List ν
  | [] => []
  | .put _ v :: l => v :: stored l
  | .take _ _ :: l => stored l

theorem Valid.taken_subset {l : List (Entry κ ν)} {m : κ → Option ν} (h : Valid l m) :
    (∀ k v, m k = some v → v ∈ stored l) ∧ ∀ v ∈ taken l, v ∈ stored l := by
  induction h with
  | nil => simp [taken]
  | @put l m k v _ _ ih =>
    refine ⟨fun k' v' hm => ?_, fun v' hv => List.mem_cons_of_mem _ (ih.2 v' hv)⟩
    by_cases hk : k' = k
    · subst hk
      rw [Function.update_self] at hm
      cases hm
      exact List.mem_cons_self
    · rw [Function.update_of_ne hk] at hm
      exact List.mem_cons_of_mem _ (ih.1 k' v' hm)
  | @take l m k v _ hpres ih =>
    refine ⟨fun k' v' hm => ?_, fun v' hv => ?_⟩
    · by_cases hk : k' = k
      · subst hk
        rw [Function.update_self] at hm
        cases hm
      · rw [Function.update_of_ne hk] at hm
        exact ih.1 k' v' hm
    · rcases List.mem_cons.mp hv with rfl | hv
      · exact ih.1 k v' hpres
      · exact ih.2 v' hv

/-- Where no value is put twice, no value is present under two keys, a value
still present was never taken, and no value is taken twice. -/
theorem Valid.nodup_taken {l : List (Entry κ ν)} {m : κ → Option ν} (h : Valid l m)
    (hn : (stored l).Nodup) :
    (∀ k k' v, m k = some v → m k' = some v → k = k') ∧
      (∀ k v, m k = some v → v ∉ taken l) ∧ (taken l).Nodup := by
  induction h with
  | nil => simp [taken]
  | @put l m k v hv _ ih =>
    obtain ⟨hnew, hold⟩ := List.nodup_cons.mp hn
    obtain ⟨hkey, hout, hdup⟩ := ih hold
    have hfresh : ∀ k', m k' ≠ some v := fun k' hm => hnew (hv.taken_subset.1 k' v hm)
    refine ⟨fun k₁ k₂ w h₁ h₂ => ?_, fun k' w hm => ?_, hdup⟩
    · by_cases e₁ : k₁ = k <;> by_cases e₂ : k₂ = k
      · rw [e₁, e₂]
      · subst e₁
        rw [Function.update_self] at h₁
        rw [Function.update_of_ne e₂] at h₂
        cases h₁
        exact absurd h₂ (hfresh k₂)
      · subst e₂
        rw [Function.update_self] at h₂
        rw [Function.update_of_ne e₁] at h₁
        cases h₂
        exact absurd h₁ (hfresh k₁)
      · rw [Function.update_of_ne e₁] at h₁
        rw [Function.update_of_ne e₂] at h₂
        exact hkey k₁ k₂ w h₁ h₂
    · by_cases hk : k' = k
      · subst hk
        rw [Function.update_self] at hm
        cases hm
        exact fun hmem => hnew (hv.taken_subset.2 _ hmem)
      · rw [Function.update_of_ne hk] at hm
        exact hout k' w hm
  | @take l m k v hv hpres ih =>
    obtain ⟨hkey, hout, hdup⟩ := ih hn
    have hrest : ∀ k' w, Function.update m k none k' = some w → k' ≠ k ∧ m k' = some w := by
      intro k' w hm
      by_cases hk : k' = k
      · subst hk
        rw [Function.update_self] at hm
        cases hm
      · rw [Function.update_of_ne hk] at hm
        exact ⟨hk, hm⟩
    refine ⟨fun k₁ k₂ w h₁ h₂ => ?_, fun k' w hm hmem => ?_, ?_⟩
    · exact hkey k₁ k₂ w (hrest k₁ w h₁).2 (hrest k₂ w h₂).2
    · obtain ⟨hne, hm⟩ := hrest k' w hm
      rcases List.mem_cons.mp hmem with rfl | hmem
      · exact hne (hkey k' k w hm hpres)
      · exact hout k' w hm hmem
    · exact List.nodup_cons.mpr ⟨hout k v hpres, hdup⟩

end Ledger
