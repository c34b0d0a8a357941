import Mathlib

/-! Things that are kept as long as somebody uses them, shared by holders that
come and go. -/

set_option autoImplicit false

namespace Sharing

variable {K L : Type*}

/-- Who uses what, and what is kept. -/
@[ext] structure Table (K L : Type*) where
  uses : K → Set L
  kept : Set L

namespace Table

variable (t : Table K L) (gone gone' : Set K)

def used : Set L := {l | ∃ k, l ∈ t.uses k}

def orphans : Set L := t.kept \ t.used

/-- Some holders go at once; what only they used is no longer kept. -/
def release : Table K L where
  uses k := {l | k ∉ gone ∧ l ∈ t.uses k}
  kept := {l | l ∈ t.kept ∧ ((∃ k ∉ gone, l ∈ t.uses k) ∨ l ∉ t.used)}

variable {t gone gone'}

theorem used_release : (t.release gone).used = {l | ∃ k ∉ gone, l ∈ t.uses k} := rfl

theorem release_used_subset : (t.release gone).used ⊆ t.used := fun _ ⟨k, _, hl⟩ => ⟨k, hl⟩

theorem release_empty : t.release ∅ = t := by
  refine Table.ext (funext fun k => ?_) ?_
  · ext l
    simp [release]
  · ext l
    simp only [release, used, Set.mem_ofPred_eq, Set.mem_empty_iff_false, not_false_eq_true,
      true_and, em, and_true]

theorem orphans_release : (t.release gone).orphans = t.orphans := by
  ext l
  constructor
  · rintro ⟨⟨hkept, hstill | hfree⟩, hnot⟩
    · exact absurd hstill hnot
    · exact ⟨hkept, hfree⟩
  · rintro ⟨hkept, hfree⟩
    exact ⟨⟨hkept, .inr hfree⟩, fun hstill => hfree (release_used_subset hstill)⟩

theorem release_congr (h : ∀ k, (t.uses k).Nonempty → (k ∈ gone ↔ k ∈ gone')) :
    t.release gone = t.release gone' := by
  have hstill (k : K) (l : L) : k ∉ gone ∧ l ∈ t.uses k ↔ k ∉ gone' ∧ l ∈ t.uses k :=
    and_congr_left fun hl => not_congr (h k ⟨l, hl⟩)
  refine Table.ext (funext fun k => Set.ext fun l => hstill k l) (Set.ext fun l => ?_)
  exact and_congr_right fun _ => or_congr_left (exists_congr fun k => hstill k l)

theorem release_release : (t.release gone).release gone' = t.release (gone ∪ gone') := by
  ext k l
  · simp only [release, Set.mem_ofPred_eq, Set.mem_union, not_or]
    tauto
  · simp only [release, used, Set.mem_ofPred_eq, Set.mem_union, not_or]
    constructor
    · rintro ⟨⟨hkept, hstill⟩, ⟨j, hj', hj, hl⟩ | hfree⟩
      · exact ⟨hkept, .inl ⟨j, ⟨hj, hj'⟩, hl⟩⟩
      · refine ⟨hkept, .inr fun ⟨j, hl⟩ => ?_⟩
        rcases hstill with ⟨i, hi, hl'⟩ | hnone
        · exact hfree ⟨i, hi, hl'⟩
        · exact hnone ⟨j, hl⟩
    · rintro ⟨hkept, ⟨j, ⟨hj, hj'⟩, hl⟩ | hfree⟩
      · exact ⟨⟨hkept, .inl ⟨j, hj, hl⟩⟩, .inl ⟨j, hj', hj, hl⟩⟩
      · exact ⟨⟨hkept, .inr hfree⟩, .inr fun ⟨j, _, hl⟩ => hfree ⟨j, hl⟩⟩

theorem kept_release_all (h : ∀ k ∉ gone, t.uses k = ∅) : (t.release gone).kept = t.orphans := by
  have hnone : (t.release gone).used = ∅ := by
    ext l
    simp only [used_release, Set.mem_ofPred_eq, Set.mem_empty_iff_false, iff_false]
    rintro ⟨k, hk, hl⟩
    rw [h k hk] at hl
    exact hl
  rw [← orphans_release, orphans, hnone, Set.sdiff_empty]

end Table

end Sharing
