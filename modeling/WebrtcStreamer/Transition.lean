import Mathlib

/-! Labelled transition systems given by a partial step function.

A step is taken from a state by an action; `none` means that the action is not
enabled there. Runs may be restricted by a condition on the state before each
step, so that one induction serves every conditional safety statement. -/

set_option autoImplicit false

namespace Transition

variable {σ α : Type*}

/-- `Reaches step ok s s'`: some run leads from `s` to `s'`, and `ok` holds of
the state before each of its steps. -/
inductive Reaches (step : σ → α → Option σ) (ok : σ → α → Prop) (s : σ) : σ → Prop where
  | refl : Reaches step ok s s
  | tail {s₁ s₂ : σ} {a : α} : Reaches step ok s s₁ → ok s₁ a → step s₁ a = some s₂ →
      Reaches step ok s s₂

abbrev Reachable (step : σ → α → Option σ) (s s' : σ) : Prop :=
  Reaches step (fun _ _ => True) s s'

variable {step : σ → α → Option σ} {ok ok' : σ → α → Prop} {s s' s'' : σ}

/-- What holds first and is preserved by every allowed step holds in the end. -/
theorem Reaches.invariant (I : σ → Prop) (h : Reaches step ok s s') (hs : I s)
    (hstep : ∀ s₁ a s₂, I s₁ → ok s₁ a → step s₁ a = some s₂ → I s₂) : I s' := by
  induction h with
  | refl => exact hs
  | tail _ ha he ih => exact hstep _ _ _ ih ha he

theorem Reaches.mono (h : Reaches step ok s s') (himp : ∀ s a, ok s a → ok' s a) :
    Reaches step ok' s s' := by
  induction h with
  | refl => exact .refl
  | tail _ ha he ih => exact .tail ih (himp _ _ ha) he

theorem Reaches.reachable (h : Reaches step ok s s') : Reachable step s s' :=
  h.mono fun _ _ _ => trivial

theorem Reaches.trans (h : Reaches step ok s s') (h' : Reaches step ok s' s'') :
    Reaches step ok s s'' := by
  induction h' with
  | refl => exact h
  | tail _ ha he ih => exact .tail ih ha he

theorem Reaches.single {a : α} (ha : ok s a) (he : step s a = some s') :
    Reaches step ok s s' := .tail .refl ha he

def run (step : σ → α → Option σ) (ok : σ → α → Prop) [∀ s a, Decidable (ok s a)] :
    σ → List α → Option σ
  | s, [] => some s
  | s, a :: rest => if ok s a then (step s a).bind (run step ok · rest) else none

theorem reaches_of_run [∀ s a, Decidable (ok s a)] (l : List α) (h : run step ok s l = some s') :
    Reaches step ok s s' := by
  induction l generalizing s with
  | nil =>
    cases h
    exact .refl
  | cons a rest ih =>
    by_cases ha : ok s a
    · cases hs : step s a with
      | none => simp [run, ha, hs] at h
      | some s₁ =>
        simp only [run, ha, if_true, hs, Option.bind_some] at h
        exact (Reaches.single ha hs).trans (ih h)
    · simp [run, ha] at h

theorem exists_reaches_of_run (step : σ → α → Option σ) (ok : σ → α → Prop)
    [∀ s a, Decidable (ok s a)] (s : σ) (l : List α) (p : σ → Bool)
    (h : (run step ok s l).any p = true) : ∃ s', Reaches step ok s s' ∧ p s' = true := by
  cases hr : run step ok s l with
  | none => simp [hr] at h
  | some s' => exact ⟨s', reaches_of_run l hr, by simpa [hr] using h⟩

/-! A pool of threads is the list of their local states. -/

section Pool

variable {τ : Type*} {l : List τ} {t j : Nat} {x y : τ}

theorem get_set (h : (l.set t x)[j]? = some y) : (j = t ∧ y = x) ∨ (j ≠ t ∧ l[j]? = some y) := by
  rw [List.getElem?_set] at h
  by_cases hj : t = j
  · rw [if_pos hj] at h
    split at h
    · cases h
      exact .inl ⟨hj.symm, rfl⟩
    · cases h
  · rw [if_neg hj] at h
    exact .inr ⟨fun he => hj he.symm, h⟩

theorem get_push (h : (l ++ [x])[j]? = some y) : l[j]? = some y ∨ (j = l.length ∧ y = x) := by
  rw [List.getElem?_append] at h
  split at h
  · exact .inl h
  · obtain ⟨hlt, heq⟩ := List.getElem?_eq_some_iff.mp h
    rw [List.length_singleton] at hlt
    simp only [List.getElem_singleton] at heq
    exact .inr ⟨by omega, heq.symm⟩

theorem mem_set (h : y ∈ l.set t x) : y = x ∨ y ∈ l := (List.mem_or_eq_of_mem_set h).symm

theorem countP_set_add (p : τ → Bool) (hx : l[t]? = some x) :
    (l.set t y).countP p + (if p x then 1 else 0) = l.countP p + if p y then 1 else 0 := by
  obtain ⟨hlt, rfl⟩ := List.getElem?_eq_some_iff.mp hx
  have hpos : p l[t] = true → 0 < l.countP p := fun hp =>
    List.countP_pos_iff.mpr ⟨l[t], List.getElem_mem hlt, hp⟩
  rw [List.countP_set hlt]
  by_cases hp : p l[t] = true
  · have := hpos hp
    simp only [hp, if_true]
    omega
  · simp [hp]

end Pool

end Transition
