import WebrtcStreamer.Transition

/-! What holds at every place of a history, and runs that write one down. -/

set_option autoImplicit false

namespace Histories

variable {α : Type*} {xs : List α} {x : α} {P : List α → α → Prop}

theorem forall_split :
    (∀ seen u unseen, xs = seen ++ u :: unseen → P seen u) ↔
      ∀ i, (h : i < xs.length) → P (xs.take i) xs[i] := by
  constructor
  · intro hsplit i h
    exact hsplit (xs.take i) xs[i] (xs.drop (i + 1)) (by simp)
  · rintro hindex seen u unseen rfl
    simpa using hindex seen.length (by simp)

theorem forall_split_append {ys : List α}
    (h : ∀ seen u unseen, xs ++ ys = seen ++ u :: unseen → P seen u) :
    ∀ seen u unseen, xs = seen ++ u :: unseen → P seen u :=
  fun seen u unseen heq => h seen u (unseen ++ ys) (by simp [heq])

theorem forall_split_concat :
    (∀ seen u unseen, xs ++ [x] = seen ++ u :: unseen → P seen u) ↔
      (∀ seen u unseen, xs = seen ++ u :: unseen → P seen u) ∧ P xs x := by
  constructor
  · intro hsplit
    exact ⟨forall_split_append hsplit, hsplit xs x [] rfl⟩
  · rintro ⟨hsplit, hlast⟩ seen u unseen heq
    cases unseen using List.reverseRecOn with
    | nil =>
      obtain ⟨rfl, hsame⟩ := List.append_inj' heq rfl
      cases hsame
      exact hlast
    | append_singleton unseen y =>
      rw [← List.cons_append, ← List.append_assoc] at heq
      exact hsplit seen u unseen (List.append_inj' heq rfl).1

/-- A history that comes in pieces; by induction on the pieces, from the last one. -/
theorem forall_split_flatMap {β : Type*} {f : β → List α} {ys : List β} :
    (∀ seen u unseen, ys.flatMap f = seen ++ u :: unseen → P seen u) ↔
      ∀ done y rest, ys = done ++ y :: rest → ∀ seen u unseen, f y = seen ++ u :: unseen →
        P (done.flatMap f ++ seen) u := by
  constructor
  · rintro hsplit done y rest rfl seen u unseen heq
    refine hsplit _ u (unseen ++ rest.flatMap f) ?_
    simp [heq]
  · intro hpieces
    induction ys using List.reverseRecOn with
    | nil => simp
    | append_singleton ys y ih =>
      intro seen u unseen heq
      have hdone := ih fun done y' rest hys => hpieces done y' (rest ++ [y]) (by simp [hys])
      have hlast := hpieces ys y [] rfl
      rw [List.flatMap_append, List.flatMap_singleton] at heq
      rcases List.append_eq_append_iff.mp heq with ⟨seen', rfl, hy⟩ | ⟨tail, hys, hrest⟩
      · exact hlast seen' u unseen hy
      · cases tail with
        | nil =>
          rw [List.append_nil] at hys
          have hfirst := hlast [] u unseen hrest.symm
          rwa [List.append_nil, hys] at hfirst
        | cons u' tail =>
          cases hrest
          exact hdone seen u tail hys

/-! ### Runs with a record

The record is for proofs only: no step depends on it, so that every run has one. -/

section Records

variable {σ β γ : Type*} {step : σ → β → Option σ} {note : σ → β → σ → γ → γ}

def recorded (step : σ → β → Option σ) (note : σ → β → σ → γ → γ) (s : σ × γ) (a : β) :
    Option (σ × γ) :=
  (step s.1 a).map fun s' => (s', note s.1 a s' s.2)

theorem recorded_step {s s' : σ × γ} {a : β} (h : recorded step note s a = some s') :
    step s.1 a = some s'.1 ∧ s'.2 = note s.1 a s'.1 s.2 := by
  obtain ⟨s₁, hs, rfl⟩ := Option.map_eq_some_iff.mp h
  exact ⟨hs, rfl⟩

theorem reachable_of_recorded {s s' : σ × γ}
    (h : Transition.Reachable (recorded step note) s s') :
    Transition.Reachable step s.1 s'.1 := by
  induction h with
  | refl => exact .refl
  | tail _ _ hs ih => exact .tail ih trivial (recorded_step hs).1

theorem exists_recorded {s s' : σ} (h : Transition.Reachable step s s') (g : γ) :
    ∃ g', Transition.Reachable (recorded step note) (s, g) (s', g') := by
  induction h with
  | refl => exact ⟨g, .refl⟩
  | @tail s₁ s₂ a _ _ hs ih =>
    obtain ⟨g₁, hrun⟩ := ih
    have hnext : recorded step note (s₁, g₁) a = some (s₂, note s₁ a s₂ g₁) := by
      simp [recorded, hs]
    exact ⟨note s₁ a s₂ g₁, .tail hrun trivial hnext⟩

end Records

end Histories
