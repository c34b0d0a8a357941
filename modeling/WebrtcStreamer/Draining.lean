import Mathlib

/-! Systems that come to an end.

`Drains moves done s` says that from `s` no sequence of moves goes on for ever,
and that none stops before `done` holds. A pool of threads drains when each of
them has a rank that its own steps lower and some thread can always go on. -/

set_option autoImplicit false

namespace Draining

variable {σ τ : Type*}

/-- Whatever is done next, `done` holds in the end, and until then there is a move. -/
inductive Drains (moves : σ → σ → Prop) (done : σ → Prop) : σ → Prop where
  | intro {s : σ} (progress : done s ∨ ∃ s', moves s s')
      (next : ∀ s', moves s s' → Drains moves done s') : Drains moves done s

namespace Drains

variable {moves : σ → σ → Prop} {done : σ → Prop} {s : σ}

theorem no_endless_run (h : Drains moves done s) (f : Nat → σ) (hstart : f 0 = s) :
    ∃ n, ¬ moves (f n) (f (n + 1)) := by
  induction h generalizing f with
  | intro progress next ih =>
    by_cases hmove : moves (f 0) (f 1)
    · obtain ⟨n, hn⟩ := ih (f 1) (hstart ▸ hmove) (fun n => f (n + 1)) rfl
      exact ⟨n + 1, hn⟩
    · exact ⟨0, hmove⟩

theorem done_of_stuck (h : Drains moves done s) {s' : σ} (hrun : Relation.ReflTransGen moves s s')
    (hstuck : ∀ s'', ¬ moves s' s'') : done s' := by
  induction hrun using Relation.ReflTransGen.head_induction_on with
  | refl =>
    cases h with
    | intro progress next => exact progress.resolve_right fun ⟨s'', hmove⟩ => hstuck s'' hmove
  | head hmove _ ih =>
    cases h with
    | intro progress next => exact ih (next _ hmove)

/-- An invariant, moves that descend, and a move wherever the end is not reached. -/
theorem of_descent {r : σ → σ → Prop} (hr : WellFounded r) (I : σ → Prop)
    (hkeep : ∀ s s', I s → moves s s' → I s') (hdescend : ∀ s s', I s → moves s s' → r s' s)
    (hprogress : ∀ s, I s → done s ∨ ∃ s', moves s s') (hs : I s) : Drains moves done s := by
  induction s using hr.induction with
  | _ s ih =>
    exact .intro (hprogress s hs) fun s' hmove =>
      ih s' (hdescend s s' hs hmove) (hkeep s s' hs hmove)

end Drains

def Lowers (r : τ → τ → Prop) (l' l : List τ) : Prop :=
  ∃ (t : Nat) (x y : τ), l[t]? = some x ∧ r y x ∧ l' = l.set t y

theorem acc_cons {r : τ → τ → Prop} {x : τ} (hx : Acc r x) :
    ∀ {l : List τ}, Acc (Lowers r) l → Acc (Lowers r) (x :: l) := by
  induction hx with
  | intro x _ ihx =>
    intro l hl
    induction hl with
    | intro l hacc ihl =>
      refine .intro _ ?_
      rintro l' ⟨t, x', y, hpos, hlower, rfl⟩
      cases t with
      | zero =>
        cases hpos
        exact ihx y hlower (.intro l hacc)
      | succ t => exact ihl _ ⟨t, x', y, hpos, hlower, rfl⟩

/-- A finite pool cannot go down for ever if no thread can. -/
theorem lowers_wellFounded {r : τ → τ → Prop} (hr : WellFounded r) :
    WellFounded (Lowers r) := by
  refine ⟨fun l => ?_⟩
  induction l with
  | nil =>
    refine .intro _ ?_
    rintro l' ⟨t, x, y, hpos, _⟩
    cases hpos
  | cons x l ih => exact acc_cons (hr.apply x) ih

end Draining
