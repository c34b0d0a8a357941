import WebrtcStreamer.Transition

/-! A thread that works in rounds as long as a flag is up, and the owner that
starts it and waits for it.

The owner is the list of what it does. Whether all its interleavings with the
thread are sound can be read off that list. -/

set_option autoImplicit false

namespace Worker

open Transition (Reachable Reaches)

inductive Order where
  -- the flag goes up, or down
  | raise
  | lower
  -- what the rounds use is there from now on, or no longer
  | acquire
  | release
  | spawn
  | join
  -- a null pointer is dereferenced
  | fault
  deriving DecidableEq, Repr

inductive Phase where
  | idle
  -- at the condition of the loop
  | test
  | round
  | ended
  deriving DecidableEq, Repr

structure State where
  script : List Order
  running : Bool
  ready : Bool
  phase : Phase
  -- a round has used what was not there
  misused : Bool
  -- the process is gone: a thread was joined that there was not, or replaced while it ran,
  -- or there was a fault
  crashed : Bool
  -- the rounds that have ended since the flag went down
  late : Nat
  deriving DecidableEq, Repr

def State.initial (script : List Order) : State where
  script
  running := false
  ready := false
  phase := .idle
  misused := false
  crashed := false
  late := 0

inductive Action where
  | owner
  | test
  | use
  | finish
  deriving DecidableEq, Repr

/-- The owner waits in `join` until the thread has ended. -/
def own (s : State) : Order → List Order → Option State
  | .raise, l => some { s with script := l, running := true, late := 0 }
  | .lower, l => some { s with script := l, running := false, late := 0 }
  | .acquire, l => some { s with script := l, ready := true }
  | .release, l => some { s with script := l, ready := false }
  | .spawn, l =>
    if s.phase = .idle then some { s with script := l, phase := .test }
    else some { s with script := [], crashed := true }
  | .join, l =>
    if s.phase = .idle then some { s with script := [], crashed := true }
    else if s.phase = .ended then some { s with script := l, phase := .idle }
    else none
  | .fault, _ => some { s with script := [], crashed := true }

def step (s : State) : Action → Option State
  | .owner =>
    match s.script with
    | [] => none
    | order :: l => own s order l
  | .test =>
    if s.phase = .test then some { s with phase := if s.running then .round else .ended }
    else none
  | .use => if s.phase = .round then some { s with misused := s.misused || !s.ready } else none
  | .finish =>
    if s.phase = .round then
      some { s with phase := .test, late := if s.running then s.late else s.late + 1 }
    else none

/-- What may be asked of all runs; without `need` the rounds may use what they like. -/
structure Sound (need : Bool) (s : State) : Prop where
  used : ∀ s', Reachable step s s' → need = true → s'.misused = false
  crashed : ∀ s', Reachable step s s' → s'.crashed = false
  -- in the end there is no thread
  gone : ∀ s', Reachable step s s' → s'.script = [] → s'.phase = .idle
  -- the end can be reached at any time
  ends : ∀ s', Reachable step s s' → ∃ s'', Reachable step s' s'' ∧ s''.script = []

/-- `thread` tells whether there is a thread, and whether it may be in a round. -/
def check (need ready running : Bool) (thread : Option Bool) : List Order → Bool
  | [] => thread.isNone
  | .raise :: l =>
    (thread.isNone || !need || ready) && check need ready true (thread.map fun _ => true) l
  | .lower :: l => check need ready false thread l
  | .acquire :: l => check need true running thread l
  | .release :: l => (thread != some true || !need) && check need false running thread l
  | .spawn :: l =>
    thread.isNone && (!running || !need || ready) && check need ready running (some running) l
  | .join :: l => thread.isSome && !running && check need ready running none l
  | .fault :: _ => false

/-! ### What a step can do -/

section Inversion

variable {s s' : State}

theorem step_owner (h : step s .owner = some s') :
    ∃ order l, s.script = order :: l ∧ own s order l = some s' := by
  cases hscript : s.script with
  | nil =>
    rw [step, hscript] at h
    cases h
  | cons order l =>
    rw [step, hscript] at h
    exact ⟨order, l, rfl, h⟩

theorem step_test (h : step s .test = some s') : s.phase = .test ∧
    s' = { s with phase := if s.running then .round else .ended } := by
  obtain ⟨hphase, heq⟩ := Option.ite_none_right_eq_some.mp h
  exact ⟨hphase, (Option.some.inj heq).symm⟩

theorem step_use (h : step s .use = some s') : s.phase = .round ∧
    s' = { s with misused := s.misused || !s.ready } := by
  obtain ⟨hphase, heq⟩ := Option.ite_none_right_eq_some.mp h
  exact ⟨hphase, (Option.some.inj heq).symm⟩

theorem step_finish (h : step s .finish = some s') : s.phase = .round ∧
    s' = { s with phase := .test, late := if s.running then s.late else s.late + 1 } := by
  obtain ⟨hphase, heq⟩ := Option.ite_none_right_eq_some.mp h
  exact ⟨hphase, (Option.some.inj heq).symm⟩

end Inversion

/-! ### The rounds behind the flag -/

section Late

variable {s s' : State} {script : List Order}

structure FewLate (s : State) : Prop where
  late : s.late ≤ 1
  none : s.running = true ∨ s.phase = .round → s.late = 0

theorem FewLate.own {order : Order} {l : List Order} (h : FewLate s)
    (hown : own s order l = some s') : FewLate s' := by
  obtain ⟨hlate, hnone⟩ := h
  cases order with
  | raise =>
    cases hown
    exact ⟨Nat.zero_le 1, fun _ => rfl⟩
  | lower =>
    cases hown
    exact ⟨Nat.zero_le 1, fun _ => rfl⟩
  | acquire =>
    cases hown
    exact ⟨hlate, hnone⟩
  | release =>
    cases hown
    exact ⟨hlate, hnone⟩
  | spawn =>
    rw [Worker.own] at hown
    split at hown
    · cases hown
      exact ⟨hlate, fun hor => hnone (hor.imp_right fun hphase => by cases hphase)⟩
    · cases hown
      exact ⟨hlate, hnone⟩
  | join =>
    rw [Worker.own] at hown
    split at hown
    · cases hown
      exact ⟨hlate, hnone⟩
    · split at hown
      · cases hown
        exact ⟨hlate, fun hor => hnone (hor.imp_right fun hphase => by cases hphase)⟩
      · cases hown
  | fault =>
    cases hown
    exact ⟨hlate, hnone⟩

theorem FewLate.step {a : Action} (h : FewLate s) (hstep : step s a = some s') : FewLate s' := by
  cases a with
  | owner =>
    obtain ⟨order, l, -, hown⟩ := step_owner hstep
    exact h.own hown
  | test =>
    obtain ⟨-, rfl⟩ := step_test hstep
    refine ⟨h.late, fun hor => h.none (.inl (hor.elim id fun hphase => ?_))⟩
    by_contra hdown
    simp [hdown] at hphase
  | use =>
    obtain ⟨-, rfl⟩ := step_use hstep
    exact ⟨h.late, h.none⟩
  | finish =>
    obtain ⟨hround, rfl⟩ := step_finish hstep
    have hzero := h.none (.inr hround)
    refine ⟨?_, fun hor => ?_⟩
    · dsimp only
      split <;> omega
    · have hup : s.running = true := hor.resolve_right fun hphase => by cases hphase
      simp [hup, hzero]

/-- After the flag went down at most one round comes to its end. -/
theorem late_le_one (h : Reachable step (.initial script) s) : s.late ≤ 1 :=
  (h.invariant FewLate ⟨Nat.zero_le 1, fun _ => rfl⟩ fun _ _ _ hs _ hstep => hs.step hstep).late

end Late

/-! ### What the check promises -/

section Promised

variable {need : Bool} {s s' : State} {thread : Option Bool}

structure Fits (need : Bool) (thread : Option Bool) (s : State) : Prop where
  idle : thread = none → s.phase = .idle
  alive : thread.isSome = true → s.phase ≠ .idle
  still : thread = some false → s.running = false ∧ s.phase ≠ .round
  ready : thread = some true → need = true → s.ready = true

structure Checked (need : Bool) (s : State) : Prop where
  used : need = true → s.misused = false
  crashed : s.crashed = false
  rest : ∃ thread, Fits need thread s ∧ check need s.ready s.running thread s.script = true

theorem Checked.own {order : Order} {l : List Order} (h : Checked need s)
    (hscript : s.script = order :: l) (hown : own s order l = some s') :
    Checked need s' ∧ s'.script = l := by
  obtain ⟨hused, hcrashed, thread, hfits, hcheck⟩ := h
  rw [hscript] at hcheck
  cases order with
  | raise =>
    cases hown
    rw [check, Bool.and_eq_true] at hcheck
    refine ⟨⟨hused, hcrashed, _, ⟨?_, ?_, ?_, ?_⟩, hcheck.2⟩, rfl⟩
    · intro hnone
      exact hfits.idle (Option.map_eq_none_iff.mp hnone)
    · intro hsome
      rw [Option.isSome_map] at hsome
      exact hfits.alive hsome
    · intro hstill
      cases thread <;> cases hstill
    · intro htrue hneed
      have hready := hcheck.1
      cases thread with
      | none => cases htrue
      | some may => simpa [hneed] using hready
  | lower =>
    cases hown
    exact ⟨⟨hused, hcrashed, thread, ⟨hfits.idle, hfits.alive, fun hstill =>
      ⟨rfl, (hfits.still hstill).2⟩, hfits.ready⟩, hcheck⟩, rfl⟩
  | acquire =>
    cases hown
    exact ⟨⟨hused, hcrashed, thread, ⟨hfits.idle, hfits.alive, hfits.still, fun _ _ => rfl⟩,
      hcheck⟩, rfl⟩
  | release =>
    cases hown
    rw [check, Bool.and_eq_true] at hcheck
    refine ⟨⟨hused, hcrashed, thread, ⟨hfits.idle, hfits.alive, hfits.still, ?_⟩, hcheck.2⟩, rfl⟩
    intro htrue hneed
    have hnot := hcheck.1
    rw [htrue, hneed] at hnot
    cases hnot
  | spawn =>
    rw [check, Bool.and_eq_true, Bool.and_eq_true] at hcheck
    obtain ⟨⟨hnone, hready⟩, hrest⟩ := hcheck
    rw [Worker.own, if_pos (hfits.idle (Option.isNone_iff_eq_none.mp hnone))] at hown
    cases hown
    refine ⟨⟨hused, hcrashed, some s.running, ⟨?_, ?_, ?_, ?_⟩, hrest⟩, rfl⟩
    · intro h
      cases h
    · intro _ hidle
      cases hidle
    · intro hstill
      exact ⟨Option.some.inj hstill, fun hround => by cases hround⟩
    · intro htrue hneed
      rw [Option.some.inj htrue, hneed] at hready
      exact hready
  | join =>
    rw [check, Bool.and_eq_true, Bool.and_eq_true] at hcheck
    obtain ⟨⟨hsome, _⟩, hrest⟩ := hcheck
    rw [Worker.own, if_neg (hfits.alive hsome)] at hown
    split at hown
    · cases hown
      refine ⟨⟨hused, hcrashed, none, ⟨fun _ => rfl, ?_, ?_, ?_⟩, hrest⟩, rfl⟩ <;> intro h <;>
        cases h
    · cases hown
  | fault => cases hcheck

theorem Checked.step {a : Action} (h : Checked need s) (hstep : step s a = some s') :
    Checked need s' := by
  cases a with
  | owner =>
    obtain ⟨order, l, hscript, hown⟩ := step_owner hstep
    exact (h.own hscript hown).1
  | test =>
    obtain ⟨hused, hcrashed, thread, hfits, hcheck⟩ := h
    obtain ⟨htest, rfl⟩ := step_test hstep
    refine ⟨hused, hcrashed, thread, ⟨?_, ?_, ?_, hfits.ready⟩, hcheck⟩
    · intro hnone
      rw [hfits.idle hnone] at htest
      cases htest
    · intro _
      dsimp only
      split <;> intro hidle <;> cases hidle
    · intro hstill
      have hdown := (hfits.still hstill).1
      refine ⟨hdown, ?_⟩
      simp [hdown]
  | use =>
    obtain ⟨hused, hcrashed, thread, hfits, hcheck⟩ := h
    obtain ⟨hround, rfl⟩ := step_use hstep
    refine ⟨fun hneed => ?_, hcrashed, thread, ⟨hfits.idle, hfits.alive, hfits.still,
      hfits.ready⟩, hcheck⟩
    have hready : s.ready = true := by
      cases hthread : thread with
      | none =>
        rw [hfits.idle hthread] at hround
        cases hround
      | some may =>
        cases may with
        | false => exact absurd hround (hfits.still hthread).2
        | true => exact hfits.ready hthread hneed
    simp [hused hneed, hready]
  | finish =>
    obtain ⟨hused, hcrashed, thread, hfits, hcheck⟩ := h
    obtain ⟨hround, rfl⟩ := step_finish hstep
    refine ⟨hused, hcrashed, thread, ⟨?_, ?_, ?_, hfits.ready⟩, hcheck⟩
    · intro hnone
      rw [hfits.idle hnone] at hround
      cases hround
    · intro _ hidle
      cases hidle
    · intro hstill
      exact absurd hround (hfits.still hstill).2

theorem Checked.run (h : Checked need s) (hrun : Reachable Worker.step s s') : Checked need s' :=
  hrun.invariant (Checked need) h fun _ _ _ hs _ hstep => hs.step hstep

def SameOwner (s s' : State) : Prop :=
  s'.script = s.script ∧ s'.ready = s.ready ∧ s'.running = s.running

theorem ended_reachable (hdown : s.running = false) (hphase : s.phase ≠ .idle) :
    ∃ s', Reachable step s s' ∧ s'.phase = .ended ∧ SameOwner s s' := by
  have hfromTest (s : State) (hdown : s.running = false) (htest : s.phase = .test) :
      ∃ s', Reachable step s s' ∧ s'.phase = .ended ∧ SameOwner s s' := by
    refine ⟨{ s with phase := .ended }, .single (a := .test) trivial ?_, rfl, rfl, rfl, rfl⟩
    simp [step, htest, hdown]
  cases hp : s.phase with
  | idle => exact absurd hp hphase
  | test => exact hfromTest s hdown hp
  | round =>
    obtain ⟨s', hrun, hended, hsame⟩ := hfromTest
      { s with phase := .test, late := if s.running then s.late else s.late + 1 } hdown rfl
    refine ⟨s', Reaches.trans (.single (a := .finish) trivial ?_) hrun, hended, hsame⟩
    simp [step, hp]
  | ended => exact ⟨s, .refl, hp, rfl, rfl, rfl⟩

/-- Induction on what the owner still has to do. -/
theorem Checked.ends (h : Checked need s) : ∃ s', Reachable Worker.step s s' ∧ s'.script = [] := by
  generalize hl : s.script = l
  induction l generalizing s with
  | nil => exact ⟨s, .refl, hl⟩
  | cons order l ih =>
    obtain ⟨s₁, hwait, hwaited, s₂, hown⟩ : ∃ s₁, Reachable Worker.step s s₁ ∧
        s₁.script = s.script ∧ ∃ s₂, Worker.own s₁ order l = some s₂ := by
      cases order with
      | join =>
        obtain ⟨-, -, thread, hfits, hcheck⟩ := h
        rw [hl, check, Bool.and_eq_true, Bool.and_eq_true] at hcheck
        obtain ⟨⟨hsome, hdown⟩, -⟩ := hcheck
        obtain ⟨s₁, hrun, hended, hsame⟩ :=
          ended_reachable (by simpa using hdown) (hfits.alive hsome)
        refine ⟨s₁, hrun, hsame.1, { s₁ with script := l, phase := .idle }, ?_⟩
        simp [Worker.own, hended]
      | spawn =>
        refine ⟨s, .refl, rfl, ?_⟩
        rw [Worker.own]
        split <;> exact ⟨_, rfl⟩
      | _ => exact ⟨s, .refl, rfl, _, rfl⟩
    obtain ⟨hchecked, hscript⟩ := (h.run hwait).own (hwaited.trans hl) hown
    obtain ⟨s', hrun, hdone⟩ := ih hchecked hscript
    have hstep : Worker.step s₁ .owner = some s₂ := by
      simp only [Worker.step, hwaited.trans hl]
      exact hown
    exact ⟨s', (hwait.tail trivial hstep).trans hrun, hdone⟩

theorem Checked.sound (h : Checked need s) : Sound need s where
  used _ hrun := (h.run hrun).used
  crashed _ hrun := (h.run hrun).crashed
  gone s' hrun hdone := by
    obtain ⟨-, -, thread, hfits, hcheck⟩ := h.run hrun
    rw [hdone, check] at hcheck
    exact hfits.idle (Option.isNone_iff_eq_none.mp hcheck)
  ends _ hrun := (h.run hrun).ends

end Promised

/-! ### What fails the check -/

section Failing

variable {need : Bool} {s s' : State} {thread : Option Bool} {l : List Order}

theorem Sound.reach (h : Sound need s) (hrun : Reachable step s s') : Sound need s' where
  used _ hlater := h.used _ (hrun.trans hlater)
  crashed _ hlater := h.crashed _ (hrun.trans hlater)
  gone _ hlater := h.gone _ (hrun.trans hlater)
  ends _ hlater := h.ends _ (hrun.trans hlater)

theorem Sound.step {a : Action} (h : Sound need s) (hstep : Worker.step s a = some s') :
    Sound need s' := h.reach (.single trivial hstep)

theorem Sound.ready (h : Sound need s) (hround : s.phase = .round) (hneed : need = true) :
    s.ready = true := by
  have hstep : Worker.step s .use = some { s with misused := s.misused || !s.ready } := by
    simp [Worker.step, hround]
  have hused := (h.step hstep).used _ .refl hneed
  simp only [Bool.or_eq_false_iff, Bool.not_eq_false'] at hused
  exact hused.2

def busy : Option Bool → Phase
  | none => .idle
  | some false => .test
  | some true => .round

/-- While the flag is up the thread does not end, so nobody comes through `join`. -/
theorem join_waits (hscript : s.script = .join :: l) (hup : s.running = true)
    (hphase : s.phase = .test ∨ s.phase = .round) (hrun : Reachable step s s') :
    s'.script = .join :: l := by
  refine (hrun.invariant (fun s => s.script = .join :: l ∧ s.running = true ∧
    (s.phase = .test ∨ s.phase = .round)) ⟨hscript, hup, hphase⟩ ?_).1
  rintro s a s' ⟨hscript, hup, hphase⟩ - hstep
  cases a with
  | owner =>
    simp only [step, hscript, own] at hstep
    rcases hphase with hphase | hphase <;> rw [hphase] at hstep <;> cases hstep
  | test =>
    obtain ⟨-, rfl⟩ := step_test hstep
    exact ⟨hscript, hup, .inr (if_pos hup)⟩
  | use =>
    obtain ⟨-, rfl⟩ := step_use hstep
    exact ⟨hscript, hup, hphase⟩
  | finish =>
    obtain ⟨-, rfl⟩ := step_finish hstep
    exact ⟨hscript, hup, .inl rfl⟩

theorem Sound.enter (h : Sound need s) (htest : s.phase = .test) (hup : s.running = true) :
    Sound need { s with phase := .round } ∧ (need = true → s.ready = true) := by
  have hround : Sound need { s with phase := .round } := by
    refine h.step (a := .test) ?_
    simp [Worker.step, htest, hup]
  exact ⟨hround, hround.ready rfl⟩

theorem Sound.ordered {order : Order} (h : Sound need s) (hl : s.script = order :: l)
    (hown : own s order l = some s') : Sound need s' := by
  refine h.step (a := .owner) ?_
  simp only [Worker.step, hl]
  exact hown

theorem Sound.raised {may : Bool} (h : Sound need s) (hl : s.script = .raise :: l)
    (hbusy : s.phase = busy (some may)) :
    Sound need { s with script := l, running := true, late := 0, phase := .round } ∧
      (need = true → s.ready = true) := by
  have hraised : Sound need { s with script := l, running := true, late := 0 } :=
    h.ordered hl rfl
  cases may with
  | false => exact hraised.enter hbusy rfl
  | true =>
    have hround : s.phase = .round := hbusy
    have hsame : { s with script := l, running := true, late := 0, phase := .round } =
        { s with script := l, running := true, late := 0 } := by rw [hround]
    rw [hsame]
    exact ⟨hraised, h.ready hround⟩

theorem Sound.released (h : Sound need s) (hl : s.script = .release :: l)
    (hround : s.phase = .round) : need = false := by
  by_contra hneed
  rw [Bool.not_eq_false] at hneed
  have hreleased : Sound need { s with script := l, ready := false } := h.ordered hl rfl
  have hready := hreleased.ready hround hneed
  cases hready

theorem Sound.spawned (h : Sound need s) (hl : s.script = .spawn :: l) : s.phase = .idle := by
  by_contra hnot
  have hcrashed := (h.ordered hl (if_neg hnot)).crashed _ .refl
  cases hcrashed

theorem Sound.awaited (h : Sound need s) (hl : s.script = .join :: l) : s.phase ≠ .idle := by
  intro hidle
  have hcrashed := (h.ordered hl (if_pos hidle)).crashed _ .refl
  cases hcrashed

theorem Sound.lowered (h : Sound need s) (hl : s.script = .join :: l)
    (hphase : s.phase = .test ∨ s.phase = .round) : s.running = false := by
  by_contra hup
  rw [Bool.not_eq_false] at hup
  obtain ⟨s', hrun, hdone⟩ := h.ends s .refl
  rw [join_waits hl hup hphase hrun] at hdone
  cases hdone

theorem Sound.joined (h : Sound need s) (hl : s.script = .join :: l)
    (hdown : s.running = false) : ∃ s' : State, Sound need s' ∧ s'.script = l ∧
      s'.phase = .idle ∧ s'.ready = s.ready ∧ s'.running = s.running := by
  obtain ⟨s₁, hrun, hended, hscript, hready, hrunning⟩ :=
    ended_reachable hdown (h.awaited hl)
  have hown : own s₁ .join l = some { s₁ with script := l, phase := .idle } := by
    simp [own, hended]
  exact ⟨_, (h.reach hrun).ordered (hscript.trans hl) hown, rfl, rfl, hready, hrunning⟩

/-- Induction on what the owner still has to do: of all interleavings, the one in which
the thread stays in its round. -/
theorem Sound.check (h : Sound need s) (hbusy : s.phase = busy thread) :
    check need s.ready s.running thread s.script = true := by
  generalize hl : s.script = l
  induction l generalizing s thread with
  | nil =>
    have hidle := h.gone s .refl hl
    rw [hbusy] at hidle
    cases thread with
    | none => rfl
    | some may => cases may <;> cases hidle
  | cons order l ih =>
    cases order with
    | raise =>
      rw [Worker.check, Bool.and_eq_true]
      cases thread with
      | none => exact ⟨rfl, ih (h.ordered hl rfl) hbusy rfl⟩
      | some may =>
        obtain ⟨hround, hready⟩ := h.raised hl hbusy
        refine ⟨?_, ih hround rfl rfl⟩
        cases hneed : need with
        | false => rfl
        | true => exact hready hneed
    | lower => exact ih (h.ordered hl rfl) hbusy rfl
    | acquire => exact ih (h.ordered hl rfl) hbusy rfl
    | release =>
      rw [Worker.check, Bool.and_eq_true]
      refine ⟨?_, ih (h.ordered hl rfl) hbusy rfl⟩
      by_cases hthread : thread = some true
      · rw [hthread] at hbusy
        rw [h.released hl hbusy, Bool.not_false, Bool.or_true]
      · rw [bne_iff_ne.mpr hthread, Bool.true_or]
    | spawn =>
      have hidle := h.spawned hl
      have hspawned : Sound need { s with script := l, phase := .test } :=
        h.ordered hl (if_pos hidle)
      rw [Worker.check, Bool.and_eq_true, Bool.and_eq_true]
      refine ⟨⟨?_, ?_⟩, ?_⟩
      · cases thread with
        | none => rfl
        | some may =>
          rw [hbusy] at hidle
          cases may <;> cases hidle
      · cases hup : s.running with
        | false => rfl
        | true =>
          cases hneed : need with
          | false => rfl
          | true => exact (hspawned.enter rfl hup).2 hneed
      · have hentered (may : Bool) (hup : s.running = may) :
            Worker.check need s.ready s.running (some may) l = true := by
          cases may with
          | false =>
            have hrest := @ih _ (some false) hspawned rfl rfl
            exact hrest
          | true =>
            have hrest := @ih _ (some true) (hspawned.enter rfl hup).1 rfl rfl
            exact hrest
        exact hentered _ rfl
    | join =>
      cases thread with
      | none => exact absurd hbusy (h.awaited hl)
      | some may =>
        have hphase : s.phase = .test ∨ s.phase = .round := by
          rw [hbusy]
          cases may <;> simp [busy]
        have hdown := h.lowered hl hphase
        obtain ⟨s', hjoined, hscript, hidle, hready, hrunning⟩ := h.joined hl hdown
        have hrest := @ih s' none hjoined hidle hscript
        rw [hready, hrunning] at hrest
        rw [Worker.check, hrest, hdown]
        rfl
    | fault =>
      have hcrashed := (h.ordered hl rfl).crashed _ .refl
      cases hcrashed

end Failing

/-- All interleavings are sound exactly when the check finds nothing. -/
theorem sound_iff (need : Bool) (script : List Order) :
    Sound need (.initial script) ↔ check need false false none script = true := by
  refine ⟨fun h => h.check (rfl : _ = busy none), fun hcheck =>
    Checked.sound ⟨fun _ => rfl, rfl, none, ⟨fun _ => rfl, ?_, ?_, ?_⟩, hcheck⟩⟩
  all_goals
    intro hthread
    cases hthread

end Worker
