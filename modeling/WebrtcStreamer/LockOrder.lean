import WebrtcStreamer.Draining
import WebrtcStreamer.Transition

/-! Threads that take locks in an order.

A thread is what is left of the locks it takes and gives back. If every thread
only takes locks that come after those it holds, no set of threads can wait for
one another, and all of them come to their end. -/

set_option autoImplicit false

namespace LockOrder

open Draining

inductive Op (L : Type*) where
  | lock (l : L)
  | unlock (l : L)
  deriving DecidableEq, Repr

structure Thread (L : Type*) where
  held : List L
  rest : List (Op L)
  deriving DecidableEq, Repr

variable {L C : Type*}

def guarded (l : L) (body : List (Op L)) : List (Op L) := .lock l :: (body ++ [.unlock l])

inductive Action (C : Type*) where
  -- a thread for this call arrives
  | start (call : C)
  | run (t : Nat)
  deriving DecidableEq, Repr

/-- A lock is taken only while no thread holds it, its own one included. -/
def step [DecidableEq L] (program : C → List (Op L)) (threads : List (Thread L)) :
    Action C → Option (List (Thread L))
  | .start call => some (threads ++ [⟨[], program call⟩])
  | .run t =>
    match threads[t]? with
    | none => none
    | some x =>
      match x.rest with
      | [] => none
      | .lock l :: rest =>
        if threads.any fun y => decide (l ∈ y.held) then none
        else some (threads.set t ⟨l :: x.held, rest⟩)
      | .unlock l :: rest => some (threads.set t ⟨x.held.erase l, rest⟩)

/-! ### The discipline -/

section Discipline

variable [DecidableEq L] (rank : L → Nat)

/-- What is left takes locks upwards only, gives back what it holds and nothing else. -/
def Disciplined : List L → List (Op L) → Prop
  | held, [] => held = []
  | held, .lock l :: rest => (∀ h ∈ held, rank h < rank l) ∧ Disciplined (l :: held) rest
  | held, .unlock l :: rest => l ∈ held ∧ Disciplined (held.erase l) rest

def Within (n : Nat) (body : List (Op L)) : Prop :=
  ∀ held rest, (∀ h ∈ held, rank h < n) → Disciplined rank held rest →
    Disciplined rank held (body ++ rest)

variable {rank} {n m : Nat} {body body' : List (Op L)} {l : L}

namespace Within

theorem nil : Within rank n ([] : List (Op L)) := fun _ _ _ h => h

theorem append (h : Within rank n body) (h' : Within rank n body') :
    Within rank n (body ++ body') := by
  intro held rest hheld hrest
  rw [List.append_assoc]
  exact h held _ hheld (h' held rest hheld hrest)

theorem flatMap {α : Type*} {f : α → List (Op L)} {xs : List α}
    (h : ∀ x ∈ xs, Within rank n (f x)) : Within rank n (xs.flatMap f) := by
  induction xs with
  | nil => exact nil
  | cons x xs ih =>
    rw [List.flatMap_cons]
    exact (h x List.mem_cons_self).append (ih fun y hy => h y (List.mem_cons_of_mem x hy))

theorem ite {p : Prop} [Decidable p] (h : Within rank n body) (h' : Within rank n body') :
    Within rank n (if p then body else body') := by
  split
  · exact h
  · exact h'

theorem mono (h : Within rank m body) (hle : n ≤ m) : Within rank n body :=
  fun held rest hheld => h held rest fun x hx => Nat.lt_of_lt_of_le (hheld x hx) hle

theorem guarded (h : Within rank (rank l + 1) body) (hle : n ≤ rank l) :
    Within rank n (LockOrder.guarded l body) := by
  intro held rest hheld hrest
  have hbelow : ∀ x ∈ held, rank x < rank l := fun x hx => Nat.lt_of_lt_of_le (hheld x hx) hle
  refine ⟨hbelow, ?_⟩
  change Disciplined rank (l :: held) ((body ++ [.unlock l]) ++ rest)
  rw [List.append_assoc]
  refine h (l :: held) _ (fun x hx => ?_) ⟨List.mem_cons_self, ?_⟩
  · rcases List.mem_cons.mp hx with rfl | hx
    · exact Nat.lt_succ_self _
    · exact Nat.lt_succ_of_lt (hbelow x hx)
  · rw [List.erase_cons_head]
    exact hrest

theorem disciplined (h : Within rank 0 body) : Disciplined rank [] body := by
  have hend := h [] [] (fun _ hx => by cases hx) rfl
  rwa [List.append_nil] at hend

end Within

theorem Disciplined.rest_ne_nil {held : List L} {rest : List (Op L)}
    (h : Disciplined rank held rest) (hl : l ∈ held) : rest ≠ [] := by
  rintro rfl
  rw [show held = [] from h] at hl
  cases hl

end Discipline

/-! ### No cycle, no end -/

section Runs

variable [DecidableEq L] {program : C → List (Op L)} {rank : L → Nat}
  {threads threads' : List (Thread L)}

def AllDisciplined (rank : L → Nat) (threads : List (Thread L)) : Prop :=
  ∀ x ∈ threads, Disciplined rank x.held x.rest

def Runs (program : C → List (Op L)) (threads threads' : List (Thread L)) : Prop :=
  ∃ t, step program threads (.run t) = some threads'

theorem run_cases {t : Nat} (h : step program threads (.run t) = some threads') :
    ∃ x, threads[t]? = some x ∧
      ((∃ l rest, x.rest = .lock l :: rest ∧ threads' = threads.set t ⟨l :: x.held, rest⟩) ∨
        ∃ l rest, x.rest = .unlock l :: rest ∧
          threads' = threads.set t ⟨x.held.erase l, rest⟩) := by
  simp only [step] at h
  cases hpos : threads[t]? with
  | none =>
    rw [hpos] at h
    cases h
  | some x =>
    refine ⟨x, rfl, ?_⟩
    rw [hpos] at h
    dsimp only at h
    cases hrest : x.rest with
    | nil =>
      rw [hrest] at h
      cases h
    | cons op rest =>
      rw [hrest] at h
      cases op with
      | lock l =>
        dsimp only at h
        split at h
        · cases h
        · cases h
          exact .inl ⟨l, rest, rfl, rfl⟩
      | unlock l =>
        cases h
        exact .inr ⟨l, rest, rfl, rfl⟩

theorem AllDisciplined.step (h : AllDisciplined rank threads)
    (hprogram : ∀ call, Disciplined rank [] (program call)) {a : Action C}
    (hs : LockOrder.step program threads a = some threads') : AllDisciplined rank threads' := by
  cases a with
  | start call =>
    cases hs
    intro x hx
    rcases List.mem_append.mp hx with hx | hx
    · exact h x hx
    · cases List.mem_singleton.mp hx
      exact hprogram call
  | run t =>
    obtain ⟨x, hpos, hcase⟩ := run_cases hs
    have hx := h x (List.mem_of_getElem? hpos)
    rcases hcase with ⟨l, rest, hrest, rfl⟩ | ⟨l, rest, hrest, rfl⟩
    all_goals
      rw [hrest] at hx
      intro y hy
      rcases Transition.mem_set hy with rfl | hy
      · exact hx.2
      · exact h y hy

def Thread.wants (x : Thread L) : Option L :=
  match x.rest with
  | .lock l :: _ => some l
  | _ => none

theorem waits_of_stuck {t : Nat} {x : Thread L} (hpos : threads[t]? = some x) (hwork : x.rest ≠ [])
    (hstuck : step program threads (.run t) = none) :
    ∃ l, x.wants = some l ∧ ∃ y ∈ threads, l ∈ y.held := by
  simp only [step, hpos] at hstuck
  cases hrest : x.rest with
  | nil => exact absurd hrest hwork
  | cons op rest =>
    rw [hrest] at hstuck
    cases op with
    | unlock l => cases hstuck
    | lock l =>
      dsimp only at hstuck
      split at hstuck
      · rename_i hheld
        obtain ⟨y, hy, hl⟩ := List.any_eq_true.mp hheld
        exact ⟨l, by rw [Thread.wants, hrest], y, hy, of_decide_eq_true hl⟩
      · cases hstuck

def Deadlocked (threads : List (Thread L)) : Prop :=
  threads ≠ [] ∧ ∀ x ∈ threads, ∃ l ∈ x.wants, ∃ y ∈ threads, l ∈ y.held

instance : DecidablePred (@Deadlocked L) := fun threads => inferInstanceAs
  (Decidable (threads ≠ [] ∧ ∀ x ∈ threads, ∃ l ∈ x.wants, ∃ y ∈ threads, l ∈ y.held))

omit [DecidableEq L] in
theorem Deadlocked.unfinished (h : Deadlocked threads) : ∃ x ∈ threads, x.rest ≠ [] := by
  obtain ⟨x, hx⟩ := List.exists_mem_of_ne_nil threads h.1
  obtain ⟨l, hwants, _⟩ := h.2 x hx
  refine ⟨x, hx, fun hnil => ?_⟩
  rw [Thread.wants, hnil] at hwants
  cases hwants

theorem Deadlocked.not_runs (h : Deadlocked threads) (threads' : List (Thread L)) :
    ¬ Runs program threads threads' := by
  rintro ⟨t, hs⟩
  obtain ⟨x, hpos, hcase⟩ := run_cases hs
  obtain ⟨l, hwants, y, hy, hheld⟩ := h.2 x (List.mem_of_getElem? hpos)
  rcases hcase with ⟨l', rest, hrest, -⟩ | ⟨l', rest, hrest, -⟩
  · rw [Thread.wants, hrest] at hwants
    obtain rfl := Option.some.inj hwants
    have hany : (threads.any fun y => decide (l' ∈ y.held)) = true :=
      List.any_eq_true.mpr ⟨y, hy, decide_eq_true hheld⟩
    simp only [step, hpos, hrest, hany, if_true] at hs
    cases hs
  · rw [Thread.wants, hrest] at hwants
    cases hwants

theorem Disciplined.wants_above {x : Thread L} (h : Disciplined rank x.held x.rest) {l l' : L}
    (hwants : x.wants = some l) (hheld : l' ∈ x.held) : rank l' < rank l := by
  rw [Thread.wants] at hwants
  split at hwants
  · rename_i l₀ rest hrest
    cases hwants
    rw [hrest] at h
    exact h.1 l' hheld
  · cases hwants

/-- Among the threads that wait, one for the highest lock: whoever holds that
lock waits for a higher one. -/
theorem AllDisciplined.progress (h : AllDisciplined rank threads)
    (hwork : ∃ x ∈ threads, x.rest ≠ []) : ∃ threads', Runs program threads threads' := by
  by_contra hnone
  have hstuck : ∀ t, LockOrder.step program threads (.run t) = none := by
    intro t
    cases hs : LockOrder.step program threads (.run t) with
    | none => rfl
    | some threads' => exact absurd ⟨threads', t, hs⟩ hnone
  have hwaits : ∀ x ∈ threads, x.rest ≠ [] →
      ∃ l, x.wants = some l ∧ ∃ y ∈ threads, l ∈ y.held := by
    intro x hx hrest
    obtain ⟨t, hpos⟩ := List.mem_iff_getElem?.mp hx
    exact waits_of_stuck hpos hrest (hstuck t)
  -- the ranks that are waited for grow without end
  have hclimb : ∀ n, ∃ x ∈ threads, ∃ l, x.wants = some l ∧ n ≤ rank l := by
    intro n
    induction n with
    | zero =>
      obtain ⟨x, hx, hrest⟩ := hwork
      obtain ⟨l, hwants, _⟩ := hwaits x hx hrest
      exact ⟨x, hx, l, hwants, Nat.zero_le _⟩
    | succ n ih =>
      obtain ⟨x, hx, l, hwants, hle⟩ := ih
      have hrest : x.rest ≠ [] := by
        intro hnil
        rw [Thread.wants, hnil] at hwants
        cases hwants
      obtain ⟨l', hwants', y, hy, hheld⟩ := hwaits x hx hrest
      obtain rfl : l = l' := Option.some.inj (hwants.symm.trans hwants')
      obtain ⟨l', hwantsy, _⟩ := hwaits y hy ((h y hy).rest_ne_nil hheld)
      exact ⟨y, hy, l', hwantsy, Nat.lt_of_le_of_lt hle ((h y hy).wants_above hwantsy hheld)⟩
  obtain ⟨x, hx, l, hwants, hle⟩ :=
    hclimb ((threads.map fun x => (x.wants.map rank).getD 0).sum + 1)
  have hbound : rank l ≤ (threads.map fun x => (x.wants.map rank).getD 0).sum := by
    refine List.single_le_sum (fun _ _ => Nat.zero_le _) _ (List.mem_map.mpr ⟨x, hx, ?_⟩)
    rw [hwants]
    rfl
  omega

theorem Runs.lowers (h : Runs program threads threads') :
    Lowers (fun y x : Thread L => y.rest.length < x.rest.length) threads' threads := by
  obtain ⟨t, hs⟩ := h
  obtain ⟨x, hpos, hcase⟩ := run_cases hs
  rcases hcase with ⟨l, rest, hrest, rfl⟩ | ⟨l, rest, hrest, rfl⟩
  all_goals
    refine ⟨t, x, _, hpos, ?_, rfl⟩
    simp [hrest]

theorem AllDisciplined.drains (h : AllDisciplined rank threads)
    (hprogram : ∀ call, Disciplined rank [] (program call)) :
    Drains (Runs program) (fun threads => ∀ x ∈ threads, x.rest = [] ∧ x.held = []) threads := by
  refine .of_descent (lowers_wellFounded (InvImage.wf (fun x : Thread L => x.rest.length)
    Nat.lt_wfRel.wf)) (AllDisciplined rank) (fun _ _ hi ⟨t, hs⟩ => hi.step hprogram hs)
    (fun _ _ _ hmove => hmove.lowers) (fun threads hi => ?_) h
  by_cases hwork : ∃ x ∈ threads, x.rest ≠ []
  · exact .inr (hi.progress hwork)
  · refine .inl fun x hx => ?_
    have hrest : x.rest = [] := by_contra fun hne => hwork ⟨x, hx, hne⟩
    have hend := hi x hx
    rw [hrest] at hend
    exact ⟨hrest, hend⟩

theorem allDisciplined_of_reachable (hprogram : ∀ call, Disciplined rank [] (program call))
    (h : Transition.Reachable (LockOrder.step program) [] threads) :
    AllDisciplined rank threads :=
  h.invariant (AllDisciplined rank) (fun _ hx => by cases hx) fun _ _ _ hi _ hs =>
    hi.step hprogram hs

end Runs

end LockOrder
