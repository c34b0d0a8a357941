import Mathlib

/-! The accesses of a program to one buffer, as a trace.

Positions and lengths are integers, so that a position in front of the buffer and
a negative length can be seen. -/

set_option autoImplicit false

namespace BufferAccess

inductive Access where
  | read (i : Int)
  /-- the bytes from `first` up to `last` -/
  | copy (first last : Int)
  /-- a view of so many bytes that is handed on -/
  | pass (first length : Int)
  deriving DecidableEq, Repr

def Access.Touches : Access → Int → Prop
  | .read j, i => i = j
  | .copy first last, i => first ≤ i ∧ i < last
  | .pass first length, i => first ≤ i ∧ i < first + length

/-- What is read or copied lies in a buffer of this size, no range ends before its
start, and no length is negative. -/
def Access.InBounds (size : Nat) : Access → Prop
  | .read i => 0 ≤ i ∧ i < size
  | .copy first last => first ≤ last ∧ ∀ i, first ≤ i → i < last → 0 ≤ i ∧ i < size
  | .pass _ length => 0 ≤ length

def InBounds (size : Nat) (trace : List Access) : Prop := ∀ a ∈ trace, a.InBounds size

variable {size : Nat} {trace trace' : List Access}

@[simp] theorem inBounds_nil : InBounds size [] := by simp [InBounds]

@[simp] theorem inBounds_cons {a : Access} :
    InBounds size (a :: trace) ↔ a.InBounds size ∧ InBounds size trace := by simp [InBounds]

@[simp] theorem inBounds_append :
    InBounds size (trace ++ trace') ↔ InBounds size trace ∧ InBounds size trace' := by
  simp [InBounds, or_imp, forall_and]

theorem inBounds_flatMap {α : Type*} {l : List α} {f : α → List Access} :
    InBounds size (l.flatMap f) ↔ ∀ x ∈ l, InBounds size (f x) := by
  constructor
  · exact fun h x hx a ha => h a (List.mem_flatMap.mpr ⟨x, hx, ha⟩)
  · intro h a ha
    obtain ⟨x, hx, ha⟩ := List.mem_flatMap.mp ha
    exact h x hx a ha

@[simp] theorem inBounds_read {i : Int} :
    (Access.read i).InBounds size ↔ 0 ≤ i ∧ i < size := Iff.rfl

@[simp] theorem inBounds_pass {first length : Int} :
    (Access.pass first length).InBounds size ↔ 0 ≤ length := Iff.rfl

@[simp] theorem inBounds_copy {first last : Int} :
    (Access.copy first last).InBounds size ↔
      first ≤ last ∧ (first < last → 0 ≤ first ∧ last ≤ size) := by
  constructor
  · rintro ⟨hle, hbytes⟩
    refine ⟨hle, fun hlt => ?_⟩
    have hfirst := hbytes first (le_refl first) hlt
    have hlast := hbytes (last - 1) (by omega) (by omega)
    omega
  · rintro ⟨hle, hrange⟩
    refine ⟨hle, fun i hi hi' => ?_⟩
    have := hrange (by omega)
    omega

instance : DecidablePred (Access.InBounds size)
  | .read i => inferInstanceAs (Decidable (0 ≤ i ∧ i < size))
  | .copy _ _ => decidable_of_iff _ inBounds_copy.symm
  | .pass _ length => inferInstanceAs (Decidable (0 ≤ length))

instance : Decidable (InBounds size trace) :=
  inferInstanceAs (Decidable (∀ a ∈ trace, a.InBounds size))

/-! Two buffers that agree on what a trace touches. -/

variable {β : Type*} {f g : Int → β}

def Agree (f g : Int → β) (trace : List Access) : Prop :=
  ∀ a ∈ trace, ∀ i, a.Touches i → f i = g i

@[simp] theorem agree_nil : Agree f g [] := by simp [Agree]

@[simp] theorem agree_cons {a : Access} :
    Agree f g (a :: trace) ↔ (∀ i, a.Touches i → f i = g i) ∧ Agree f g trace := by simp [Agree]

@[simp] theorem agree_append :
    Agree f g (trace ++ trace') ↔ Agree f g trace ∧ Agree f g trace' := by
  simp [Agree, or_imp, forall_and]

@[simp] theorem agree_read {j : Int} :
    (∀ i, (Access.read j).Touches i → f i = g i) ↔ f j = g j := by simp [Access.Touches]

end BufferAccess
