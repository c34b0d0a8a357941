import Mathlib

/-! Playing a recording at its own speed: whoever delivers the samples sleeps until
the time between two of them has passed on the clock as well. -/

set_option autoImplicit false

namespace Pacing

structure Reading where
  source : Int
  before : Int
  after : Int

variable (limit : Int) (last r : Reading)

def missing : Int := r.source - last.source - (r.before - last.after)

/-- The time to sleep; a pause that reaches the limit is skipped. -/
def delay : Int := if 0 < missing last r ∧ missing last r < limit then missing last r else 0

structure Honest : Prop where
  ordered : last.after ≤ r.before
  slept : r.before + delay limit last r ≤ r.after

def Behind : Prop := r.source - last.source ≤ r.after - last.after

variable {limit last r} {l : List Reading} {sleeps : List Int}

theorem Honest.delay_eq (h : Honest limit last r) (hpause : r.source - last.source < limit) :
    delay limit last r = max 0 (missing last r) := by
  have hordered := h.ordered
  unfold delay
  split
  · omega
  · unfold missing at *
    omega

theorem Honest.behind (h : Honest limit last r) (hpause : r.source - last.source < limit) :
    Behind last r := by
  have hdelay := h.delay_eq hpause
  have hslept := h.slept
  unfold missing at hdelay
  unfold Behind
  omega

theorem Behind.trans {a b c : Reading} (h : Behind a b) (h' : Behind b c) : Behind a c := by
  unfold Behind at *
  omega

end Pacing
