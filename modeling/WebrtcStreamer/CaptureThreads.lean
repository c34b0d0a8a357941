import WebrtcStreamer.Worker

/-! The threads of the capturers, from the construction of a capturer to its
destruction. -/

set_option autoImplicit false

namespace WebrtcStreamer

open Worker (Order Sound)

/-- The capturers whose `CaptureThread` loops as long as a member says so. -/
inductive ThreadedCapturer where
  -- `V4l2Capturer`, whose rounds read from `m_capture`
  | v4l2
  -- `RtmpVideoSource`, whose rounds read from `m_rtmp`
  | rtmp
  -- `ScreenCapturer` and `WindowCapturer`, whose rounds call `m_capturer->CaptureFrame()`,
  -- which reports to the callback of `m_capturer->Start`
  | desktop
  deriving DecidableEq, Repr

namespace ThreadedCapturer

/-- `V4l2Capturer::Init`, the constructor of `RtmpVideoSource`, and `DesktopCapturer::Start`;
`created` tells whether there is an `m_capture` or `m_capturer`. -/
def start (created : Bool) : ThreadedCapturer → List Order
  | .v4l2 => [.raise] ++ if created then [.acquire, .spawn] else []
  | .rtmp => [.raise, .acquire, .spawn]
  -- `m_capturer->Start(this)` without a test
  | .desktop => [.raise, .spawn, if created then .acquire else .fault]

/-- `V4l2Capturer::Destroy`, and the destructors of `RtmpVideoSource` and `DesktopCapturer`. -/
def stop (created : Bool) : ThreadedCapturer → List Order
  | .v4l2 => if created then [.lower, .join, .release] else []
  | .rtmp => [.lower, .join, .release]
  | .desktop => [.lower, .join, .release]

def life (created : Bool) (c : ThreadedCapturer) : Worker.State :=
  .initial (c.start created ++ c.stop created)

end ThreadedCapturer

/-- However a capturer and its thread interleave: the thread is joined exactly when it was
started, the destructor is never kept waiting for good, leaves no thread behind, and sees at
most one more round come to its end, but for a desktop capturer without `m_capturer`, whose
`Start` ends the process. The rounds find what they use from the first to the last, except
that the thread of a desktop capturer may capture before the callback is there. -/
theorem capture_threads (c : ThreadedCapturer) (created : Bool) :
    (Sound false (c.life created) ↔ (c = .desktop → created = true)) ∧
      ((∃ s, Transition.Reachable Worker.step (c.life created) s ∧ s.crashed = true) ↔
        c = .desktop ∧ created = false) ∧
      (Sound true (c.life created) ↔ c ≠ .desktop) ∧
      ∀ s, Transition.Reachable Worker.step (c.life created) s → s.late ≤ 1 := by
  have hsound : Sound false (c.life created) ↔ (c = .desktop → created = true) :=
    (Worker.sound_iff ..).trans (by cases c <;> cases created <;> decide)
  refine ⟨hsound, ⟨?_, ?_⟩, (Worker.sound_iff ..).trans ?_, fun s hs => Worker.late_le_one hs⟩
  · rintro ⟨s, hs, hcrashed⟩
    by_contra hnot
    have halive := (hsound.mpr fun hc => by simpa [hc] using hnot).crashed s hs
    rw [hcrashed] at halive
    cases halive
  · rintro ⟨rfl, rfl⟩
    obtain ⟨s, hrun, hcrashed⟩ := Transition.exists_reaches_of_run Worker.step (fun _ _ => True)
      (ThreadedCapturer.life false .desktop) (List.replicate 3 .owner) (fun s => s.crashed)
      (by decide)
    exact ⟨s, hrun, hcrashed⟩
  · cases c <;> cases created <;> decide

end WebrtcStreamer
