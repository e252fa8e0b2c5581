import CongestionFabric.Transport.FrameDecoder

namespace CongestionFabric

namespace FrameDecoder

variable {d d' : FrameDecoder} {frame : Frame} {left flight lost chunk rest : Bytes}

/-- A decoder whose bytes are those of a frame that has begun, or of frames it has returned. -/
structure Holds (d : FrameDecoder) (left : Bytes) : Prop where
  healthy : d.failed = false
  options : d.options = {}
  unread : d.buffer.drop d.consumed = left
  consumed : d.consumed ≤ d.buffer.length
  fresh : left ≠ [] → d.consumed = 0

theorem holds_new : Holds {} [] := ⟨rfl, rfl, rfl, le_refl 0, by simp⟩

/-- A push finds the bytes of the frame that has begun, and no others. -/
theorem Holds.discard (h : Holds d left) :
    d.discardConsumed.buffer = left ∧ d.discardConsumed.consumed = 0 ∧
      d.discardConsumed.failed = false ∧ d.discardConsumed.options = {} := by
  have hunread := h.unread
  unfold discardConsumed
  by_cases hall : d.consumed > 0 ∧ d.consumed = d.buffer.length
  · have hempty : left = [] := by
      rw [← hunread, hall.2]
      exact List.drop_length
    rw [if_pos hall]
    exact ⟨hempty.symm, rfl, h.healthy, h.options⟩
  · have hzero : d.consumed = 0 := by
      by_contra hne
      have hempty : left = [] := by
        by_contra hsome
        exact hne (h.fresh hsome)
      have hlength := congrArg List.length (hunread.trans hempty)
      have hle := h.consumed
      rw [List.length_drop, List.length_nil] at hlength
      omega
    rw [if_neg hall]
    rw [hzero] at hunread
    exact ⟨hunread, hzero, h.healthy, h.options⟩

theorem Holds.push (h : Holds d left)
    (hfits : left.length + chunk.length ≤ ({} : FrameDecoderOptions).maxBuffered) :
    ∃ d', d.push chunk = (d', .ok ()) ∧ Holds d' (left ++ chunk) := by
  obtain ⟨hbuffer, hconsumed, hhealthy, hoptions⟩ := h.discard
  have hopen : ¬d.failed = true := by
    rw [h.healthy]
    decide
  have hroom : ¬d.discardConsumed.buffer.length + chunk.length >
      d.discardConsumed.options.maxBuffered := by
    rw [hbuffer, hoptions]
    omega
  refine ⟨{ d.discardConsumed with buffer := d.discardConsumed.buffer ++ chunk }, ?_, ?_⟩
  · unfold FrameDecoder.push
    rw [if_neg hopen]
    dsimp only
    rw [if_neg hroom]
    rfl
  · refine ⟨hhealthy, hoptions, ?_, ?_, fun _ => hconsumed⟩
    · dsimp only
      rw [hconsumed, hbuffer, List.drop_zero]
    · dsimp only
      rw [hconsumed]
      exact Nat.zero_le _

/-- The bytes of a connection that has one frame on the way at most: those its reader holds, those
in flight, and those that a write that failed never sent. -/
inductive Carries (d : FrameDecoder) (flight lost : Bytes) : Option Frame → Prop where
  | nothing (hd : Holds d []) (hflight : flight = []) : Carries d flight lost none
  | one {frame : Frame} {left : Bytes} (hsend : frame.Sendable) (hd : Holds d left)
      (hbytes : left ++ (flight ++ lost) = frame.sealed.bytes) : Carries d flight lost (some frame)

namespace Carries

variable {carried : Option Frame}

theorem healthy (h : Carries d flight lost carried) : d.failed = false := by
  cases h with
  | nothing hd hflight => exact hd.healthy
  | one hsend hd hbytes => exact hd.healthy

theorem write (h : Carries d flight lost none) (hsend : frame.Sendable)
    {sent unsent : Bytes} (hbytes : sent ++ unsent = frame.sealed.bytes) :
    Carries d (flight ++ sent) unsent (some frame) := by
  cases h with
  | nothing hd hflight =>
    subst hflight
    exact .one hsend hd (by simpa using hbytes)

theorem bytes_fit (h : frame.Sendable) :
    frame.sealed.bytes.length ≤ ({} : FrameDecoderOptions).maxBuffered := by
  have hlength := Frame.sealed_bytes_length frame
  have hpayload := h.payload
  have hbound : kFrameHeaderSize + limits.kMaxFramePayload ≤
      ({} : FrameDecoderOptions).maxBuffered := by decide
  omega

/-- A push is never refused. -/
theorem push (h : Carries d (chunk ++ rest) lost carried) :
    ∃ d', d.push chunk = (d', .ok ()) ∧ Carries d' rest lost carried := by
  cases h with
  | nothing hd hflight =>
    obtain ⟨rfl, rfl⟩ := List.append_eq_nil_iff.mp hflight
    obtain ⟨d', hpush, hd'⟩ := @Holds.push d [] [] hd (by simp)
    exact ⟨d', hpush, .nothing hd' rfl⟩
  | @one frame left hsend hd hbytes =>
    have hfits := bytes_fit hsend
    rw [← hbytes, List.length_append, List.length_append, List.length_append] at hfits
    obtain ⟨d', hpush, hd'⟩ := @Holds.push d left chunk hd (by omega)
    refine ⟨d', hpush, .one hsend hd' ?_⟩
    rw [← hbytes]
    simp only [List.append_assoc]

theorem takes (hsend : frame.Sendable) (hd : Holds d left) : Takes d.options frame := by
  rw [hd.options]
  exact ⟨hsend, hsend.payload⟩

/-- Bytes that are less than a frame. -/
def Short (d : FrameDecoder) (frame : Frame) : Prop :=
  (d.buffer.drop d.consumed).length < frameLength frame

theorem nothing_short (h : Carries d flight lost none) (frame : Frame) : Short d frame := by
  cases h with
  | nothing hd hflight =>
    have hpos : 0 < kFrameHeaderSize := by decide
    unfold Short frameLength
    rw [hd.unread, List.length_nil]
    omega

/-- What the reader finds: nothing while the frame is not whole, and then the frame. -/
theorem next (h : Carries d flight lost carried) :
    d.next = (d, .ok none) ∧ (∀ frame ∈ carried, Short d frame) ∨
      ∃ frame d', carried = some frame ∧ flight = [] ∧ lost = [] ∧
        d.next = (d', .ok (some frame.sealed)) ∧ Carries d' [] [] none := by
  cases h with
  | nothing hd hflight =>
    refine .inl ⟨next_nothing hd.healthy hd.unread, ?_⟩
    intro frame hframe
    cases hframe
  | @one frame left hsend hd hbytes =>
    have htakes := takes hsend hd
    have hlength : frame.sealed.bytes.length = frameLength frame := Frame.sealed_bytes_length frame
    by_cases hpart : left.length < frameLength frame
    · have hshort : Short d frame := by
        unfold Short
        rwa [hd.unread]
      have hpending : d.buffer.drop d.consumed ++ (flight ++ lost) = frame.sealed.bytes ++ [] := by
        rw [hd.unread, hbytes, List.append_nil]
      refine .inl ⟨next_part hd.healthy htakes hpending hshort, ?_⟩
      intro other hother
      obtain rfl := Option.some.inj hother
      exact hshort
    · have htotal := congrArg List.length hbytes
      rw [List.length_append, hlength] at htotal
      have hnothing : flight ++ lost = [] := List.length_eq_zero_iff.mp (by omega)
      obtain ⟨hflight, hlost⟩ := List.append_eq_nil_iff.mp hnothing
      rw [hnothing, List.append_nil] at hbytes
      have hwhole : d.buffer.drop d.consumed = frame.sealed.bytes ++ [] := by
        rw [hd.unread, hbytes, List.append_nil]
      have hzero : d.consumed = 0 := by
        refine hd.fresh ?_
        intro hempty
        have hpos : 0 < kFrameHeaderSize := by decide
        rw [hempty] at hpart
        unfold frameLength at hpart
        simp only [List.length_nil] at hpart
        omega
      have hbuffer : d.buffer.length = frameLength frame := by
        rw [hzero, List.drop_zero, List.append_nil] at hwhole
        rw [hwhole, hlength]
      refine .inr ⟨frame, _, rfl, hflight, hlost, next_whole hd.healthy htakes hwhole, ?_⟩
      refine .nothing ⟨hd.healthy, hd.options, ?_, ?_, by simp⟩ rfl
      · dsimp only
        rw [hzero, Nat.zero_add, ← hbuffer]
        exact List.drop_length
      · dsimp only
        omega

/-- A frame whose bytes have all been sent and are not in flight is not short. -/
theorem arrived (h : Carries d [] [] (some frame)) : ¬Short d frame := by
  cases h with
  | one hsend hd hbytes =>
    have hlength : frame.sealed.bytes.length = frameLength frame := Frame.sealed_bytes_length frame
    unfold Short
    rw [hd.unread, ← hlength, ← hbytes]
    simp

end Carries

end FrameDecoder

end CongestionFabric
