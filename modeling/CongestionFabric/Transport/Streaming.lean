import CongestionFabric.Transport.FrameDecoder

namespace CongestionFabric

namespace FrameDecoder

/-- The bytes after the last whole frame that ends at a position of the stream or before it. -/
def unconsumed : List Frame → Nat → Nat
  | [], position => position
  | frame :: frames, position =>
    if frameLength frame ≤ position then unconsumed frames (position - frameLength frame)
    else position

/-- The bytes that stay when a chunk comes at this position: none on a frame boundary. -/
def staying (frames : List Frame) (position held : Nat) : Nat :=
  if unconsumed frames position = 0 then 0 else held

/-- At every chunk the bytes since the last cut on a frame boundary, the chunk included, are within
the bound; `held` counts them up to a position of the stream. -/
def Fits (frames : List Frame) (bound : Nat) : Nat → Nat → List Bytes → Prop
  | _, _, [] => True
  | position, held, chunk :: chunks =>
    staying frames position held + chunk.length ≤ bound ∧
      Fits frames bound (position + chunk.length) (staying frames position held + chunk.length)
        chunks

/-- At every chunk the bytes after the last whole frame, the chunk included, are within the
bound. -/
def Roomy (frames : List Frame) (bound : Nat) : Nat → List Bytes → Prop
  | _, [] => True
  | position, chunk :: chunks =>
    unconsumed frames position + chunk.length ≤ bound ∧
      Roomy frames bound (position + chunk.length) chunks

variable {d : FrameDecoder} {frames front back : List Frame} {frame : Frame} {left : Bytes}

theorem streamOf_append (front back : List Frame) :
    streamOf (front ++ back) = streamOf front ++ streamOf back := List.flatMap_append

theorem streamOf_cons_length (frame : Frame) (frames : List Frame) :
    (streamOf (frame :: frames)).length = frameLength frame + (streamOf frames).length := by
  rw [frameLength, ← Frame.sealed_bytes_length frame]
  exact List.length_append

theorem frameLength_pos (frame : Frame) : 0 < frameLength frame := by
  have hpos : 0 < kFrameHeaderSize := by decide
  unfold frameLength
  omega

/-- Whole frames leave nothing unconsumed. -/
theorem unconsumed_stream (front back : List Frame) (n : Nat) :
    unconsumed (front ++ back) ((streamOf front).length + n) = unconsumed back n := by
  induction front with
  | nil => simp [streamOf]
  | cons frame front ih =>
    have hlen := streamOf_cons_length frame front
    rw [List.cons_append, unconsumed, if_pos (by omega), ← ih]
    congr 1
    omega

theorem unconsumed_part (h : Part back left) (hnil : back = [] → left = []) :
    unconsumed back left.length = left.length := by
  cases back with
  | nil => rfl
  | cons frame back =>
    have hshort : left.length < frameLength frame := h frame rfl
    rw [unconsumed, if_neg (by omega)]

/-- Between two chunks the decoder holds what came since the last cut on a frame boundary, the
frames it has returned and the part of the next one. -/
structure Reading (frames back : List Frame) (left : Bytes) (position held : Nat)
    (d : FrameDecoder) : Prop where
  healthy : d.failed = false
  consumed : d.consumed ≤ d.buffer.length
  rest : d.buffer.drop d.consumed = left
  size : d.buffer.length = held
  part : Part back left
  finished : back = [] → left = []
  position : ∃ front, frames = front ++ back ∧ position = (streamOf front).length + left.length

variable {position held : Nat}

theorem Reading.unconsumed (h : Reading frames back left position held d) :
    unconsumed frames position = left.length := by
  obtain ⟨front, rfl, rfl⟩ := h.position
  rw [unconsumed_stream, unconsumed_part h.part h.finished]

theorem Reading.size_eq (h : Reading frames back left position held d) :
    d.buffer.length = d.consumed + left.length := by
  have hdrop := congrArg List.length h.rest
  have hle := h.consumed
  rw [List.length_drop] at hdrop
  omega

/-- What a push finds in the buffer. -/
theorem Reading.discard (h : Reading frames back left position held d) :
    Reading frames back left position (staying frames position held) d.discardConsumed := by
  have hsize := h.size_eq
  have hheld := h.size
  unfold staying
  rw [h.unconsumed]
  by_cases hall : d.consumed > 0 ∧ d.consumed = d.buffer.length
  · have hleft : left = [] := List.length_eq_zero_iff.mp (by omega)
    rw [discardConsumed, if_pos hall, if_pos (by rw [hleft]; rfl)]
    exact ⟨h.healthy, le_refl 0, hleft.symm, rfl, h.part, h.finished, h.position⟩
  · rw [discardConsumed, if_neg hall]
    have hstays : d.buffer.length = if left.length = 0 then 0 else held := by
      split <;> omega
    exact ⟨h.healthy, h.consumed, h.rest, hstays, h.part, h.finished, h.position⟩

theorem discardConsumed_options (d : FrameDecoder) : d.discardConsumed.options = d.options := by
  unfold discardConsumed
  split <;> rfl

theorem Reading.push_eq (h : Reading frames back left position held d) (chunk : Bytes) :
    d.push chunk =
      if d.options.maxBuffered < staying frames position held + chunk.length then
        d.discardConsumed.broken ⟨.oversized, "frame decoder buffer would exceed its bound", ""⟩
      else
        ({ d.discardConsumed with buffer := d.discardConsumed.buffer ++ chunk }, .ok ()) := by
  have hhealthy : ¬d.failed = true := by
    rw [h.healthy]
    decide
  unfold push
  rw [if_neg hhealthy, ← h.discard.size, ← discardConsumed_options d]
  rfl

/-- A chunk that does not fit closes the stream. -/
theorem Reading.readChunk_exceeds {chunk : Bytes} (h : Reading frames back left position held d)
    (hexceeds : d.options.maxBuffered < staying frames position held + chunk.length) :
    ∃ d' status, d.readChunk chunk = (d', .error status) := by
  rw [FrameDecoder.readChunk, h.push_eq chunk, if_pos hexceeds]
  exact ⟨_, _, rfl⟩

/-- One that fits is read up to its last whole frame. -/
theorem Reading.readChunk_fits {chunk rest : Bytes}
    (htakes : ∀ frame ∈ back, Takes d.options frame)
    (h : Reading frames back left position held d)
    (hstream : left ++ (chunk ++ rest) = streamOf back)
    (hfits : staying frames position held + chunk.length ≤ d.options.maxBuffered) :
    ∃ first last left' d', back = first ++ last ∧ left' ++ rest = streamOf last ∧
      d.readChunk chunk = (d', .ok (first.map Frame.sealed)) ∧ d'.options = d.options ∧
      Reading frames last left' (position + chunk.length)
        (staying frames position held + chunk.length) d' := by
  have hdiscard := h.discard
  have hoptions := discardConsumed_options d
  rw [FrameDecoder.readChunk, h.push_eq chunk, if_neg (by omega)]
  generalize d.discardConsumed = e at hdiscard hoptions
  generalize staying frames position held = kept at hdiscard
  dsimp only
  have hdrop : ({ e with buffer := e.buffer ++ chunk } : FrameDecoder).buffer.drop e.consumed =
      left ++ chunk := by
    dsimp only
    rw [List.drop_append_of_le_length hdiscard.consumed, hdiscard.rest]
  rw [← List.append_assoc] at hstream
  obtain ⟨first, last, left', hback, hleft, hpart, hdrain⟩ :=
    drain_stream (d := { e with buffer := e.buffer ++ chunk }) hdiscard.healthy
      (fun frame hf => hoptions.symm ▸ htakes frame hf) hdrop hstream
  have hlast : left' ++ rest = streamOf last := by
    rw [hleft, hback, streamOf_append, List.append_assoc] at hstream
    exact List.append_cancel_left hstream
  have hlength := congrArg List.length hleft
  have hsize := hdiscard.size_eq
  have hheld := hdiscard.size
  rw [List.length_append, List.length_append] at hlength
  refine ⟨first, last, left', _, hback, hlast, hdrain, hoptions, ?_⟩
  obtain ⟨before, hframes, hposition⟩ := hdiscard.position
  refine ⟨hdiscard.healthy, ?_, ?_, ?_, hpart, ?_, before ++ first, ?_, ?_⟩
  · dsimp only
    rw [List.length_append]
    omega
  · dsimp only at hdrop ⊢
    rw [← List.drop_drop, hdrop, hleft, List.drop_left]
  · dsimp only
    rw [List.length_append]
    omega
  · intro hnil
    have hnothing : left' ++ rest = [] := hlast.trans (congrArg streamOf hnil)
    exact (List.append_eq_nil_iff.mp hnothing).1
  · rw [hframes, hback, List.append_assoc]
  · rw [streamOf_append, List.length_append]
    omega

theorem map_append_ok {first last : List Frame} {outcome : Result (List Frame)} :
    outcome.map (first ++ ·) = .ok (first ++ last) ↔ outcome = .ok last := by
  cases outcome with
  | error status => simp [Except.map]
  | ok frames => simp [Except.map]

/-- Chunk by chunk: the frames come back exactly when every chunk fits. -/
theorem Reading.readStream {chunks : List Bytes}
    (htakes : ∀ frame ∈ back, Takes d.options frame)
    (h : Reading frames back left position held d)
    (hstream : left ++ chunks.flatten = streamOf back) :
    (d.readStream chunks).2 = .ok (back.map Frame.sealed) ↔
      Fits frames d.options.maxBuffered position held chunks := by
  induction chunks generalizing d back left position held with
  | nil =>
    rw [List.flatten_nil, List.append_nil] at hstream
    have hback : back = [] := by
      cases back with
      | nil => rfl
      | cons frame back =>
        have hshort : left.length < frameLength frame := h.part frame rfl
        have hlen := streamOf_cons_length frame back
        rw [← hstream] at hlen
        omega
    rw [hback]
    exact iff_of_true rfl trivial
  | cons chunk chunks ih =>
    rw [FrameDecoder.readStream, Fits]
    by_cases hfits : staying frames position held + chunk.length ≤ d.options.maxBuffered
    · obtain ⟨first, last, left', d', rfl, hlast, hread, hoptions, hreading⟩ :=
        h.readChunk_fits htakes hstream hfits
      have htakes' : ∀ frame ∈ last, Takes d'.options frame := fun frame hf =>
        hoptions.symm ▸ htakes frame (List.mem_append_right _ hf)
      have hrest := ih htakes' hreading hlast
      rw [hread, List.map_append, and_iff_right hfits, ← hoptions, ← hrest]
      exact map_append_ok
    · obtain ⟨d', status, hread⟩ := h.readChunk_exceeds (not_le.mp hfits)
      rw [hread]
      exact iff_of_false nofun fun hall => hfits hall.1

/-- A stream of encoded frames comes back frame by frame, however it is cut, exactly when the bytes
since the last cut on a frame boundary never exceed the bound of the buffer. -/
theorem readStream_frames_iff {parts chunks : List Bytes} {options : FrameDecoderOptions}
    (hencoded : frames.mapM FrameCodec.encode = .ok parts)
    (hpayload : ∀ frame ∈ frames, frame.payload.length ≤ options.maxPayload)
    (hcut : chunks.flatten = parts.flatten) :
    (FrameDecoder.readStream { options } chunks).2 = .ok (frames.map Frame.sealed) ↔
      Fits frames options.maxBuffered 0 0 chunks := by
  obtain ⟨hsend, hparts⟩ : (∀ frame ∈ frames, frame.Sendable) ∧
      parts.flatten = streamOf frames := by
    clear hpayload hcut
    induction frames generalizing parts with
    | nil =>
      obtain rfl := Except.ok.inj hencoded
      exact ⟨by simp, rfl⟩
    | cons frame frames ih =>
      rw [List.mapM_cons] at hencoded
      obtain ⟨bytes, hbytes, hencoded⟩ := bind_ok.mp hencoded
      obtain ⟨rest, hrest, hencoded⟩ := bind_ok.mp hencoded
      obtain rfl := Except.ok.inj hencoded
      obtain ⟨hfirst, rfl⟩ := Frame.encode_ok.mp hbytes
      obtain ⟨hsend, hflat⟩ := ih hrest
      refine ⟨by simpa using ⟨hfirst, hsend⟩, ?_⟩
      rw [List.flatten_cons, hflat]
      rfl
  have hreading : Reading frames frames [] 0 0 { options } :=
    ⟨rfl, le_refl 0, rfl, rfl, fun frame _ => frameLength_pos frame, fun _ => rfl, [], rfl, rfl⟩
  exact hreading.readStream (fun frame hf => ⟨hsend frame hf, hpayload frame hf⟩)
    (hcut.trans hparts)

def heartbeats (count : Nat) : List Frame :=
  List.replicate count { header := { type := FrameType.heartbeat.toRaw } }

/-- Three heartbeats of 80 bytes, cut twice and never on a boundary. -/
def unalignedChunks : List Bytes :=
  let stream := streamOf (heartbeats 3)
  [stream.take 100, (stream.drop 100).take 100, stream.drop 200]

set_option maxRecDepth 100000 in
/-- They come back from a buffer that holds the whole stream, and not from one of 170 bytes. -/
theorem readStream_frames_iff_unaligned :
    (FrameDecoder.readStream {} unalignedChunks).2 = .ok ((heartbeats 3).map Frame.sealed) ∧
      (FrameDecoder.readStream { options := ⟨16, 170⟩ } unalignedChunks).2 ≠
        .ok ((heartbeats 3).map Frame.sealed) := by
  have hencoded : (heartbeats 3).mapM FrameCodec.encode =
      .ok ((heartbeats 3).map (·.sealed.bytes)) := by decide +kernel
  have hcut : unalignedChunks.flatten = ((heartbeats 3).map (·.sealed.bytes)).flatten := by
    decide +kernel
  constructor
  · refine (readStream_frames_iff hencoded (by decide) hcut).mpr ?_
    exact ⟨by decide +kernel, by decide +kernel, by decide +kernel, trivial⟩
  · refine (readStream_frames_iff hencoded (by decide) hcut).not.mpr ?_
    rintro ⟨_, hsecond, _⟩
    exact absurd hsecond (by decide +kernel)

set_option maxRecDepth 100000 in
/-- The bytes after the last whole frame fit with every chunk, and the stream is refused: the bytes
of the frame already returned still count. -/
theorem unaligned_stream_refused :
    ∃ (frames : List Frame) (parts chunks : List Bytes) (options : FrameDecoderOptions),
      frames.mapM FrameCodec.encode = .ok parts ∧
      (∀ frame ∈ frames, frame.payload.length ≤ options.maxPayload) ∧
      chunks.flatten = parts.flatten ∧ Roomy frames options.maxBuffered 0 chunks ∧
      (FrameDecoder.readStream { options } chunks).2 =
        .error ⟨.oversized, "frame decoder buffer would exceed its bound", ""⟩ := by
  refine ⟨heartbeats 3, (heartbeats 3).map (·.sealed.bytes), unalignedChunks, ⟨16, 170⟩,
    ?_, ?_, ?_, ?_, ?_⟩
  · decide +kernel
  · decide
  · decide +kernel
  · exact ⟨by decide +kernel, by decide +kernel, by decide +kernel, trivial⟩
  · decide +kernel

end FrameDecoder

end CongestionFabric
