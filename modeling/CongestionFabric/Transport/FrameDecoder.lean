import CongestionFabric.Transport.Frame

namespace CongestionFabric

structure FrameDecoderOptions where
  maxPayload : Nat := limits.kMaxFramePayload
  maxBuffered : Nat := limits.kMaxFramePayload * 4

/-- The streaming decoder; the bytes of the frames it has returned stay in its buffer. -/
structure FrameDecoder where
  buffer : Bytes := []
  consumed : Nat := 0
  options : FrameDecoderOptions := {}
  failed : Bool := false

namespace FrameDecoder

def buffered (d : FrameDecoder) : Nat := d.buffer.length - d.consumed

/-- A stream that desynchronises stays closed. -/
def broken {α : Type} (d : FrameDecoder) (status : Status) : FrameDecoder × Result α :=
  ({ d with failed := true }, .error status)

def alreadyFailed : Status := ⟨.malformed, "frame decoder already failed on this stream", ""⟩

def discardConsumed (d : FrameDecoder) : FrameDecoder :=
  if d.consumed > 0 ∧ d.consumed = d.buffer.length then { d with buffer := [], consumed := 0 }
  else d

def push (d : FrameDecoder) (bytes : Bytes) : FrameDecoder × VoidResult :=
  if d.failed then (d, .error alreadyFailed)
  else
    let d := d.discardConsumed
    if d.buffer.length + bytes.length > d.options.maxBuffered then
      d.broken ⟨.oversized, "frame decoder buffer would exceed its bound", ""⟩
    else ({ d with buffer := d.buffer ++ bytes }, succeed)

def checkHeader (d : FrameDecoder) (header : FrameHeader) : VoidResult := do
  refuseIf (header.magic ≠ kFrameMagic) .integrityFailure
    "frame header failed its integrity check"
  refuseIf (header.format ≠ kFormatVersion) .unsupported
    "frame format version is not supported"
  refuseIf (isValidFrameType (FrameType.ofRaw header.type) = false) .malformed
    "frame type is not part of the protocol"
  refuseIf (header.payloadLen.toNat > d.options.maxPayload) .oversized
    "frame declares a payload beyond the permitted size"

def next (d : FrameDecoder) : FrameDecoder × Result (Option Frame) :=
  if d.failed then (d, .error alreadyFailed)
  else
    let available := d.buffer.drop d.consumed
    if available.length < kFrameHeaderSize then (d, .ok none)
    else
      let header := decodeFrameHeader (available.take kFrameHeaderSize)
      match d.checkHeader header with
      | .error status => d.broken status
      | .ok _ =>
        let total := kFrameHeaderSize + header.payloadLen.toNat
        if available.length < total then (d, .ok none)
        else match FrameCodec.decode (available.take total) with
          | .error status => d.broken status
          | .ok frame => ({ d with consumed := d.consumed + total }, .ok (some frame))

/-- Call `next` until it returns nothing. Each frame takes its header at least, so as many calls as
there are bytes, and one, are enough. -/
def drainFor : Nat → FrameDecoder → FrameDecoder × Result (List Frame)
  | 0, d => (d, .ok [])
  | calls + 1, d =>
    match d.next with
    | (d, .error status) => (d, .error status)
    | (d, .ok none) => (d, .ok [])
    | (d, .ok (some frame)) =>
      let (d, rest) := drainFor calls d
      (d, rest.map (frame :: ·))

def drain (d : FrameDecoder) : FrameDecoder × Result (List Frame) := drainFor (d.buffered + 1) d

/-- Push a chunk and take every frame that is complete. -/
def readChunk (d : FrameDecoder) (chunk : Bytes) : FrameDecoder × Result (List Frame) :=
  match d.push chunk with
  | (d, .error status) => (d, .error status)
  | (d, .ok _) => d.drain

def readStream (d : FrameDecoder) : List Bytes → FrameDecoder × Result (List Frame)
  | [] => (d, .ok [])
  | chunk :: chunks =>
    match d.readChunk chunk with
    | (d, .error status) => (d, .error status)
    | (d, .ok frames) =>
      let (d, rest) := d.readStream chunks
      (d, rest.map (frames ++ ·))

/-! ### The loop of `next` -/

variable {d d' : FrameDecoder} {frame : Frame} {frames back : List Frame}

theorem next_buffered (h : d.next = (d', .ok (some frame))) : d'.buffered < d.buffered := by
  unfold next at h
  split at h
  · cases h
  · dsimp only at h
    split at h
    · cases h
    · next hlen =>
      have hpos : 0 < kFrameHeaderSize := by decide
      rw [List.length_drop] at hlen
      split at h
      · cases h
      · split at h
        · cases h
        · split at h
          · cases h
          · obtain ⟨rfl, _⟩ := Prod.mk.inj h
            unfold buffered
            dsimp only
            omega

theorem drainFor_enough {calls : Nat} (h : d.buffered < calls) : drainFor calls d = d.drain := by
  have hsame : ∀ calls more (d : FrameDecoder), d.buffered < calls → d.buffered < more →
      drainFor calls d = drainFor more d := by
    intro calls
    induction calls with
    | zero => intro more d hc; omega
    | succ calls ih =>
      intro more d hc hm
      obtain ⟨more, rfl⟩ : ∃ n, more = n + 1 := ⟨more - 1, by omega⟩
      unfold drainFor
      split
      · rfl
      · rfl
      · next d' frame hnext =>
        have hless := next_buffered hnext
        rw [ih more d' (by omega) (by omega)]
  exact hsame calls (d.buffered + 1) d h (by omega)

/-- The calls never run out. -/
theorem drain_eq (d : FrameDecoder) : d.drain = match d.next with
    | (d, .error status) => (d, .error status)
    | (d, .ok none) => (d, .ok [])
    | (d, .ok (some frame)) => (d.drain.1, d.drain.2.map (frame :: ·)) := by
  rw [drain, drainFor]
  split
  · rfl
  · rfl
  · next d' frame hnext =>
    rw [drainFor_enough (next_buffered hnext)]

/-! ### Reading a stream of frames -/

def streamOf (frames : List Frame) : Bytes := frames.flatMap fun frame => frame.sealed.bytes

def frameLength (frame : Frame) : Nat := kFrameHeaderSize + frame.payload.length

/-- A frame that a reader with these options takes. -/
def Takes (options : FrameDecoderOptions) (frame : Frame) : Prop :=
  frame.Sendable ∧ frame.payload.length ≤ options.maxPayload

theorem Takes.checkHeader (h : Takes d.options frame) :
    d.checkHeader frame.sealed.header = .ok () := by
  obtain ⟨hsend, hbound⟩ := h
  have hlen := hsend.sealed_payloadLen
  simp only [FrameDecoder.checkHeader, bind_ok, refuseIf_ok, exists_const]
  refine ⟨not_not.mpr rfl, not_not.mpr rfl, ?_, by omega⟩
  intro hinvalid
  have htype : isValidFrameType frame.sealed.type = true := Frame.sealed_type.symm ▸ hsend.type
  exact Bool.noConfusion (hinvalid.symm.trans htype)

theorem next_part {rest more : Bytes} (hopen : d.failed = false) (h : Takes d.options frame)
    (havailable : d.buffer.drop d.consumed ++ rest = frame.sealed.bytes ++ more)
    (hpart : (d.buffer.drop d.consumed).length < frameLength frame) :
    d.next = (d, .ok none) := by
  unfold next
  rw [if_neg (by simp [hopen])]
  generalize d.buffer.drop d.consumed = available at havailable hpart
  dsimp only
  split
  · rfl
  · next hlen =>
    have hheader : decodeFrameHeader (available.take kFrameHeaderSize) = frame.sealed.header := by
      rw [← Frame.decodeFrameHeader_sealed frame more, ← havailable,
        List.take_append_of_le_length (by omega)]
    have htotal := h.1.sealed_payloadLen
    unfold frameLength at hpart
    rw [hheader, h.checkHeader]
    dsimp only
    rw [if_pos (by omega)]

theorem next_whole {more : Bytes} (hopen : d.failed = false) (h : Takes d.options frame)
    (havailable : d.buffer.drop d.consumed = frame.sealed.bytes ++ more) :
    d.next = ({ d with consumed := d.consumed + frameLength frame }, .ok (some frame.sealed)) := by
  have hbytes : frame.sealed.bytes.length = frameLength frame :=
    Frame.sealed_bytes_length frame
  have hheader := Frame.decodeFrameHeader_sealed frame more
  have hcheck := h.checkHeader
  have htotal : kFrameHeaderSize + frame.sealed.header.payloadLen.toNat = frameLength frame :=
    congrArg (kFrameHeaderSize + ·) h.1.sealed_payloadLen
  have hdecode := h.1.decode_sealed
  have hsize : kFrameHeaderSize ≤ frameLength frame := Nat.le_add_right _ _
  generalize frame.sealed = whole at havailable hbytes hheader hcheck htotal hdecode ⊢
  have htake : (whole.bytes ++ more).take (frameLength frame) = whole.bytes := by
    rw [← hbytes]
    exact List.take_left
  unfold next
  rw [if_neg (by simp [hopen])]
  generalize d.buffer.drop d.consumed = available at havailable
  dsimp only
  rw [havailable, List.length_append, if_neg (by omega), hheader, hcheck]
  dsimp only
  rw [htotal, if_neg (by omega), htake, hdecode]

theorem next_nothing (hopen : d.failed = false) (havailable : d.buffer.drop d.consumed = []) :
    d.next = (d, .ok none) := by
  unfold next
  rw [if_neg (by simp [hopen]), havailable]
  exact if_pos (by decide)

/-- What is left of a stream is less than its first frame. -/
def Part (frames : List Frame) (left : Bytes) : Prop :=
  ∀ frame ∈ frames.head?, left.length < frameLength frame

theorem drain_stream {pending rest : Bytes} (hopen : d.failed = false)
    (htakes : ∀ frame ∈ frames, Takes d.options frame)
    (hpending : d.buffer.drop d.consumed = pending) (hstream : pending ++ rest = streamOf frames) :
    ∃ front back left, frames = front ++ back ∧ pending = streamOf front ++ left ∧
      Part back left ∧ d.drain =
        ({ d with consumed := d.consumed + (streamOf front).length },
          .ok (front.map Frame.sealed)) := by
  induction frames generalizing d pending with
  | nil =>
    obtain ⟨rfl, _⟩ := List.append_eq_nil_iff.mp hstream
    refine ⟨[], [], [], rfl, rfl, by simp [Part], ?_⟩
    rw [drain_eq, next_nothing hopen hpending]
    rfl
  | cons frame frames ih =>
    have hfirst := htakes frame List.mem_cons_self
    have hcons : streamOf (frame :: frames) = frame.sealed.bytes ++ streamOf frames := rfl
    have hbytes := Frame.sealed_bytes_length frame
    rw [hcons] at hstream
    by_cases hpart : pending.length < frameLength frame
    · refine ⟨[], frame :: frames, pending, rfl, rfl, by simpa [Part] using hpart, ?_⟩
      rw [drain_eq, next_part hopen hfirst (hpending.symm ▸ hstream) (hpending.symm ▸ hpart)]
      rfl
    · unfold frameLength at hpart
      obtain ⟨more, rfl⟩ : frame.sealed.bytes <+: pending :=
        List.prefix_of_prefix_length_le ⟨streamOf frames, rfl⟩ ⟨rest, hstream⟩ (by omega)
      rw [List.append_assoc, List.append_cancel_left_eq] at hstream
      have hnext := next_whole hopen hfirst hpending
      have hmore : d.buffer.drop (d.consumed + frameLength frame) = more := by
        rw [← List.drop_drop, hpending, frameLength, ← hbytes, List.drop_left]
      obtain ⟨front, back, left, rfl, hleft, hback, hdrain⟩ :=
        ih (d := { d with consumed := d.consumed + frameLength frame }) hopen
          (fun f hf => htakes f (List.mem_cons_of_mem _ hf)) hmore hstream
      refine ⟨frame :: front, back, left, rfl, ?_, hback, ?_⟩
      · rw [hleft, ← List.append_assoc]
        rfl
      · rw [drain_eq, hnext]
        dsimp only
        rw [hdrain]
        have hsum : (streamOf (frame :: front)).length =
            frameLength frame + (streamOf front).length := by
          rw [frameLength, ← hbytes]
          exact List.length_append
        rw [hsum, ← Nat.add_assoc]
        rfl

end FrameDecoder

end CongestionFabric
