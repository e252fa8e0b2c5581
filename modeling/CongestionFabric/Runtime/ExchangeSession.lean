import CongestionFabric.Runtime.Exchange

namespace CongestionFabric

/-- A session that reads or decodes has met no failure. -/
def Session.Sane (s : Session) : Prop :=
  s.work = .reading ∨ s.work = .decoding → s.healthy = true

/-- A session that handles no more frames. -/
def Session.Gone (s : Session) : Prop := s.work = .leaving ∨ s.work = .ended

namespace CoordinatorNode

open FrameDecoder

variable {n : CoordinatorNode} {c : Nat} {s s' : Session} {flight lost chunk rest : Bytes}
  {carried : Option Frame} {request : Frame}

/-- What a session keeps of another one that it goes on from. -/
structure Follows (s s' : Session) : Prop where
  decoder : s'.decoder = s.decoder
  healthy : s'.healthy = s.healthy
  registered : s'.registered = true → s.registered = true
  gone : s.Gone → s'.Gone
  reading : s'.work ≠ .reading
  sane : s'.Sane

theorem goOn_follows (hregistered : s'.registered = s.registered) (hdecoder : s'.decoder = s.decoder)
    (hhealthy : s'.healthy = s.healthy) (hloop : ¬s.Gone) : Follows s s'.goOn := by
  refine ⟨hdecoder, hhealthy, fun h => hregistered ▸ h, fun h => absurd h hloop, ?_, ?_⟩
  · unfold Session.goOn
    dsimp only
    split <;> simp
  · unfold Session.Sane Session.goOn
    dsimp only
    intro hwork
    by_contra hunhealthy
    rw [if_neg hunhealthy] at hwork
    simp at hwork

theorem work_follows {work : Work} (hloop : ¬s.Gone) (hreading : work ≠ .reading)
    (hdecoding : work ≠ .decoding) : Follows s { s with work } := by
  refine ⟨rfl, rfl, fun h => h, fun h => absurd h hloop, hreading, ?_⟩
  intro hwork
  exact absurd hwork (by simp [hreading, hdecoding])

/-- A session that neither reads nor decodes touches nothing of its stream. -/
theorem proceed_follows (hs : n.sessions[c]? = some s) (hreading : s.work ≠ .reading)
    (hdecoding : s.work ≠ .decoding) (answer : ChannelAnswer) :
    ∃ s', (n.proceed c s answer).sessions[c]? = some s' ∧ Follows s s' := by
  obtain ⟨hc, _⟩ := List.getElem?_eq_some_iff.mp hs
  have hinLoop : ∀ {work : Work}, s.work = work → work ≠ .leaving → work ≠ .ended → ¬s.Gone := by
    intro work hwork hleaving hended hgone
    rcases hgone with hgone | hgone
    · exact hleaving (hwork.symm.trans hgone)
    · exact hended (hwork.symm.trans hgone)
  unfold proceed
  split
  next hwork => exact absurd hwork hreading
  next hwork => exact absurd hwork hdecoding
  next batch hwork =>
    exact ⟨_, put_session hc, work_follows (hinLoop hwork (by simp) (by simp)) (by simp) (by simp)⟩
  next hwork =>
    exact ⟨_, put_session hc, goOn_follows rfl rfl rfl (hinLoop hwork (by simp) (by simp))⟩
  next domain domains hwork =>
    have hloop := hinLoop hwork (by simp) (by simp)
    unfold evaluateNext
    dsimp only
    refine ⟨_, called_session hc, work_follows hloop ?_ ?_⟩
    · split <;> simp
    · split <;> simp
  next domain domains hwork =>
    exact ⟨_, called_session hc,
      work_follows (hinLoop hwork (by simp) (by simp)) (by simp) (by simp)⟩
  next hwork =>
    have hended : Follows s { s with work := .ended } := by
      refine ⟨rfl, rfl, fun h => h, fun _ => .inr rfl, by simp, ?_⟩
      intro h
      simp at h
    unfold leave
    dsimp only
    split
    · exact ⟨_, called_session hc, hended⟩
    · exact ⟨_, put_session hc, hended⟩
  next hwork =>
    refine ⟨s, hs, rfl, rfl, fun h => h, fun h => h, hreading, ?_⟩
    intro h
    simp [hwork] at h

theorem proceed_reading (hwork : s.work = .reading) (answer : ChannelAnswer) :
    n.proceed c s answer = n.read c s answer.received := by
  unfold proceed
  rw [hwork]

/-- What a session keeps when it reads. -/
structure HasRead (s s' : Session) : Prop where
  registered : s'.registered = s.registered
  healthy : s'.healthy = true
  reading : s'.work ≠ .reading

theorem hasRead_sane (h : HasRead s s') : s'.Sane := fun _ => h.healthy

theorem read_stopping (hs : n.sessions[c]? = some s) (hwork : s.work = .reading) (hsane : s.Sane)
    (hstopping : n.stopping = true) (received : Option Bytes) :
    ∃ s', (n.read c s received).sessions[c]? = some s' ∧ s'.decoder = s.decoder ∧ HasRead s s' := by
  obtain ⟨hc, _⟩ := List.getElem?_eq_some_iff.mp hs
  unfold read
  rw [if_pos hstopping]
  exact ⟨_, put_session hc, rfl, rfl, hsane (.inl hwork), by simp⟩

/-- What is read goes to the decoder, and the decoder takes it. -/
theorem read_carries (hs : n.sessions[c]? = some s) (hwork : s.work = .reading) (hsane : s.Sane)
    (hstopping : n.stopping = false) (hcarries : Carries s.decoder flight lost carried)
    (fate : ReadFate) (buffer : Nat) :
    ∃ s', (n.read c s (fate.read buffer flight).1.toOption).sessions[c]? = some s' ∧
      Carries s'.decoder (fate.read buffer flight).2 lost carried ∧ HasRead s s' := by
  obtain ⟨hc, _⟩ := List.getElem?_eq_some_iff.mp hs
  have hhealthy := hsane (.inl hwork)
  have hclosed : ∃ s', (n.put c { s with work := .leaving }).sessions[c]? = some s' ∧
      Carries s'.decoder flight lost carried ∧ HasRead s s' :=
    ⟨_, put_session hc, hcarries, rfl, hhealthy, by simp⟩
  have hgoing : ¬n.stopping = true := by simp [hstopping]
  cases fate with
  | closed =>
    unfold read
    rw [if_neg hgoing]
    exact hclosed
  | failed status =>
    unfold read
    rw [if_neg hgoing]
    exact hclosed
  | bytes size =>
    have hsplit : flight.take (min size buffer) ++ flight.drop (min size buffer) = flight :=
      List.take_append_drop _ _
    unfold ReadFate.read
    dsimp only
    generalize flight.take (min size buffer) = chunk at hsplit
    generalize flight.drop (min size buffer) = rest at hsplit
    subst hsplit
    unfold read
    rw [if_neg hgoing]
    cases chunk with
    | nil => exact hclosed
    | cons byte chunk =>
      obtain ⟨decoder, hpush, hcarries'⟩ := hcarries.push
      dsimp only [Except.toOption]
      rw [hpush]
      exact ⟨_, put_session hc, hcarries', rfl, hhealthy, by simp⟩

theorem proceed_decoding (hwork : s.work = .decoding) (answer : ChannelAnswer) :
    n.proceed c s answer = n.decodeNext c s answer.delivered := by
  unfold proceed
  rw [hwork]

/-- What a session is after it has taken the one frame on the way. -/
structure Took (n : CoordinatorNode) (s : Session) (seen : Seen) (delivered : Bool)
    (request : Frame) (s' : Session) : Prop where
  carries : Carries s'.decoder [] [] none
  registered : s'.registered = true → s.registered = true ∨ request.type = .hello
  delivered : s'.Gone ∨ s'.healthy = delivered
  answered : s'.Gone ∨ ∃ reply, n.reply s seen = some reply
  reading : s'.work ≠ .reading
  sane : s'.Sane

/-- What decoding the one frame on the way comes to: it is not whole and the session reads on, it is
one too many for the connection, or it is taken. -/
inductive Decoded (n : CoordinatorNode) (s : Session) (seen : Seen) (delivered : Bool)
    (flight lost : Bytes) (carried : Option Frame) (s' : Session) : Prop where
  | waits (htaken : n.frameTaken s = none) (hcarries : Carries s'.decoder flight lost carried)
      (hshort : ∀ request ∈ carried, Carries.Short s'.decoder request)
      (hregistered : s'.registered = s.registered) (hhealthy : s'.healthy = true)
      (hwork : s'.work = .reading) : Decoded n s seen delivered flight lost carried s'
  | exceeds {request : Frame} (hcarried : carried = some request) (htaken : n.frameTaken s = none)
      (hflight : flight = []) (hlost : lost = []) (hcarries : Carries s'.decoder [] [] none)
      (hregistered : s'.registered = s.registered) (hgone : s'.Gone) :
      Decoded n s seen delivered flight lost carried s'
  | takes {request : Frame} (hcarried : carried = some request)
      (htaken : n.frameTaken s = some request.sealed) (hflight : flight = []) (hlost : lost = [])
      (htook : Took n s seen delivered request s') :
      Decoded n s seen delivered flight lost carried s'

theorem decode_carries (hs : n.sessions[c]? = some s) (hwork : s.work = .decoding) (hsane : s.Sane)
    (hcarries : Carries s.decoder flight lost carried) (seen : Seen) (delivered : Bool) :
    ∃ s', (n.decodeNext c s delivered).sessions[c]? = some s' ∧
      Decoded n s seen delivered flight lost carried s' := by
  obtain ⟨hc, _⟩ := List.getElem?_eq_some_iff.mp hs
  rcases hcarries.next with ⟨hnext, hshort⟩ | ⟨request, decoder, rfl, hflight, hlost, hnext, hrest⟩
  · unfold decodeNext
    rw [hnext]
    refine ⟨_, put_session hc, .waits ?_ hcarries hshort rfl (hsane (.inr hwork)) rfl⟩
    unfold frameTaken
    rw [hwork, hnext]
  · unfold decodeNext
    rw [hnext]
    dsimp only
    unfold takeFrame
    dsimp only
    by_cases hbudget : s.frames + 1 > n.maxFramesPerConnection
    · rw [if_pos hbudget]
      refine ⟨_, put_session hc, .exceeds rfl ?_ hflight hlost hrest rfl (.inl rfl)⟩
      unfold frameTaken
      rw [hwork, hnext]
      exact if_pos hbudget
    · rw [if_neg hbudget]
      have htaken : n.frameTaken s = some request.sealed := by
        unfold frameTaken
        rw [hwork, hnext]
        exact if_neg hbudget
      obtain ⟨s', hs', hhandled⟩ := handle_handled n seen
        { s with decoder, frames := s.frames + 1 } request.sealed delivered hc
      refine ⟨s', hs', .takes rfl htaken hflight hlost ?_⟩
      have hdecoder := hhandled.decoder
      have hregistered := hhandled.registered
      rw [Frame.sealed_type] at hregistered
      have hcarries' : Carries s'.decoder [] [] none := by
        rw [hdecoder]
        exact hrest
      by_cases hleaving : s'.work = .leaving
      · refine ⟨hcarries', hregistered, .inl (.inl hleaving), .inl (.inl hleaving), ?_, ?_⟩
        · simp [hleaving]
        · intro hother
          simp [hleaving] at hother
      · obtain ⟨hhealthy, hreading, hdecoding, reply, hreply⟩ := hhandled.goesOn hleaving
        refine ⟨hcarries', hregistered, .inr hhealthy, .inr ⟨reply, ?_⟩, hreading, ?_⟩
        · unfold CoordinatorNode.reply
          rw [htaken]
          exact (replyTo_congr rfl).symm.trans hreply
        · intro hother
          exact hdecoding (hother.resolve_left hreading)

/-- A step of another connection leaves this one alone. -/
theorem proceed_other {other : Nat} (hother : other ≠ c) (s : Session) (answer : ChannelAnswer) :
    (n.proceed other s answer).sessions[c]? = n.sessions[c]? := by
  have hput : ∀ (m : CoordinatorNode) (s' : Session), m.sessions = n.sessions →
      (m.put other s').sessions[c]? = n.sessions[c]? := by
    intro m s' hm
    unfold put
    dsimp only
    rw [hm]
    exact List.getElem?_set_ne hother
  by_cases hloop : s.InLoop
  · have hmove := proceed_move n other hloop answer
    generalize n.proceed other s answer = n' at hmove
    cases hmove with
    | kept h => exact hput _ _ rfl
    | called h ha hregistered => exact hput _ _ rfl
    | refused hhello hpublisher hboot hsame hrefused => exact hput _ _ rfl
    | greeted hhello hpublisher hboot hregistered hok => exact hput _ _ rfl
    | farewell hregistered hwork hcalled =>
      rcases hcalled with rfl | ⟨_, rfl⟩
      · exact hput _ _ rfl
      · exact hput _ _ rfl
  · unfold Session.InLoop at hloop
    by_cases hleaving : s.work = .leaving
    · rw [proceed_leaving n other hleaving]
      unfold leave
      dsimp only
      split
      · exact hput _ _ rfl
      · exact hput _ _ rfl
    · have hended : s.work = .ended := by
        by_contra hnot
        exact hloop ⟨hleaving, hnot⟩
      rw [proceed_ended n other hended]

theorem hostCall_sessions (a : Fabric.Action) : (n.hostCall a).sessions = n.sessions := by
  unfold hostCall
  split
  next =>
    split
    next => rfl
    next => rfl
  next => rfl

theorem apply_elsewhere {i : Input} (hs : n.sessions[c]? = some s)
    (hi : ∀ answer, i ≠ .session c answer) : (n.apply i).sessions[c]? = some s := by
  obtain ⟨hc, _⟩ := List.getElem?_eq_some_iff.mp hs
  cases i with
  | accept =>
    unfold apply
    dsimp only
    rw [List.getElem?_append_left hc]
    exact hs
  | session other answer =>
    have hother : other ≠ c := by
      intro hsame
      exact hi answer (hsame ▸ rfl)
    unfold apply advance
    dsimp only
    split
    next => exact hs
    next s₁ hs₁ => exact (proceed_other hother s₁ answer).trans hs
  | host a =>
    have hsame : (n.apply (.host a)).sessions = n.sessions := hostCall_sessions a
    rw [hsame]
    exact hs
  | requestStop => exact hs
  | shutdown => exact hs

end CoordinatorNode

end CongestionFabric
