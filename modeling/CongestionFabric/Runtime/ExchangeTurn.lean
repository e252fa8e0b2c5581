import CongestionFabric.Runtime.ExchangeSession
import CongestionFabric.Runtime.PublisherSteps

namespace CongestionFabric.Exchange

open CoordinatorNode FrameDecoder

variable {e e' : Exchange} {s s' : Session} {lost : Bytes} {carried : Option Frame}
  {request : Frame}

/-- What the request on the way to the node is: the last batch that was written, or a frame that is
no evidence, and a Hello only if the pass began with one. -/
inductive Pending (e : Exchange) (request : Frame) : Prop where
  | plain (htype : request.type ≠ .evidence) (hall : e.ingested = e.sent.map sentBatch)
      (hgreets : request.type = .hello → e.publisher.greets = true)
  | evidence {init : List EvidenceBatch} {batch : EvidenceBatch} (htype : request.type = .evidence)
      (hsent : e.sent = init ++ [batch]) (hall : e.ingested = init.map sentBatch)
      (hread : ∀ received, decodeEvidence request.payload = .ok received →
        received = sentBatch batch)

/-- The request that a publisher at this stage has written. -/
def Asked (p : Publisher) (request : Frame) : Prop :=
  match p.stage with
  | .awaitingGreeting _ => request.type = .hello
  | .awaitingAck _ => request.type = .evidence
  | _ => False

/-- The reply that a publisher at this stage waits for. -/
def Awaited (p : Publisher) (reply : Frame) : Prop :=
  match p.stage with
  | .awaitingGreeting _ => reply.type = .helloAck
  | .awaitingAck _ => reply.type = .evidenceAck
  | _ => False

/-- Whose turn it is: the publisher's to write, the connection's to take the request, the publisher's
to hear the reply, nobody's because the connection has ended, or the pass is over. -/
inductive Turn (e : Exchange) (s : Session) : Prop where
  | quiet (hstage : e.publisher.writing = true) (hup : Carries s.decoder e.up [] none)
      (hdown : Carries e.publisher.decoder e.down [] none)
      (hall : e.ingested = e.sent.map sentBatch)
  | asked {request : Frame} (hasked : Asked e.publisher request)
      (hup : Carries s.decoder e.up [] (some request))
      (hshort : s.work = .reading → Carries.Short s.decoder request)
      (hdown : Carries e.publisher.decoder e.down [] none) (hpending : Pending e request)
  | answered {reply : Frame} {lost : Bytes} (hawaited : Awaited e.publisher reply)
      (hup : Carries s.decoder e.up [] none)
      (hdown : Carries e.publisher.decoder e.down lost (some reply))
      (hshort : Carries.Short e.publisher.decoder reply)
      (hlost : lost = [] ∨ s.healthy = false ∨ s.Gone)
      (hall : e.ingested = e.sent.map sentBatch)
  | unanswered (hstage : e.publisher.awaiting = true) (hup : Carries s.decoder e.up [] none)
      (hdown : Carries e.publisher.decoder e.down [] none) (hgone : s.Gone)
  | spent {lost : Bytes} {carried : Option Frame} (hstage : e.publisher.finished = true)
      (hup : Carries s.decoder e.up lost carried)
      (hpending : ∀ request ∈ carried, Pending e request)
      (hdown : e.publisher.decoder.failed = false)

/-- Without a greeting the connection registers nobody and takes no evidence. -/
def Met (e : Exchange) (s : Session) : Prop :=
  e.publisher.greets = false → s.registered = false ∧ e.ingested = []

/-- What holds of an exchange between any two of its moves. -/
structure Sound (e : Exchange) : Prop where
  books : Publisher.Books e.publisher e.sent.length
  turn : ∃ s, e.session = some s ∧ s.Sane ∧ Met e s ∧ Turn e s

/-- The exchange as one party asking another. -/
def asLockstep (e : Exchange) : Lockstep EvidenceBatch where
  asked := e.sent.map sentBatch
  handled := e.ingested
  answered := e.publisher.report.framesAcked.toNat

/-- One move of the exchange is one step of asking and answering at most. -/
def Refines (e e' : Exchange) : Prop := Relation.ReflGen Lockstep.Step e.asLockstep e'.asLockstep

theorem Refines.same (hsent : e'.sent = e.sent) (hingested : e'.ingested = e.ingested)
    (hacked : e'.publisher.report.framesAcked = e.publisher.report.framesAcked) : Refines e e' := by
  unfold Refines asLockstep
  rw [hsent, hingested, hacked]

theorem greets_of_script {p p' : Publisher} (h : p'.script = p.script) : p'.greets = p.greets := by
  unfold Publisher.greets
  rw [h]

theorem Met.kept (h : Met e s) (hscript : e'.publisher.script = e.publisher.script)
    (hingested : e'.ingested = e.ingested)
    (hregistered : s'.registered = true → s.registered = true) : Met e' s' := by
  intro hgreets
  rw [greets_of_script hscript] at hgreets
  obtain ⟨hnobody, hnothing⟩ := h hgreets
  refine ⟨?_, hingested.trans hnothing⟩
  by_contra hsome
  exact absurd (hregistered (by simpa using hsome)) (by simp [hnobody])

/-! ### The publisher writes -/

theorem Turn.of_writing (h : Turn e s) (hwriting : e.publisher.writing = true) :
    Carries s.decoder e.up [] none ∧ Carries e.publisher.decoder e.down [] none ∧
      e.ingested = e.sent.map sentBatch := by
  cases h with
  | quiet hstage hup hdown hall => exact ⟨hup, hdown, hall⟩
  | asked hasked hup hshort hdown hpending =>
    unfold Asked at hasked
    unfold Publisher.writing at hwriting
    split at hasked <;> simp_all
  | answered hawaited hup hdown hshort hlost hall =>
    unfold Awaited at hawaited
    unfold Publisher.writing at hwriting
    split at hawaited <;> simp_all
  | unanswered hstage hup hdown hgone =>
    unfold Publisher.awaiting at hstage
    unfold Publisher.writing at hwriting
    split at hstage <;> simp_all
  | spent hstage hup hpending hdown =>
    unfold Publisher.finished at hstage
    unfold Publisher.writing at hwriting
    split at hstage <;> simp_all

/-- The request a publisher writes is the one it then waits on. -/
theorem asked_of_wrote {p p' : Publisher} {clock : Tick} {sent : Nat} {delivered : Bool}
    (hrequest : Publisher.Request p clock request) (hwrote : Publisher.Wrote p delivered sent p')
    (hawaiting : p'.awaiting = true) : Asked p' request := by
  unfold Publisher.awaiting at hawaiting
  split at hawaiting
  next before hstage =>
    have hbefore := hwrote.greeting before hstage
    cases hrequest with
    | greets _ htype =>
      unfold Asked
      rw [hstage]
      exact htype
    | publishes hpublishing => simp [hbefore] at hpublishing
    | parts hparting => simp [hbefore] at hparting
  next index hstage =>
    have hbefore := hwrote.publishing index hstage
    cases hrequest with
    | greets hgreeting => simp [hbefore] at hgreeting
    | publishes _ _ htype =>
      unfold Asked
      rw [hstage]
      exact htype
    | parts hparting => simp [hbefore] at hparting
  next => cases hawaiting

theorem pending_of_request {clock : Tick} (hbooks : Publisher.Books e.publisher e.sent.length)
    (hrequest : Publisher.Request e.publisher clock request)
    (hscript : e'.publisher.script = e.publisher.script)
    (hall : e.ingested = e.sent.map sentBatch) (hingested : e'.ingested = e.ingested)
    (hsent : e'.sent = e.sent ++ e.publisher.outgoing clock) : Pending e' request := by
  unfold Publisher.outgoing at hsent
  cases hrequest with
  | greets hstage htype =>
    rw [hstage, List.append_nil] at hsent
    unfold Publisher.Books at hbooks
    rw [hstage] at hbooks
    exact .plain (by simp [htype]) (by rw [hingested, hall, hsent])
      (fun _ => (greets_of_script hscript).trans hbooks.2.2)
  | @publishes index batch hstage hbatch htype hpayload =>
    rw [hstage] at hsent
    dsimp only at hsent
    rw [hbatch] at hsent
    refine .evidence htype hsent (hingested.trans hall) ?_
    exact fun received h => decodeEvidence_encoded (Publisher.batchAt_built hbatch) hpayload h
  | parts hstage htype =>
    rw [hstage, List.append_nil] at hsent
    exact .plain (by simp [htype]) (by rw [hingested, hall, hsent]) (by simp [htype])

/-- Writing a batch is asking; the answer to the one before it has come. -/
theorem refines_of_request {clock : Tick} (hbooks : Publisher.Books e.publisher e.sent.length)
    (hrequest : Publisher.Request e.publisher clock request) (hingested : e'.ingested = e.ingested)
    (hsent : e'.sent = e.sent ++ e.publisher.outgoing clock)
    (hacked : e'.publisher.report.framesAcked = e.publisher.report.framesAcked) : Refines e e' := by
  unfold Publisher.outgoing at hsent
  cases hrequest with
  | greets hstage htype =>
    rw [hstage, List.append_nil] at hsent
    exact .same hsent hingested hacked
  | @publishes index batch hstage hbatch htype hpayload =>
    unfold Publisher.Books at hbooks
    rw [hstage] at hsent hbooks
    dsimp only at hsent
    rw [hbatch] at hsent
    obtain ⟨hlength, hindex, hclean⟩ := hbooks
    have htotal := e.publisher.total_lt
    have hanswered : e.asLockstep.answered = index := by
      unfold asLockstep
      rw [hclean.acked, UInt64.toNat_ofNat']
      exact Nat.mod_eq_of_lt (by omega)
    have hstep : Lockstep.Step e.asLockstep
        { e.asLockstep with asked := e.asLockstep.asked ++ [sentBatch batch] } := by
      refine .ask _ ?_
      rw [hanswered, ← hlength]
      exact List.length_map _
    have hsame : e'.asLockstep =
        { e.asLockstep with asked := e.asLockstep.asked ++ [sentBatch batch] } := by
      unfold asLockstep
      rw [hsent, hingested, hacked, List.map_append]
      rfl
    unfold Refines
    rw [hsame]
    exact .single hstep
  | parts hstage htype =>
    rw [hstage, List.append_nil] at hsent
    exact .same hsent hingested hacked

theorem sound_writes (h : Sound e) (clock : Tick) (fate : WriteFate) (failure : Status) :
    Sound (e.publisherWrites clock fate failure) ∧
      Refines e (e.publisherWrites clock fate failure) := by
  obtain ⟨hbooks, s, hs, hsane, hmet, hturn⟩ := h
  unfold publisherWrites
  by_cases hwriting : e.publisher.writing = true
  · obtain ⟨hup, hdown, hall⟩ := hturn.of_writing hwriting
    rw [if_neg (by simp [hwriting])]
    cases hencoded : (do FrameCodec.encode (← e.publisher.composed clock)) with
    | error status =>
      dsimp only
      rw [Publisher.write_error hwriting hencoded]
      exact ⟨⟨trivial, s, hs, hsane, hmet, .spent rfl hup (by simp) hdown.healthy⟩, .same rfl rfl rfl⟩
    | ok bytes =>
      obtain ⟨⟨frame, hsend, rfl, hrequest⟩, hwrote⟩ :=
        Publisher.write_ok hwriting hbooks hencoded fate failure
      change Publisher.Wrote _ _ _ (e.publisher.write clock
        (if fate.delivered then succeed else .error failure)) at hwrote
      dsimp only
      generalize e.publisher.write clock (if fate.delivered then succeed else .error failure) = p'
        at hwrote
      have hup' := hup.write hsend (fate.sent_unsent frame.sealed.bytes)
      have hdown' : Carries p'.decoder e.down [] none := by
        rw [hwrote.decoder]
        exact hdown
      refine ⟨⟨?_, s, hs, hsane, hmet.kept hwrote.script rfl id, ?_⟩,
        refines_of_request hbooks hrequest rfl rfl hwrote.acked⟩
      · dsimp only
        rw [List.length_append]
        exact hwrote.books
      · have hpending : Pending
            { e with publisher := p', up := e.up ++ fate.sent frame.sealed.bytes
                     sent := e.sent ++ e.publisher.outgoing clock } frame :=
          pending_of_request hbooks hrequest hwrote.script hall rfl rfl
        rcases p'.stage_cases with hstage | hstage | hstage
        · exact absurd (hstage.symm.trans hwrote.writing) (by simp)
        · have hwhole : fate = .whole := by
            have hdelivered := hwrote.delivered hstage
            cases fate with
            | whole => rfl
            | cut size => cases hdelivered
          subst hwhole
          exact .asked (asked_of_wrote hrequest hwrote hstage) hup'
            (fun _ => hup.nothing_short frame) hdown' hpending
        · refine .spent hstage hup' ?_ hdown'.healthy
          intro request hcarried
          obtain rfl := Option.some.inj hcarried
          exact hpending
  · rw [if_pos (by simpa using hwriting)]
    exact ⟨⟨hbooks, s, hs, hsane, hmet, hturn⟩, .same rfl rfl rfl⟩

/-! ### The publisher reads -/

theorem heard_of_awaiting {p : Publisher} {sent : Nat} (hbooks : Publisher.Books p sent)
    (hawaiting : p.awaiting = true) : p.heard = false := by
  unfold Publisher.Books at hbooks
  unfold Publisher.awaiting at hawaiting
  split at hawaiting
  next before hstage =>
    rw [hstage] at hbooks
    exact hbooks.2.2
  next index hstage =>
    rw [hstage] at hbooks
    exact hbooks.2.2.2
  next => cases hawaiting

/-- A publisher that only holds more bytes is where it was. -/
theorem books_decoder {p : Publisher} {sent : Nat} (d : FrameDecoder)
    (h : Publisher.Books p sent) : Publisher.Books { p with decoder := d } sent := by
  unfold Publisher.Books at h ⊢
  dsimp only
  split at h
  next => exact ⟨h.1, ⟨h.2.1.errors, h.2.1.fences, h.2.1.acked⟩, h.2.2⟩
  next => exact ⟨h.1, ⟨h.2.1.errors, h.2.1.fences, h.2.1.acked⟩, h.2.2⟩
  next => exact ⟨h.1, h.2.1, h.2.2.errors, h.2.2.fences, h.2.2.acked⟩
  next => exact ⟨h.1, h.2.1, ⟨h.2.2.1.errors, h.2.2.1.fences, h.2.2.1.acked⟩, h.2.2.2⟩
  next => exact ⟨h.1, h.2.errors, h.2.fences, h.2.acked⟩
  next => exact ⟨h.same, h.fences, h.complete, h.refused⟩
  next => trivial

/-- The reply that was waited for answers the last batch, or greets. -/
theorem awaited_heard {clock : Tick} {reply : Frame} {d : FrameDecoder} {sent : Nat}
    (hawaited : Awaited e.publisher reply) (hbooks : Publisher.Books e.publisher sent) :
    ∃ answered, Publisher.Heard e.publisher d answered sent
        ({ e.publisher with decoder := d }.hear clock reply.sealed).resume ∧
      (answered = 0 ∨ answered = 1 ∧
        e.publisher.report.framesAcked.toNat + 1 = sent ∧ sent < 2 ^ 64) := by
  unfold Awaited at hawaited
  split at hawaited
  next before hstage =>
    have htype : reply.sealed.type = .helloAck := Frame.sealed_type.trans hawaited
    exact ⟨0, Publisher.greeting_heard hstage hbooks htype, .inl rfl⟩
  next index hstage =>
    have htype : reply.sealed.type = .evidenceAck := Frame.sealed_type.trans hawaited
    refine ⟨1, Publisher.ack_heard hstage hbooks htype, .inr ⟨rfl, ?_⟩⟩
    unfold Publisher.Books at hbooks
    rw [hstage] at hbooks
    obtain ⟨rfl, hindex, hclean, _⟩ := hbooks
    have htotal := e.publisher.total_lt
    rw [hclean.acked, UInt64.toNat_ofNat', Nat.mod_eq_of_lt (by omega)]
    omega
  next => exact hawaited.elim

/-- Hearing a reply is one answer more, and everything that was asked has been handled. -/
theorem refines_of_heard {answered : Nat} {d : FrameDecoder}
    (hheard : Publisher.Heard e.publisher d answered e.sent.length e'.publisher)
    (hanswered : answered = 0 ∨ answered = 1 ∧
      e.publisher.report.framesAcked.toNat + 1 = e.sent.length ∧ e.sent.length < 2 ^ 64)
    (hall : e.ingested = e.sent.map sentBatch) (hsent : e'.sent = e.sent)
    (hingested : e'.ingested = e.ingested) : Refines e e' := by
  have hacked := hheard.acked
  rcases hanswered with rfl | ⟨rfl, hnext, hbound⟩
  · refine .same hsent hingested ?_
    rw [hacked]
    exact UInt64.add_zero _
  · have hone : e'.asLockstep = { e.asLockstep with answered := e.asLockstep.answered + 1 } := by
      unfold asLockstep
      rw [hsent, hingested, hacked, UInt64.toNat_add]
      have hmod : (e.publisher.report.framesAcked.toNat + (UInt64.ofNat 1).toNat) % 2 ^ 64 =
          e.publisher.report.framesAcked.toNat + 1 := by
        rw [UInt64.toNat_ofNat']
        omega
      rw [hmod]
    unfold Refines
    rw [hone]
    refine .single (.answer ?_)
    unfold asLockstep
    dsimp only
    rw [hall, List.length_map]
    omega

theorem Pending.congr (h : Pending e request) (hscript : e'.publisher.script = e.publisher.script)
    (hsent : e'.sent = e.sent) (hingested : e'.ingested = e.ingested) : Pending e' request := by
  cases h with
  | plain htype hall hgreets =>
    exact .plain htype (by rw [hingested, hsent, hall])
      (fun hhello => (greets_of_script hscript).trans (hgreets hhello))
  | evidence htype hlast hall hread =>
    exact .evidence htype (hsent.trans hlast) (hingested.trans hall) hread

theorem sound_reads (h : Sound e) (clock : Tick) (fate : ReadFate) :
    Sound (e.publisherReads clock fate) ∧ Refines e (e.publisherReads clock fate) := by
  obtain ⟨hbooks, s, hs, hsane, hmet, hturn⟩ := h
  unfold publisherReads
  by_cases hawaiting : e.publisher.awaiting = true
  · rw [if_neg (by simp [hawaiting])]
    have hheard := heard_of_awaiting hbooks hawaiting
    have hreceived : ∀ {lost : Bytes} {carried : Option Frame},
        Carries e.publisher.decoder e.down lost carried →
        Publisher.Received e.publisher clock (fate.read Publisher.kReadBufferBytes e.down).2 lost
          carried (e.publisher.receive clock (fate.read Publisher.kReadBufferBytes e.down).1) :=
      fun hdown => Publisher.receive_received hawaiting hheard hdown fate _
    dsimp only
    generalize (fate.read Publisher.kReadBufferBytes e.down).2 = down at hreceived
    generalize e.publisher.receive clock (fate.read Publisher.kReadBufferBytes e.down).1 = p'
      at hreceived
    have hfailed : ∀ (status : Status) {lost : Bytes} {carried : Option Frame},
        Carries s.decoder e.up lost carried → (∀ request ∈ carried, Pending e request) →
        e.publisher.decoder.failed = false →
        Sound { e with publisher := e.publisher.fail status, down } ∧
          Refines e { e with publisher := e.publisher.fail status, down } := by
      intro status lost carried hup hpending hdown
      refine ⟨⟨trivial, s, hs, hsane, hmet, .spent rfl hup ?_ hdown⟩, .same rfl rfl rfl⟩
      exact fun request hcarried => (hpending request hcarried).congr rfl rfl rfl
    cases hturn with
    | quiet hstage hup hdown hall =>
      exact absurd (Publisher.awaiting_not_writing hawaiting) (by simp [hstage])
    | @asked request hasked hup hshort hdown hpending =>
      cases hreceived hdown with
      | fails status =>
        refine hfailed status hup ?_ hdown.healthy
        intro other hcarried
        obtain rfl := Option.some.inj hcarried
        exact hpending
      | waits hcarries =>
        refine ⟨⟨books_decoder _ hbooks, s, hs, hsane, hmet, ?_⟩, .same rfl rfl rfl⟩
        exact .asked hasked hup hshort hcarries (hpending.congr rfl rfl rfl)
      | hears hcarried => cases hcarried
    | @answered reply lost hawaited hup hdown hshort hlost hall =>
      cases hreceived hdown with
      | fails status => exact hfailed status hup (by simp) hdown.healthy
      | waits hcarries hshort' =>
        refine ⟨⟨books_decoder _ hbooks, s, hs, hsane, hmet, ?_⟩, .same rfl rfl rfl⟩
        exact .answered hawaited hup hcarries (hshort' reply rfl) hlost hall
      | @hears d frame hcarried hnone hflight hcarries =>
        obtain rfl := Option.some.inj hcarried
        obtain ⟨answered, hthen, hanswered⟩ :=
          @awaited_heard e clock reply d _ hawaited hbooks
        refine ⟨⟨hthen.books, s, hs, hsane, hmet.kept hthen.script rfl id, ?_⟩,
          refines_of_heard hthen hanswered hall rfl rfl⟩
        have hdecoder := hthen.decoder
        have hstays := hthen.awaiting
        generalize ({ e.publisher with decoder := d }.hear clock reply.sealed).resume = p'
          at hdecoder hstays
        rw [hflight]
        rcases p'.stage_cases with hstage | hstage | hstage
        · exact .quiet hstage hup (by rw [hdecoder]; exact hcarries) hall
        · exact absurd hstays (by simp [hstage])
        · exact .spent hstage hup (by simp) (by rw [hdecoder]; exact hcarries.healthy)
    | unanswered hstage hup hdown hgone =>
      cases hreceived hdown with
      | fails status => exact hfailed status hup (by simp) hdown.healthy
      | waits hcarries =>
        refine ⟨⟨books_decoder _ hbooks, s, hs, hsane, hmet, ?_⟩, .same rfl rfl rfl⟩
        exact .unanswered hstage hup hcarries hgone
      | hears hcarried => cases hcarried
    | spent hstage hup hpending hdown =>
      exact absurd (Publisher.awaiting_running hawaiting) (by simp [hstage])
  · rw [if_pos (by simpa using hawaiting)]
    exact ⟨⟨hbooks, s, hs, hsane, hmet, hturn⟩, .same rfl rfl rfl⟩

/-! ### The connection moves -/

theorem sane_of_gone (h : s.Gone) : s.Sane := by
  intro hwork
  rcases h with h | h
  · simp [h] at hwork
  · simp [h] at hwork

theorem awaiting_of_asked {p : Publisher} (h : Asked p request) : p.awaiting = true := by
  unfold Asked at h
  split at h
  next hstage => simp [Publisher.awaiting, hstage]
  next hstage => simp [Publisher.awaiting, hstage]
  next => exact h.elim

/-- A session that goes on with the same bytes on the way leaves the turn where it was. -/
theorem Turn.forward (h : Turn e s) (hpublisher : e'.publisher = e.publisher)
    (hdown : e'.down = e.down) (hsent : e'.sent = e.sent) (hingested : e'.ingested = e.ingested)
    (hup : ∀ {lost : Bytes} {carried : Option Frame}, Carries s.decoder e.up lost carried →
      Carries s'.decoder e'.up lost carried)
    (hreading : s'.work ≠ .reading) (hhealthy : s'.healthy = s.healthy)
    (hgone : s.Gone → s'.Gone) : Turn e' s' := by
  cases h with
  | quiet hstage hcarries hheld hall =>
    refine .quiet ?_ (hup hcarries) ?_ ?_
    · rwa [hpublisher]
    · rwa [hpublisher, hdown]
    · rw [hingested, hsent, hall]
  | asked hasked hcarries hshort hheld hpending =>
    refine .asked ?_ (hup hcarries) (fun h => absurd h hreading) ?_ (hpending.congr (by rw [hpublisher]) hsent hingested)
    · rwa [hpublisher]
    · rwa [hpublisher, hdown]
  | @answered reply lost hawaited hcarries hheld hshort hlost hall =>
    have hheld' : Carries e'.publisher.decoder e'.down lost (some reply) := by
      rwa [hpublisher, hdown]
    refine .answered ?_ (hup hcarries) hheld' ?_ ?_ ?_
    · rwa [hpublisher]
    · rwa [hpublisher]
    · rcases hlost with hlost | hlost | hlost
      · exact .inl hlost
      · exact .inr (.inl (hhealthy.trans hlost))
      · exact .inr (.inr (hgone hlost))
    · rw [hingested, hsent, hall]
  | unanswered hstage hcarries hheld hleft =>
    refine .unanswered ?_ (hup hcarries) ?_ (hgone hleft)
    · rwa [hpublisher]
    · rwa [hpublisher, hdown]
  | spent hstage hcarries hpending hheld =>
    refine .spent ?_ (hup hcarries) ?_ ?_
    · rwa [hpublisher]
    · exact fun request hcarried => (hpending request hcarried).congr (by rw [hpublisher]) hsent hingested
    · rwa [hpublisher]

theorem Turn.carries (h : Turn e s) : ∃ lost carried, Carries s.decoder e.up lost carried := by
  cases h with
  | quiet _ hup => exact ⟨_, _, hup⟩
  | asked _ hup => exact ⟨_, _, hup⟩
  | answered _ hup => exact ⟨_, _, hup⟩
  | unanswered _ hup => exact ⟨_, _, hup⟩
  | spent _ hup => exact ⟨_, _, hup⟩

theorem sound_session_reads (h : Sound e) (fate : ReadFate) :
    Sound (e.sessionReads fate) ∧ Refines e (e.sessionReads fate) := by
  obtain ⟨hbooks, s, hs, hsane, hmet, hturn⟩ := h
  unfold sessionReads
  rw [hs]
  dsimp only
  by_cases hwork : s.work = .reading
  · rw [if_neg (by simp [hwork])]
    have hhealthy := hsane (.inl hwork)
    have hstays : ¬s.Gone := by
      intro hgone
      rcases hgone with hgone | hgone
      · exact absurd (hwork.symm.trans hgone) (by simp)
      · exact absurd (hwork.symm.trans hgone) (by simp)
    by_cases hstopping : e.node.stopping = true
    · rw [if_pos hstopping]
      obtain ⟨s', hs', hdecoder, hread⟩ := read_stopping hs hwork hsane hstopping none
      refine ⟨⟨hbooks, s', ?_, hasRead_sane hread,
        hmet.kept rfl rfl (fun h => hread.registered.symm.trans h), ?_⟩, .same rfl rfl rfl⟩
      · exact (congrArg (·.sessions[e.connection]?) (proceed_reading hwork {})).trans hs'
      · refine hturn.forward rfl rfl rfl rfl ?_ hread.reading (hread.healthy.trans hhealthy.symm)
          (fun hgone => absurd hgone hstays)
        intro lost carried hcarries
        rw [hdecoder]
        exact hcarries
    · rw [if_neg hstopping]
      have hgoing : e.node.stopping = false := by simpa using hstopping
      -- how the session reads does not depend on what is on the way
      obtain ⟨lost, carried, hcarries⟩ := hturn.carries
      obtain ⟨s', hs', _, hread⟩ := read_carries hs hwork hsane hgoing hcarries fate
        CoordinatorNode.kReadBufferBytes
      refine ⟨⟨hbooks, s', ?_, hasRead_sane hread,
        hmet.kept rfl rfl (fun h => hread.registered.symm.trans h), ?_⟩, .same rfl rfl rfl⟩
      · exact (congrArg (·.sessions[e.connection]?) (proceed_reading hwork
          { received := (fate.read CoordinatorNode.kReadBufferBytes e.up).1.toOption })).trans hs'
      · refine hturn.forward rfl rfl rfl rfl ?_ hread.reading (hread.healthy.trans hhealthy.symm)
          (fun hgone => absurd hgone hstays)
        intro lost carried hcarries
        obtain ⟨s₁, hs₁, hcarries₁, _⟩ := read_carries hs hwork hsane hgoing hcarries fate
          CoordinatorNode.kReadBufferBytes
        obtain rfl := Option.some.inj (hs'.symm.trans hs₁)
        exact hcarries₁
  · rw [if_pos hwork]
    exact ⟨⟨hbooks, s, hs, hsane, hmet, hturn⟩, .same rfl rfl rfl⟩

theorem sound_elsewhere (h : Sound e) {i : Input}
    (hi : ∀ answer, i ≠ .session e.connection answer) :
    Sound { e with node := e.node.apply i } ∧ Refines e { e with node := e.node.apply i } := by
  obtain ⟨hbooks, s, hs, hsane, hmet, hturn⟩ := h
  refine ⟨⟨hbooks, s, apply_elsewhere hs hi, hsane, hmet, ?_⟩, .same rfl rfl rfl⟩
  cases hturn with
  | quiet hstage hup hdown hall => exact .quiet hstage hup hdown hall
  | asked hasked hup hshort hdown hpending =>
    exact .asked hasked hup hshort hdown (hpending.congr rfl rfl rfl)
  | answered hawaited hup hdown hshort hlost hall =>
    exact .answered hawaited hup hdown hshort hlost hall
  | unanswered hstage hup hdown hgone => exact .unanswered hstage hup hdown hgone
  | spent hstage hup hpending hdown =>
    exact .spent hstage hup (fun request hcarried => (hpending request hcarried).congr rfl rfl rfl) hdown

theorem reply_none {n : CoordinatorNode} (h : n.frameTaken s = none) (seen : Seen) :
    n.reply s seen = none ∧ n.batchTaken s = [] := by
  unfold CoordinatorNode.reply batchTaken
  rw [h]
  exact ⟨rfl, rfl⟩

theorem frameTaken_none {n : CoordinatorNode} (h : s.work ≠ .decoding) : n.frameTaken s = none := by
  cases htaken : n.frameTaken s with
  | none => rfl
  | some frame =>
    obtain ⟨_, hwork, _⟩ := frameTaken_some htaken
    exact absurd hwork h

/-- What a frame that is taken hands to the fabric. -/
theorem batchTaken_pending {n : CoordinatorNode} (hpending : Pending e request)
    (htaken : n.frameTaken s = some request.sealed) :
    n.batchTaken s = [] ∨ ∃ init batch, e.sent = init ++ [batch] ∧
      e.ingested = init.map sentBatch ∧ n.batchTaken s = [sentBatch batch] := by
  unfold batchTaken
  rw [htaken]
  dsimp only
  rw [Frame.sealed_type, Frame.sealed_payload]
  split
  next htype =>
    cases hpending with
    | plain hplain => exact absurd htype.1 hplain
    | @evidence init batch _ hsent hall hread =>
      cases hdecoded : decodeEvidence request.payload with
      | error status => exact .inl rfl
      | ok received =>
        rw [hread received hdecoded]
        exact .inr ⟨init, batch, hsent, hall, rfl⟩
  next => exact .inl rfl

/-- A reply says that the batch of its request has been handed over. -/
theorem batchTaken_replied {n : CoordinatorNode} {seen : Seen} {reply : Frame}
    (hpending : Pending e request) (htaken : n.frameTaken s = some request.sealed)
    (hreply : n.reply s seen = some reply) :
    e.ingested ++ n.batchTaken s = e.sent.map sentBatch := by
  cases hpending with
  | plain hplain hall _ =>
    have hnone : n.batchTaken s = [] := by
      unfold batchTaken
      rw [htaken]
      dsimp only
      rw [Frame.sealed_type]
      exact if_neg fun h => hplain h.1
    rw [hnone, List.append_nil, hall]
  | @evidence init batch htype hsent hall hread =>
    unfold CoordinatorNode.reply at hreply
    rw [htaken] at hreply
    dsimp only at hreply
    unfold replyTo at hreply
    rw [Frame.sealed_type, htype, Frame.sealed_payload] at hreply
    dsimp only at hreply
    split at hreply
    next => cases hreply
    next hregistered =>
      split at hreply
      next => cases hreply
      next received hdecoded =>
        have htook : n.batchTaken s = [received] := by
          unfold batchTaken
          rw [htaken]
          dsimp only
          rw [Frame.sealed_type, Frame.sealed_payload,
            if_pos ⟨htype, by simpa using hregistered⟩, hdecoded]
          rfl
        rw [htook, hread received hdecoded, hall, hsent, List.map_append]
        rfl

/-- The reply to what a publisher has asked is the one it waits for. -/
theorem awaited_of_asked {p : Publisher} {n : CoordinatorNode} {seen : Seen} {reply : Frame}
    (hasked : Asked p request) (htaken : n.frameTaken s = some request.sealed)
    (hreply : n.reply s seen = some reply) : reply.Sendable ∧ Awaited p reply := by
  unfold CoordinatorNode.reply at hreply
  rw [htaken] at hreply
  have hanswers := replyTo_answers hreply
  have htype := hanswers.type
  rw [Frame.sealed_type] at htype
  refine ⟨hanswers.sendable, ?_⟩
  unfold Asked at hasked
  unfold Awaited
  split at hasked
  next =>
    rw [hasked] at htype
    exact htype
  next =>
    rw [hasked] at htype
    exact htype
  next => exact hasked.elim

theorem speak_sendable {reply : Frame} (h : reply.Sendable) (fate : WriteFate) :
    speak (some reply) fate = (fate.sent reply.sealed.bytes, fate.delivered) := by
  have hencode : FrameCodec.encode reply = .ok reply.sealed.bytes :=
    Frame.encode_ok.mpr ⟨h, rfl⟩
  unfold speak
  dsimp only
  rw [hencode]

/-- Handing a batch over is handling what was asked first. -/
theorem refines_of_taken {taken : List EvidenceBatch}
    (htaken : taken = [] ∨ ∃ init batch, e.sent = init ++ [batch] ∧
      e.ingested = init.map sentBatch ∧ taken = [sentBatch batch])
    (hsent : e'.sent = e.sent) (hpublisher : e'.publisher = e.publisher)
    (hingested : e'.ingested = e.ingested ++ taken) : Refines e e' := by
  rcases htaken with rfl | ⟨init, batch, hinit, hall, rfl⟩
  · rw [List.append_nil] at hingested
    exact .same hsent hingested (by rw [hpublisher])
  · have hstep : Lockstep.Step e.asLockstep
        { e.asLockstep with handled := e.asLockstep.handled ++ [sentBatch batch] } := by
      refine @Lockstep.Step.handle _ e.asLockstep (sentBatch batch) [] ?_
      unfold asLockstep
      dsimp only
      rw [hinit, hall, List.map_append]
      rfl
    have hsame : e'.asLockstep =
        { e.asLockstep with handled := e.asLockstep.handled ++ [sentBatch batch] } := by
      unfold asLockstep
      rw [hsent, hingested, hpublisher]
    unfold Refines
    rw [hsame]
    exact .single hstep

/-- A session that takes no frame writes nothing and hands nothing over. -/
theorem sessionMoves_silent (hs : e.session = some s) (hwork : s.work ≠ .reading)
    (htaken : e.node.frameTaken s = none) (seen : Seen) (fate : WriteFate) :
    e.sessionMoves seen fate =
      { e with node := e.node.proceed e.connection s { delivered := true } } := by
  obtain ⟨hreply, hbatch⟩ := reply_none htaken seen
  unfold sessionMoves
  rw [hs]
  dsimp only
  rw [if_neg hwork, hreply, hbatch]
  unfold speak
  dsimp only
  rw [List.append_nil, List.append_nil]

theorem sound_waits (h : Sound e) (hs : e.session = some s) (hwork : s.work = .decoding)
    (htaken : e.node.frameTaken s = none) :
    Sound { e with node := e.node.proceed e.connection s { delivered := true } } := by
  obtain ⟨hbooks, s₁, hs₁, hsane, hmet, hturn⟩ := h
  obtain rfl := Option.some.inj (hs.symm.trans hs₁)
  rw [proceed_decoding hwork]
  have hstays : ¬s.Gone := by
    intro hgone
    rcases hgone with hgone | hgone
    · exact absurd (hwork.symm.trans hgone) (by simp)
    · exact absurd (hwork.symm.trans hgone) (by simp)
  have hdecode : ∀ {lost : Bytes} {carried : Option Frame}, Carries s.decoder e.up lost carried →
      ∃ s', (e.node.decodeNext e.connection s true).sessions[e.connection]? = some s' ∧
        Decoded e.node s {} true e.up lost carried s' :=
    fun hup => decode_carries hs hwork hsane hup {} true
  have hkept : ∀ {s' : Session}, s'.registered = s.registered →
      Met { e with node := e.node.decodeNext e.connection s true } s' :=
    fun hregistered => hmet.kept rfl rfl fun h => hregistered.symm.trans h
  refine ⟨hbooks, ?_⟩
  cases hturn with
  | quiet hstage hup hdown hall =>
    obtain ⟨s', hs', hdecoded⟩ := hdecode hup
    cases hdecoded with
    | waits _ hcarries _ hregistered hhealthy _ =>
      exact ⟨s', hs', fun _ => hhealthy, hkept hregistered, .quiet hstage hcarries hdown hall⟩
    | exceeds hcarried => cases hcarried
    | takes hcarried => cases hcarried
  | @asked request hasked hup hshort hdown hpending =>
    obtain ⟨s', hs', hdecoded⟩ := hdecode hup
    cases hdecoded with
    | waits _ hcarries hshort' hregistered hhealthy _ =>
      exact ⟨s', hs', fun _ => hhealthy, hkept hregistered,
        .asked hasked hcarries (fun _ => hshort' request rfl) hdown (hpending.congr rfl rfl rfl)⟩
    | exceeds _ _ hflight _ hcarries hregistered hgone =>
      refine ⟨s', hs', sane_of_gone hgone, hkept hregistered, .unanswered (awaiting_of_asked hasked) ?_ hdown hgone⟩
      dsimp only
      rw [hflight]
      exact hcarries
    | takes _ htook => simp [htaken] at htook
  | @answered reply lost hawaited hup hdown hshort hlost hall =>
    obtain ⟨s', hs', hdecoded⟩ := hdecode hup
    have hwhole : lost = [] := by
      rcases hlost with hlost | hlost | hlost
      · exact hlost
      · exact absurd (hsane (.inr hwork)) (by simp [hlost])
      · exact absurd hlost hstays
    cases hdecoded with
    | waits _ hcarries _ hregistered hhealthy _ =>
      exact ⟨s', hs', fun _ => hhealthy, hkept hregistered,
        .answered hawaited hcarries hdown hshort (.inl hwhole) hall⟩
    | exceeds hcarried => cases hcarried
    | takes hcarried => cases hcarried
  | unanswered hstage hup hdown hgone => exact absurd hgone hstays
  | spent hstage hup hpending hdown =>
    obtain ⟨s', hs', hdecoded⟩ := hdecode hup
    cases hdecoded with
    | waits _ hcarries _ hregistered hhealthy _ =>
      exact ⟨s', hs', fun _ => hhealthy, hkept hregistered, .spent hstage hcarries
        (fun request hcarried => (hpending request hcarried).congr rfl rfl rfl) hdown⟩
    | exceeds _ _ hflight _ hcarries hregistered hgone =>
      refine ⟨s', hs', sane_of_gone hgone, hkept hregistered,
        @Turn.spent _ _ [] none hstage ?_ (by simp) hdown⟩
      dsimp only
      rw [hflight]
      exact hcarries
    | takes _ htook => simp [htaken] at htook

theorem Met.taken (h : Met e s) (hscript : e'.publisher.script = e.publisher.script)
    (hpending : Pending e request) (htaken : e.node.frameTaken s = some request.sealed)
    (hregistered : s'.registered = true → s.registered = true ∨ request.type = .hello)
    (hingested : e'.ingested = e.ingested ++ e.node.batchTaken s) : Met e' s' := by
  intro hgreets
  rw [greets_of_script hscript] at hgreets
  obtain ⟨hnobody, hnothing⟩ := h hgreets
  constructor
  · by_contra hsome
    rcases hregistered (by simpa using hsome) with hregistered | hhello
    · exact absurd hregistered (by simp [hnobody])
    · cases hpending with
      | plain _ _ hmet => exact absurd (hmet hhello) (by simp [hgreets])
      | evidence htype => simp [hhello] at htype
  · have hnone : e.node.batchTaken s = [] := by
      unfold batchTaken
      rw [htaken]
      exact if_neg (by simp [hnobody])
    rw [hingested, hnothing, hnone]
    rfl

theorem sound_takes {frame : Frame} (h : Sound e) (hs : e.session = some s)
    (hwork : s.work = .decoding) (htaken : e.node.frameTaken s = some frame) (seen : Seen)
    (fate : WriteFate) :
    Sound (e.sessionMoves seen fate) ∧ Refines e (e.sessionMoves seen fate) := by
  obtain ⟨hbooks, s₁, hs₁, hsane, hmet, hturn⟩ := h
  obtain rfl := Option.some.inj (hs.symm.trans hs₁)
  have hnot : ¬s.work = .reading := by simp [hwork]
  unfold sessionMoves
  rw [hs]
  dsimp only
  rw [if_neg hnot, proceed_decoding hwork]
  generalize hspoken : speak (e.node.reply s seen) fate = spoken
  obtain ⟨bytes, delivered⟩ := spoken
  have hdecode : ∀ {lost : Bytes} {carried : Option Frame}, Carries s.decoder e.up lost carried →
      ∃ s' request, (e.node.decodeNext e.connection s delivered).sessions[e.connection]? = some s' ∧
        carried = some request ∧ e.node.frameTaken s = some request.sealed ∧ e.up = [] ∧
        Took e.node s seen delivered request s' := by
    intro lost carried hup
    obtain ⟨s', hs', hdecoded⟩ := decode_carries hs hwork hsane hup seen delivered
    cases hdecoded with
    | waits hnone => simp [hnone] at htaken
    | exceeds _ hnone => simp [hnone] at htaken
    | @takes request hcarried htook hflight _ hthen =>
      exact ⟨s', request, hs', hcarried, htook, hflight, hthen⟩
  cases hturn with
  | quiet hstage hup hdown hall =>
    obtain ⟨_, _, _, hcarried, _⟩ := hdecode hup
    cases hcarried
  | @asked request hasked hup hshort hdown hpending =>
    obtain ⟨s', taken, hs', hcarried, htook, hflight, hthen⟩ := hdecode hup
    obtain rfl := Option.some.inj hcarried
    refine ⟨⟨hbooks, s', hs', hthen.sane,
      hmet.taken rfl hpending htook hthen.registered rfl, ?_⟩,
      refines_of_taken (batchTaken_pending hpending htook) rfl rfl rfl⟩
    rw [hflight]
    cases hreply : e.node.reply s seen with
    | none =>
      rw [hreply] at hspoken
      obtain ⟨rfl, rfl⟩ := Prod.mk.inj hspoken
      have hgone : s'.Gone := by
        rcases hthen.answered with hgone | ⟨reply, hsome⟩
        · exact hgone
        · simp [hreply] at hsome
      rw [List.append_nil]
      exact .unanswered (awaiting_of_asked hasked) hthen.carries hdown hgone
    | some reply =>
      obtain ⟨hsend, hawaited⟩ := awaited_of_asked hasked htook hreply
      rw [hreply, speak_sendable hsend] at hspoken
      obtain ⟨rfl, rfl⟩ := Prod.mk.inj hspoken
      refine .answered hawaited hthen.carries
        (hdown.write hsend (fate.sent_unsent reply.sealed.bytes)) (hdown.nothing_short reply) ?_
        (batchTaken_replied hpending htook hreply)
      cases fate with
      | whole => exact .inl rfl
      | cut size => exact .inr hthen.delivered.symm
  | answered hawaited hup hdown hshort hlost hall =>
    obtain ⟨_, _, _, hcarried, _⟩ := hdecode hup
    cases hcarried
  | unanswered hstage hup hdown hgone =>
    obtain ⟨_, _, _, hcarried, _⟩ := hdecode hup
    cases hcarried
  | spent hstage hup hpending hdown =>
    obtain ⟨s', request, hs', hcarried, htook, hflight, hthen⟩ := hdecode hup
    have hlast := hpending request hcarried
    refine ⟨⟨hbooks, s', hs', hthen.sane,
      hmet.taken rfl hlast htook hthen.registered rfl, ?_⟩,
      refines_of_taken (batchTaken_pending hlast htook) rfl rfl rfl⟩
    rw [hflight]
    exact @Turn.spent _ _ [] none hstage hthen.carries (by simp) hdown

theorem sound_session_moves (h : Sound e) (seen : Seen) (fate : WriteFate) :
    Sound (e.sessionMoves seen fate) ∧ Refines e (e.sessionMoves seen fate) := by
  have hsound := h
  obtain ⟨hbooks, s, hs, hsane, hmet, hturn⟩ := h
  by_cases hreading : s.work = .reading
  · have hsame : e.sessionMoves seen fate = e := by
      unfold sessionMoves
      rw [hs]
      exact if_pos hreading
    rw [hsame]
    exact ⟨hsound, .same rfl rfl rfl⟩
  by_cases hwork : s.work = .decoding
  · cases htaken : e.node.frameTaken s with
    | none =>
      rw [sessionMoves_silent hs hreading htaken]
      exact ⟨sound_waits hsound hs hwork htaken, .same rfl rfl rfl⟩
    | some frame => exact sound_takes hsound hs hwork htaken seen fate
  · rw [sessionMoves_silent hs hreading (frameTaken_none hwork)]
    obtain ⟨s', hs', hfollows⟩ := proceed_follows hs hreading hwork { delivered := true }
    refine ⟨⟨hbooks, s', hs', hfollows.sane, hmet.kept rfl rfl hfollows.registered, ?_⟩,
      .same rfl rfl rfl⟩
    refine hturn.forward rfl rfl rfl rfl ?_ hfollows.reading hfollows.healthy hfollows.gone
    intro lost carried hcarries
    rw [hfollows.decoder]
    exact hcarries

end CongestionFabric.Exchange
