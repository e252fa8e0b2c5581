import CongestionFabric.Runtime.Coordinator

namespace CongestionFabric

/-- The locals that name an incarnation are the same. -/
structure Session.SameIdentity (s s' : Session) : Prop where
  publisher : s'.publisher = s.publisher
  boot : s'.boot = s.boot
  registered : s'.registered = s.registered

@[simp] theorem Session.leave_identity (s : Session) : s.SameIdentity s.leave := ⟨rfl, rfl, rfl⟩

@[simp] theorem Session.goOn_identity (s : Session) : s.SameIdentity s.goOn := ⟨rfl, rfl, rfl⟩

/-- The connection loop has not been left. -/
def Session.InLoop (s : Session) : Prop := s.work ≠ .leaving ∧ s.work ≠ .ended

namespace CoordinatorNode

open Fabric

variable {n n' : CoordinatorNode} {c : Nat} {s : Session}

/-- The frame a session handles next. -/
def frameTaken (n : CoordinatorNode) (s : Session) : Option Frame :=
  match s.work, s.decoder.next with
  | .decoding, (_, .ok (some frame)) =>
    if s.frames + 1 > n.maxFramesPerConnection then none else some frame
  | _, _ => none

/-- The Hello a session handles next. -/
def helloTaken (n : CoordinatorNode) (s : Session) : Option HelloMessage :=
  match n.frameTaken s with
  | none => none
  | some frame => if frame.type = .hello then (decodeHello frame.payload).toOption else none

/-- The samples a session ingests next. -/
def samplesTaken (n : CoordinatorNode) (s : Session) : List EvidenceSample :=
  match n.frameTaken s with
  | none => []
  | some frame =>
    if frame.type = .evidence ∧ s.registered = true then
      ((decodeEvidence frame.payload).toOption.map (·.samples)).getD []
    else []

/-- The calls that a session makes without changing who it is. -/
def Plain : Action → Prop
  | .heartbeat .. | .evaluate .. | .planLast .. | .ingest .. => True
  | _ => False

/-- Everything a session can do in its loop, as far as its identity and the fabric are concerned. -/
inductive Move (n : CoordinatorNode) (c : Nat) (s : Session) : CoordinatorNode → Prop where
  | kept {s' : Session} (h : s.SameIdentity s') : Move n c s (n.put c s')
  | called {s' : Session} {a : Action} (h : s.SameIdentity s') (ha : Plain a)
      (hregistered : ∀ batch, a = .ingest batch →
        s.registered = true ∧ n.samplesTaken s = batch.samples) :
      Move n c s ((n.call a).put c s')
  | refused {s' : Session} {hello : HelloMessage} (hhello : n.helloTaken s = some hello)
      (hpublisher : s'.publisher = hello.publisher) (hboot : s'.boot = hello.boot)
      (hsame : s'.registered = s.registered)
      (hrefused : n.fabric.admitPublisher hello.publisher hello.boot ≠ .ok ()) :
      Move n c s ((n.call (.registerPublisher hello.publisher hello.boot hello.requested)).put c s')
  | greeted {s' : Session} {hello : HelloMessage} {registration : PublisherRegistration}
      (hhello : n.helloTaken s = some hello)
      (hpublisher : s'.publisher = hello.publisher) (hboot : s'.boot = hello.boot)
      (hregistered : s'.registered = true)
      (hok : (n.fabric.registerPublisher hello.publisher hello.boot hello.requested).2 =
        .ok registration) :
      Move n c s (((n.call (.registerPublisher hello.publisher hello.boot
        hello.requested)).noteRegistrant (some c) hello.publisher hello.boot).put c s')
  | farewell {s' : Session} (hregistered : s'.registered = false) (hwork : s'.work = .leaving)
      {called : CoordinatorNode}
      (hcalled : called = n ∨ s.registered = true ∧
        called = n.call (.unregisterPublisher s.publisher s.boot .none [])) :
      Move n c s ({ called with farewells := c :: called.farewells }.put c s')

theorem proceed_leaving (n : CoordinatorNode) (c : Nat) {s : Session} (h : s.work = .leaving)
    (answer : ChannelAnswer) : n.proceed c s answer = n.leave c s := by
  unfold proceed
  rw [h]

theorem proceed_ended (n : CoordinatorNode) (c : Nat) {s : Session} (h : s.work = .ended)
    (answer : ChannelAnswer) : n.proceed c s answer = n := by
  unfold proceed
  rw [h]

theorem registerPublisher_admitted {f : Fabric} {publisher : PublisherId} {boot : BootId}
    (requested : AuthoritySet) (h : f.admitPublisher publisher boot = .ok ()) :
    ∃ registration, (f.registerPublisher publisher boot requested).2 = .ok registration := by
  unfold registerPublisher checked
  rw [h]
  exact ⟨_, rfl⟩

theorem decodeHello_toOption {payload : Bytes} {hello : HelloMessage}
    (h : decodeHello payload = .ok hello) : (decodeHello payload).toOption = some hello := by
  rw [h]
  rfl

/-- What handling a frame does to a session that took it. -/
theorem handle_move {frame : Frame} {s₁ : Session} (delivered : Bool)
    (htaken : n.frameTaken s = some frame) (hs₁ : s.SameIdentity s₁) :
    Move n c s (n.handle c s₁ frame delivered) := by
  have hid : ∀ s' : Session, s₁.SameIdentity s' → s.SameIdentity s' := fun s' h =>
    ⟨h.publisher.trans hs₁.publisher, h.boot.trans hs₁.boot, h.registered.trans hs₁.registered⟩
  unfold handle
  split
  next htype =>
    have hhello : ∀ hello, decodeHello frame.payload = .ok hello → n.helloTaken s = some hello := by
      intro hello hdecoded
      unfold helloTaken
      rw [htaken]
      dsimp only
      rw [if_pos htype, decodeHello_toOption hdecoded]
    unfold handleHello
    split
    next => exact .kept (hid _ s₁.leave_identity)
    next hello hdecoded =>
      dsimp only
      split
      next registration hok => exact .greeted (hhello hello hdecoded) rfl rfl rfl hok
      next status herror =>
        refine .refused (hhello hello hdecoded) rfl rfl hs₁.registered fun hadmitted => ?_
        obtain ⟨registration, hok⟩ := registerPublisher_admitted hello.requested hadmitted
        rw [hok] at herror
        cases herror
  next htype =>
    unfold handleEvidence
    split
    next => exact .kept (hid _ s₁.leave_identity)
    next hregistered =>
      have hregistered : s₁.registered = true := by simpa using hregistered
      have hregistered' : s.registered = true := hs₁.registered.symm.trans hregistered
      split
      next => exact .kept (hid _ s₁.leave_identity)
      next batch hdecoded =>
        have hsamples : n.samplesTaken s = batch.samples := by
          unfold samplesTaken
          rw [htaken]
          dsimp only
          rw [if_pos ⟨htype, hregistered'⟩, hdecoded]
          rfl
        have hingest : ∀ batch', Action.ingest batch = .ingest batch' →
            s.registered = true ∧ n.samplesTaken s = batch'.samples := by
          intro batch' heq
          injection heq with heq
          exact ⟨hregistered', heq ▸ hsamples⟩
        dsimp only
        split
        next => exact .called (hid _ ⟨rfl, rfl, rfl⟩) trivial hingest
        next => exact .called (hid _ ⟨rfl, rfl, rfl⟩) trivial hingest
  next =>
    unfold handleHeartbeat
    dsimp only
    split
    next => exact .called (hid _ ⟨rfl, rfl, rfl⟩) trivial nofun
    next => exact .kept (hid _ ⟨rfl, rfl, rfl⟩)
  next =>
    unfold handleGoodbye
    dsimp only
    split
    next hregistered =>
      refine .farewell rfl rfl (.inr ⟨hs₁.registered.symm.trans hregistered, ?_⟩)
      rw [hs₁.publisher, hs₁.boot]
    next => exact .farewell rfl rfl (.inl rfl)
  next => exact .kept (hid _ ⟨rfl, rfl, rfl⟩)

theorem proceed_move (n : CoordinatorNode) (c : Nat) {s : Session} (hloop : s.InLoop)
    (answer : ChannelAnswer) : Move n c s (n.proceed c s answer) := by
  unfold proceed
  split
  next =>
    unfold read
    split
    next => exact .kept ⟨rfl, rfl, rfl⟩
    next =>
      split
      next => exact .kept ⟨rfl, rfl, rfl⟩
      next => exact .kept ⟨rfl, rfl, rfl⟩
      next =>
        split
        next => exact .kept ⟨rfl, rfl, rfl⟩
        next => exact .kept ⟨rfl, rfl, rfl⟩
  next hwork =>
    unfold decodeNext
    split
    next => exact .kept ⟨rfl, rfl, rfl⟩
    next => exact .kept ⟨rfl, rfl, rfl⟩
    next decoder frame hnext =>
      unfold takeFrame
      dsimp only
      split
      next => exact .kept ⟨rfl, rfl, rfl⟩
      next hbudget =>
        refine handle_move answer.delivered ?_ ⟨rfl, rfl, rfl⟩
        unfold frameTaken
        rw [hwork, hnext]
        exact if_neg hbudget
  next => exact .kept ⟨rfl, rfl, rfl⟩
  next => exact .kept s.goOn_identity
  next =>
    unfold evaluateNext
    dsimp only
    split
    next => exact .called ⟨rfl, rfl, rfl⟩ trivial nofun
    next => exact .called ⟨rfl, rfl, rfl⟩ trivial nofun
  next => exact .called ⟨rfl, rfl, rfl⟩ trivial nofun
  next hwork => exact absurd hwork hloop.1
  next hwork => exact absurd hwork hloop.2

end CoordinatorNode

end CongestionFabric
