import CongestionFabric.Runtime.ExchangeTurn

namespace CongestionFabric.Exchange

open CoordinatorNode FrameDecoder

variable {e₀ e e' : Exchange} {es : List (Event Exchange Move)} {m : Move} {s : Session}
  {options : PublisherClientOptions} {script : PublisherScript}

/-! ### Runs -/

theorem Sound.step (h : Sound e) (hstep : Step e m e') : Sound e' ∧ Refines e e' := by
  obtain ⟨hallowed, rfl⟩ := hstep
  cases m with
  | publisherWrites clock fate failure => exact sound_writes h clock fate failure
  | publisherReads clock fate => exact sound_reads h clock fate
  | sessionReads fate => exact sound_session_reads h fate
  | sessionMoves seen fate => exact sound_session_moves h seen fate
  | elsewhere i => exact sound_elsewhere h hallowed.2

theorem start_ok {p : Publisher} (h : Publisher.start options script = .ok p) :
    p.script = script ∧ p.decoder = {} ∧ p.awaiting = false ∧ p.report.framesAcked = 0 ∧
      Publisher.Books p 0 := by
  simp only [Publisher.start, bind_ok, refuseIf_ok, exists_const] at h
  obtain ⟨_, _, _, _, hp⟩ := h
  obtain rfl := Except.ok.inj hp
  split
  next hgreets => exact ⟨rfl, rfl, rfl, rfl, rfl, ⟨rfl, rfl, rfl⟩, hgreets⟩
  next =>
    have honly := Publisher.proceedTo_onlyStage
      ({ options, script, report := { connected := true } } : Publisher) 0
    refine ⟨honly.script, honly.decoder, honly.awaiting, ?_, ?_⟩
    · rw [honly.report]
    · exact Publisher.proceedTo_books ⟨rfl, rfl, rfl⟩ (Nat.zero_le _)

theorem Starts.sound (h : Starts e options script) : Sound e := by
  obtain ⟨_, hdecoder, hawaiting, _, hbooks⟩ := start_ok h.publisher
  have hup : Carries ({} : Session).decoder e.up [] none := .nothing holds_new h.up
  have hdown : Carries e.publisher.decoder e.down [] none := by
    rw [hdecoder]
    exact .nothing holds_new h.down
  refine ⟨?_, {}, h.session, fun _ => rfl, fun _ => ⟨rfl, h.ingested⟩, ?_⟩
  · rw [h.sent]
    exact hbooks
  · rcases e.publisher.stage_cases with hstage | hstage | hstage
    · refine .quiet hstage hup hdown ?_
      rw [h.ingested, h.sent]
      rfl
    · exact absurd hawaiting (by simp [hstage])
    · exact .spent hstage hup (by simp) hdown.healthy

theorem Starts.inStep (h : Starts e options script) : Lockstep.InStep e.asLockstep := by
  obtain ⟨_, _, _, hacked, _⟩ := start_ok h.publisher
  have hstart : e.asLockstep = {} := by
    unfold asLockstep
    rw [h.sent, h.ingested, hacked]
    rfl
  rw [hstart]
  exact .start

/-- A run of the exchange is one of asking and answering, and every state of it is sound. -/
theorem run_sound (run : Run Step e₀ es e) (hstart : Starts e₀ options script) :
    Sound e ∧ Relation.ReflTransGen Lockstep.Step e₀.asLockstep e.asLockstep := by
  induction run with
  | start => exact ⟨hstart.sound, .refl⟩
  | next _ hstep ih =>
    obtain ⟨hsound, hrefines⟩ := ih.1.step hstep
    exact ⟨hsound, ih.2.trans hrefines.to_reflTransGen⟩

theorem run_inStep (run : Run Step e₀ es e) (hstart : Starts e₀ options script) :
    Lockstep.InStep e.asLockstep := hstart.inStep.run (run_sound run hstart).2

/-! ### What reaches the fabric -/

/-- A step that hands no batch to the fabric. -/
def NoIngest (n n' : CoordinatorNode) : Prop :=
  n'.world = n.world ∨ ∃ a, (∀ batch, a ≠ .ingest batch) ∧ n'.world = n.world.act a

theorem noIngest_call {n : CoordinatorNode} {a : Fabric.Action} (c : Nat) (s : Session)
    (h : ∀ batch, a ≠ .ingest batch) : NoIngest n ((n.call a).put c s) := .inr ⟨a, h, rfl⟩

theorem proceed_noIngest {n : CoordinatorNode} {c : Nat} (htaken : n.frameTaken s = none)
    (answer : ChannelAnswer) : NoIngest n (n.proceed c s answer) := by
  unfold proceed
  split
  next =>
    unfold CoordinatorNode.read
    split
    next => exact .inl rfl
    next =>
      split
      next => exact .inl rfl
      next => exact .inl rfl
      next =>
        split
        next => exact .inl rfl
        next => exact .inl rfl
  next hwork =>
    unfold decodeNext
    split
    next => exact .inl rfl
    next => exact .inl rfl
    next decoder frame hnext =>
      unfold frameTaken at htaken
      rw [hwork, hnext] at htaken
      dsimp only at htaken
      split_ifs at htaken with hbudget
      unfold takeFrame
      rw [if_pos hbudget]
      exact .inl rfl
  next => exact .inl rfl
  next => exact .inl rfl
  next => exact noIngest_call c _ (by simp)
  next => exact noIngest_call c _ (by simp)
  next =>
    unfold leave
    dsimp only
    split
    · exact noIngest_call c _ (by simp)
    · exact .inl rfl
  next => exact .inl rfl

/-- The batch that is taken, and no other, is ingested. -/
theorem handle_ingests {n : CoordinatorNode} {c : Nat} {s₁ : Session} {frame : Frame}
    (htaken : n.frameTaken s = some frame) (hregistered : s₁.registered = s.registered)
    (delivered : Bool) :
    (∃ batch, n.batchTaken s = [batch] ∧
      (n.handle c s₁ frame delivered).world = n.world.act (.ingest batch)) ∨
    n.batchTaken s = [] ∧ NoIngest n (n.handle c s₁ frame delivered) := by
  have hbatch : n.batchTaken s = if frame.type = .evidence ∧ s.registered = true then
      (decodeEvidence frame.payload).toOption.toList else [] := by
    unfold batchTaken
    rw [htaken]
  have hnone : frame.type ≠ .evidence → n.batchTaken s = [] := fun htype =>
    hbatch.trans (if_neg fun h => htype h.1)
  unfold handle
  split
  next htype =>
    refine .inr ⟨hnone (by simp [htype]), ?_⟩
    unfold handleHello
    split
    next => exact .inl rfl
    next hello _ =>
      dsimp only
      split
      next =>
        refine .inr ⟨.registerPublisher hello.publisher hello.boot hello.requested, ?_, rfl⟩
        simp
      next => exact noIngest_call c _ (by simp)
  next htype =>
    unfold handleEvidence
    split
    next hnobody =>
      have hunregistered : ¬s.registered = true := by
        rw [← hregistered]
        simpa using hnobody
      exact .inr ⟨hbatch.trans (if_neg fun h => hunregistered h.2), .inl rfl⟩
    next hsomebody =>
      have hyes : frame.type = .evidence ∧ s.registered = true := by
        refine ⟨htype, ?_⟩
        rw [← hregistered]
        simpa using hsomebody
      rw [if_pos hyes] at hbatch
      cases hdecoded : decodeEvidence frame.payload with
      | error status =>
        rw [hdecoded] at hbatch
        exact .inr ⟨hbatch, .inl rfl⟩
      | ok batch =>
        rw [hdecoded] at hbatch
        refine .inl ⟨batch, hbatch, ?_⟩
        dsimp only
        split
        next => rfl
        next => rfl
  next htype =>
    refine .inr ⟨hnone (by simp [htype]), ?_⟩
    unfold handleHeartbeat
    dsimp only
    split
    · exact noIngest_call c _ (by simp)
    · exact .inl rfl
  next htype =>
    refine .inr ⟨hnone (by simp [htype]), ?_⟩
    unfold handleGoodbye
    dsimp only
    split
    · refine .inr ⟨.unregisterPublisher s₁.publisher s₁.boot .none [], ?_, rfl⟩
      simp
    · exact .inl rfl
  next hhello hevidence hheartbeat hgoodbye =>
    exact .inr ⟨hnone hevidence, .inl rfl⟩

theorem proceed_ingests (n : CoordinatorNode) (c : Nat) (s : Session) (answer : ChannelAnswer) :
    (∃ batch, n.batchTaken s = [batch] ∧
      (n.proceed c s answer).world = n.world.act (.ingest batch)) ∨
    n.batchTaken s = [] ∧ NoIngest n (n.proceed c s answer) := by
  cases htaken : n.frameTaken s with
  | none => exact .inr ⟨(reply_none htaken {}).2, proceed_noIngest htaken answer⟩
  | some frame =>
    obtain ⟨decoder, hwork, hnext, hbudget⟩ := frameTaken_some htaken
    rw [proceed_taken hwork hnext hbudget answer]
    refine handle_ingests htaken ?_ answer.delivered
    rfl

/-- What an event of the exchange does to the record of what was ingested: a batch is added to it
when the connection hands it to the fabric, and the connection hands over nothing else. -/
def Recorded (ev : Event Exchange Move) : Prop :=
  (∃ batch, ev.after.ingested = ev.before.ingested ++ [batch] ∧
    ev.after.node.world = ev.before.node.world.act (.ingest batch)) ∨
  ev.after.ingested = ev.before.ingested ∧
    ((∃ i, ev.input = .elsewhere i) ∨ NoIngest ev.before.node ev.after.node)

theorem step_recorded (hstep : Step e m e') : Recorded ⟨e, m, e'⟩ := by
  obtain ⟨_, rfl⟩ := hstep
  cases m with
  | publisherWrites clock fate failure =>
    refine .inr ⟨?_, .inr (.inl ?_)⟩
    all_goals
      unfold apply publisherWrites
      dsimp only
      split
      · rfl
      · split <;> rfl
  | publisherReads clock fate =>
    refine .inr ⟨?_, .inr (.inl ?_)⟩
    all_goals
      unfold apply publisherReads
      dsimp only
      split <;> rfl
  | elsewhere i => exact .inr ⟨rfl, .inl ⟨i, rfl⟩⟩
  | sessionReads fate =>
    have hnone : ∀ {s : Session}, s.work = .reading → e.node.frameTaken s = none := fun hwork =>
      frameTaken_none (by simp [hwork])
    unfold apply sessionReads Recorded
    dsimp only
    split
    next => exact .inr ⟨rfl, .inr (.inl rfl)⟩
    next s hs =>
      split_ifs with hwork hstopping
      · exact .inr ⟨rfl, .inr (.inl rfl)⟩
      · exact .inr ⟨rfl, .inr (proceed_noIngest (hnone (not_not.mp hwork)) _)⟩
      · exact .inr ⟨rfl, .inr (proceed_noIngest (hnone (not_not.mp hwork)) _)⟩
  | sessionMoves seen fate =>
    unfold apply sessionMoves Recorded
    dsimp only
    split
    next => exact .inr ⟨rfl, .inr (.inl rfl)⟩
    next s hs =>
      split
      next => exact .inr ⟨rfl, .inr (.inl rfl)⟩
      next =>
        rcases proceed_ingests e.node e.connection s
          { delivered := (speak (e.node.reply s seen) fate).2 } with
          ⟨batch, htook, hworld⟩ | ⟨htook, hnone⟩
        · exact .inl ⟨batch, congrArg (e.ingested ++ ·) htook, hworld⟩
        · refine .inr ⟨?_, .inr hnone⟩
          dsimp only
          rw [htook, List.append_nil]

theorem run_recorded (run : Run Step e₀ es e) : ∀ ev ∈ es, Recorded ev :=
  fun _ hev => step_recorded (run.mem_step hev)

/-- However the bytes are cut, whatever fails and whatever else happens to the node: the batches a
connection hands to the fabric are those its publisher wrote, in their order and each once, what has
been acknowledged has been handed over, and one batch at most is not acknowledged yet. -/
theorem exchange_exactly_once (hstart : Starts e₀ options script) (run : Run Step e₀ es e) :
    e.ingested <+: e.sent.map sentBatch ∧
      e.publisher.report.framesAcked.toNat ≤ e.ingested.length ∧
      e.sent.length ≤ e.publisher.report.framesAcked.toNat + 1 ∧ ∀ ev ∈ es, Recorded ev := by
  have hinStep := run_inStep run hstart
  have hasked := hinStep.asked
  unfold asLockstep at hasked
  dsimp only at hasked
  rw [List.length_map] at hasked
  exact ⟨hinStep.handled, hinStep.answered, hasked, run_recorded run⟩

theorem run_complete {report : PublisherReport} (hstart : Starts e₀ options script)
    (run : Run Step e₀ es e) (hdone : e.publisher.stage = .done (.ok report))
    (hclean : report.errors = 0) :
    e.ingested = e.sent.map sentBatch ∧ e.sent.length = e.publisher.total ∧
      report.framesAcked.toNat = e.publisher.total := by
  obtain ⟨hsound, _⟩ := run_sound run hstart
  have hbooks := hsound.books
  unfold Publisher.Books at hbooks
  rw [hdone] at hbooks
  obtain ⟨hsent, hacked⟩ := hbooks.complete hclean
  have hcount : report.framesAcked.toNat = e.publisher.total := by
    rw [hacked, UInt64.toNat_ofNat']
    exact Nat.mod_eq_of_lt e.publisher.total_lt
  refine ⟨(run_inStep run hstart).settled ?_, hsent, hcount⟩
  unfold asLockstep
  dsimp only
  rw [← hbooks.same, List.length_map, hsent, hcount]

/-- A pass that ends with a report and no error has had every batch handed over and acknowledged;
with an error its greeting was refused, and nothing was sent. A fence never ends it. -/
theorem exchange_reported {report : PublisherReport} (hstart : Starts e₀ options script)
    (run : Run Step e₀ es e) (hdone : e.publisher.stage = .done (.ok report)) :
    report.fencesReceived = 0 ∧
      (report.errors = 0 → e.ingested = e.sent.map sentBatch ∧
        e.sent.length = e.publisher.total ∧ report.framesAcked.toNat = e.publisher.total) ∧
      (report.errors ≠ 0 → report.helloAccepted = false ∧ e.sent = [] ∧ e.ingested = []) := by
  obtain ⟨hsound, _⟩ := run_sound run hstart
  have hinStep := run_inStep run hstart
  have hbooks := hsound.books
  unfold Publisher.Books at hbooks
  rw [hdone] at hbooks
  refine ⟨hbooks.fences, fun hclean => run_complete hstart run hdone hclean, ?_⟩
  · intro herrors
    obtain ⟨hsent, _, hrefused⟩ := hbooks.refused herrors
    have hnone : e.sent = [] := List.length_eq_zero_iff.mp hsent
    have hprefix := hinStep.handled
    unfold asLockstep at hprefix
    dsimp only at hprefix
    rw [hnone] at hprefix
    exact ⟨hrefused, hnone, List.prefix_nil.mp hprefix⟩

/-- While a publisher waits there is something to move: a reply in flight, a request in flight, or a
connection that is not waiting itself. -/
theorem exchange_never_stuck (hstart : Starts e₀ options script) (run : Run Step e₀ es e)
    (hwaiting : e.publisher.awaiting = true) :
    ∃ s, e.session = some s ∧ (e.down ≠ [] ∨ e.up ≠ [] ∨ s.work ≠ .reading) := by
  obtain ⟨⟨_, s, hs, hsane, _, hturn⟩, _⟩ := run_sound run hstart
  refine ⟨s, hs, ?_⟩
  by_contra hstuck
  simp only [not_or, not_not] at hstuck
  obtain ⟨hdownEmpty, hupEmpty, hreading⟩ := hstuck
  have hhealthy := hsane (.inl hreading)
  have hstays : ¬s.Gone := by
    intro hgone
    rcases hgone with hgone | hgone
    · exact absurd (hreading.symm.trans hgone) (by simp)
    · exact absurd (hreading.symm.trans hgone) (by simp)
  cases hturn with
  | quiet hstage => exact absurd (Publisher.awaiting_not_writing hwaiting) (by simp [hstage])
  | asked _ hup hshort _ _ =>
    rw [hupEmpty] at hup
    exact hup.arrived (hshort hreading)
  | answered _ _ hdown hshort hlost _ =>
    rcases hlost with rfl | hlost | hlost
    · rw [hdownEmpty] at hdown
      exact hdown.arrived hshort
    · exact absurd hhealthy (by simp [hlost])
    · exact hstays hlost
  | unanswered _ _ _ hgone => exact hstays hgone
  | spent hstage => exact absurd (Publisher.awaiting_running hwaiting) (by simp [hstage])

/-- Neither side ever loses its place in the stream of the other. -/
theorem exchange_in_sync (hstart : Starts e₀ options script) (run : Run Step e₀ es e) :
    e.publisher.decoder.failed = false ∧
      ∃ s, e.session = some s ∧ s.decoder.failed = false := by
  obtain ⟨⟨_, s, hs, _, _, hturn⟩, _⟩ := run_sound run hstart
  cases hturn with
  | quiet _ hup hdown => exact ⟨hdown.healthy, s, hs, hup.healthy⟩
  | asked _ hup _ hdown => exact ⟨hdown.healthy, s, hs, hup.healthy⟩
  | answered _ hup hdown => exact ⟨hdown.healthy, s, hs, hup.healthy⟩
  | unanswered _ hup hdown => exact ⟨hdown.healthy, s, hs, hup.healthy⟩
  | spent _ hup _ hdown => exact ⟨hdown, s, hs, hup.healthy⟩

theorem step_script (hstep : Step e m e') : e'.publisher.script = e.publisher.script := by
  obtain ⟨_, rfl⟩ := hstep
  cases m with
  | publisherWrites clock fate failure =>
    unfold apply publisherWrites
    dsimp only
    split
    · rfl
    · split
      · exact Publisher.write_script _ _ _
      · exact Publisher.write_script _ _ _
  | publisherReads clock fate =>
    unfold apply publisherReads
    dsimp only
    split
    · rfl
    · exact Publisher.receive_script _ _ _
  | elsewhere i => rfl
  | sessionReads fate =>
    unfold apply sessionReads
    dsimp only
    split
    next => rfl
    next => split_ifs <;> rfl
  | sessionMoves seen fate =>
    unfold apply sessionMoves
    dsimp only
    split
    next => rfl
    next => split <;> rfl

theorem run_script (hstart : Starts e₀ options script) (run : Run Step e₀ es e) :
    e.publisher.script = script := by
  induction run with
  | start => exact (start_ok hstart.publisher).1
  | next _ hstep ih => exact (step_script hstep).trans ih

/-- Nothing of a publisher that skips the greeting is ever handed to the fabric, and a pass that had
anything to send does not end well. -/
theorem exchange_ungreeted (hstart : Starts e₀ options script) (run : Run Step e₀ es e)
    (hskips : script.sendHello = false ∨ script.skipHandshake = true) :
    e.ingested = [] ∧
      ∀ report, e.publisher.stage = .done (.ok report) → report.errors = 0 →
        script.samples * script.repeats = 0 := by
  obtain ⟨⟨_, s, _, _, hmet, _⟩, _⟩ := run_sound run hstart
  have hscript := run_script hstart run
  have hgreets : e.publisher.greets = false := by
    unfold Publisher.greets
    rw [hscript]
    rcases hskips with h | h
    · simp [h]
    · simp [h]
  have hnothing := (hmet hgreets).2
  refine ⟨hnothing, ?_⟩
  intro report hdone hclean
  obtain ⟨hall, hsent, _⟩ := run_complete hstart run hdone hclean
  have hlength := congrArg List.length hall
  rw [hnothing, List.length_map, hsent, List.length_nil] at hlength
  unfold Publisher.total at hlength
  rw [hscript] at hlength
  exact UInt64.toNat_inj.mp (by simpa using hlength.symm)

/-! ### One pass -/

def oneSample : PublisherScript where
  domain := ⟨1⟩
  resources := [⟨3⟩]
  latencyMicros := 9

def client : PublisherClientOptions where
  endpoint := [110]
  publisher := ⟨7⟩
  boot := ⟨9⟩

/-- A new connection, and the publisher at its other end. -/
def connected (script : PublisherScript) : Exchange where
  node := { starting World.memoryFabric 100 with sessions := [{}] }
  connection := 0
  publisher := ((Publisher.start client script).toOption).getD { options := client, script }

/-- A request that is written, read, handled and answered, all in one piece. -/
def roundTrip : List Move :=
  [.publisherWrites 5 .whole {}, .sessionReads (.bytes 4096), .sessionMoves { tick := 7 } .whole,
   .publisherReads 6 (.bytes 4096)]

/-- What is left of handling a batch nothing is evaluated for. -/
def settling : List Move :=
  [.sessionMoves {} .whole, .sessionMoves {} .whole, .sessionMoves {} .whole]

def onePass : List Move :=
  roundTrip ++ [.sessionMoves {} .whole] ++ roundTrip ++ settling ++ [.publisherWrites 8 .whole {}]

/-- A move of the publisher or of its connection. -/
def Move.own : Move → Bool
  | .elsewhere _ => false
  | _ => true

theorem run_moves (e : Exchange) {ms : List Move} (h : ∀ m ∈ ms, m.own = true) :
    Run Step e (events apply e ms) (ms.foldl apply e) := by
  induction ms generalizing e with
  | nil => exact .start
  | cons m ms ih =>
    have hallowed : e.Allows m := by
      have hown := h m List.mem_cons_self
      cases m with
      | elsewhere i => cases hown
      | _ => trivial
    have hfirst : Step e m (e.apply m) := ⟨hallowed, rfl⟩
    have hrest := ih (e.apply m) fun m hm => h m (List.mem_cons_of_mem _ hm)
    exact (Run.start.next hfirst).append hrest

theorem connected_starts {script : PublisherScript} {p : Publisher}
    (h : Publisher.start client script = .ok p) : Starts (connected script) client script := by
  refine ⟨?_, rfl, rfl, rfl, rfl, rfl⟩
  unfold connected
  rw [h]
  rfl

theorem client_starts {script : PublisherScript} (hresources : script.resources ≠ [])
    (hdomain : script.domain.valid = true) : Starts (connected script) client script := by
  refine @connected_starts script
    (if ({ options := client, script } : Publisher).greets then
      { options := client, script, report := { connected := true } }
    else
      ({ options := client, script, report := { connected := true } } : Publisher).proceedTo 0) ?_
  unfold Publisher.start
  simp only [bind_ok, refuseIf_ok, exists_const]
  exact ⟨by decide, by decide, hresources, by simp [hdomain], rfl⟩

theorem oneSample_starts : Starts (connected oneSample) client oneSample :=
  client_starts (by decide) (by decide)

/-- Where the one pass ends. -/
def passed : Exchange := onePass.foldl apply (connected oneSample)

theorem passed_run : Run Step (connected oneSample) (events apply (connected oneSample) onePass)
    passed := run_moves _ (by decide)

theorem exchange_exactly_once_passed :
    passed.ingested <+: passed.sent.map sentBatch ∧
      passed.publisher.report.framesAcked.toNat ≤ passed.ingested.length ∧
      passed.sent.length ≤ passed.publisher.report.framesAcked.toNat + 1 ∧
      ∀ ev ∈ events apply (connected oneSample) onePass, Recorded ev :=
  exchange_exactly_once oneSample_starts passed_run

theorem exchange_in_sync_passed : passed.publisher.decoder.failed = false ∧
    ∃ s, passed.session = some s ∧ s.decoder.failed = false :=
  exchange_in_sync oneSample_starts passed_run

set_option maxRecDepth 100000 in
theorem exchange_reported_passed :
    passed.publisher.report.fencesReceived = 0 ∧
      (passed.publisher.report.errors = 0 → passed.ingested = passed.sent.map sentBatch ∧
        passed.sent.length = passed.publisher.total ∧
        passed.publisher.report.framesAcked.toNat = passed.publisher.total) ∧
      (passed.publisher.report.errors ≠ 0 → passed.publisher.report.helloAccepted = false ∧
        passed.sent = [] ∧ passed.ingested = []) := by
  have hdone : passed.publisher.stage = .done (.ok passed.publisher.report) := by decide +kernel
  exact exchange_reported oneSample_starts passed_run hdone

/-- The greeting has been written and nothing else has happened. -/
def greeting : List Move := [.publisherWrites 5 .whole {}]

set_option maxRecDepth 100000 in
theorem exchange_never_stuck_greeting :
    ∃ s, (greeting.foldl apply (connected oneSample)).session = some s ∧
      ((greeting.foldl apply (connected oneSample)).down ≠ [] ∨
        (greeting.foldl apply (connected oneSample)).up ≠ [] ∨ s.work ≠ .reading) := by
  have hwaiting : (greeting.foldl apply (connected oneSample)).publisher.awaiting = true := by
    decide +kernel
  exact exchange_never_stuck oneSample_starts (run_moves _ (by decide)) hwaiting

/-- A script that goes straight to the evidence. -/
def abrupt : PublisherScript := { oneSample with skipHandshake := true }

def barged : Exchange := onePass.foldl apply (connected abrupt)

theorem barged_run : Run Step (connected abrupt) (events apply (connected abrupt) onePass) barged :=
  run_moves _ (by decide)

theorem exchange_ungreeted_barged : barged.ingested = [] ∧
    ∀ report, barged.publisher.stage = .done (.ok report) → report.errors = 0 →
      abrupt.samples * abrupt.repeats = 0 :=
  exchange_ungreeted (client_starts (by decide) (by decide)) barged_run (.inr rfl)

end CongestionFabric.Exchange
