import CongestionFabric.Runtime.Departure

namespace CongestionFabric.CoordinatorNode

open Fabric

variable {n n' : CoordinatorNode} {c : Nat} {s s' : Session} {publisher : PublisherId}
  {boot : BootId}

/-- Whoever is registered was introduced, and a connection that takes itself for registered had a
Hello accepted. -/
structure Introduced (n : CoordinatorNode) : Prop where
  registry : ∀ publisher boot, n.fabric.Holds publisher boot →
    ∃ r, (r, publisher, boot) ∈ n.registrants
  sessions : ∀ c s, n.sessions[c]? = some s → s.registered = true →
    ∃ publisher boot, n.Greeted c publisher boot

/-- A call that is not a registration registers nobody. -/
theorem Introduced.call_registry (h : Introduced n) {a : Action}
    (ha : ∀ p b requested, a = .registerPublisher p b requested →
      n.fabric.admitPublisher p b ≠ .ok ()) (p : PublisherId) (b : BootId)
    (hp : (n.call a).fabric.Holds p b) : ∃ r, (r, p, b) ∈ n.registrants := by
  rcases World.act_holds n.world a hp with hp | ⟨requested, heq, hadmitted⟩
  · exact h.registry p b hp
  · exact absurd hadmitted (ha p b requested heq)

theorem Plain.not_registers {a : Action} (h : Plain a) (p : PublisherId) (b : BootId)
    (requested : AuthoritySet) : a ≠ .registerPublisher p b requested := by
  rintro rfl
  exact h

/-- A node with one session replaced, whose history has not shrunk. -/
theorem Introduced.replaced (h : Introduced n) (hsessions : n'.sessions = n.sessions.set c s')
    (hgrown : ∀ r, r ∈ n.registrants → r ∈ n'.registrants)
    (hregistry : ∀ p b, n'.fabric.Holds p b → ∃ r, (r, p, b) ∈ n'.registrants)
    (hs' : s'.registered = true → ∃ p b, n'.Greeted c p b) : Introduced n' := by
  refine ⟨hregistry, fun c' s₁ hs₁ hr => ?_⟩
  rw [hsessions, List.getElem?_set] at hs₁
  split_ifs at hs₁ with heq
  · obtain rfl := Option.some.inj hs₁
    exact heq ▸ hs' hr
  · obtain ⟨p, b, hg⟩ := h.sessions c' s₁ hs₁ hr
    exact ⟨p, b, hgrown _ hg⟩

theorem Move.introduced (hmove : Move n c s n') (h : Introduced n)
    (hs : n.sessions[c]? = some s) : Introduced n' := by
  have hgreeted := h.sessions c s hs
  cases hmove with
  | kept hid =>
    exact h.replaced rfl (fun _ hr => hr) h.registry fun hr =>
      hgreeted (hid.registered.symm.trans hr)
  | called hid ha =>
    exact h.replaced rfl (fun _ hr => hr)
      (h.call_registry fun p b requested heq => absurd heq (ha.not_registers p b requested))
      fun hr => hgreeted (hid.registered.symm.trans hr)
  | @refused s' hello hhello _ _ hregistered hrefused =>
    refine h.replaced rfl (fun _ hr => hr) (h.call_registry fun p b requested heq => ?_)
      fun hr => hgreeted (hregistered.symm.trans hr)
    injection heq with hpublisher hboot
    rw [← hpublisher, ← hboot]
    exact hrefused
  | @greeted s' hello registration hhello _ _ _ hok =>
    refine h.replaced rfl (fun _ hr => List.mem_cons_of_mem _ hr) ?_ fun _ =>
      ⟨hello.publisher, hello.boot, List.mem_cons_self⟩
    intro p b hp
    rcases World.act_holds n.world _ hp with hp | ⟨requested, heq, _⟩
    · obtain ⟨r, hr⟩ := h.registry p b hp
      exact ⟨r, List.mem_cons_of_mem _ hr⟩
    · injection heq with hpublisher hboot
      exact ⟨some c, by rw [← hpublisher, ← hboot]; exact List.mem_cons_self⟩
  | @farewell s' hregistered hwork called hcalled =>
    have hhistory : called.sessions = n.sessions ∧ called.registrants = n.registrants ∧
        ∀ p b, called.fabric.Holds p b → n.fabric.Holds p b := by
      rcases hcalled with rfl | ⟨_, rfl⟩
      · exact ⟨rfl, rfl, fun _ _ hp => hp⟩
      · exact ⟨rfl, rfl, fun _ _ hp => World.act_holds_only n.world (by simp) hp⟩
    obtain ⟨hsessions, hregistrants, hholds⟩ := hhistory
    have hsame : ∀ r, r ∈ n.registrants → r ∈ called.registrants :=
      fun r hr => hregistrants.symm ▸ hr
    refine h.replaced (congrArg (·.set c s') hsessions) hsame ?_ ?_
    · intro p b hp
      obtain ⟨r, hr⟩ := h.registry p b (hholds p b hp)
      exact ⟨r, hsame _ hr⟩
    · intro hr
      rw [hregistered] at hr
      cases hr

theorem Introduced.congr (h : Introduced n)
    (hsessions : ∀ (c : Nat) (s : Session), n'.sessions[c]? = some s → s.registered = true →
      n.sessions[c]? = some s)
    (hgrown : ∀ r, r ∈ n.registrants → r ∈ n'.registrants)
    (hregistry : ∀ p b, n'.fabric.Holds p b → n.fabric.Holds p b ∨ ∃ r, (r, p, b) ∈ n'.registrants) :
    Introduced n' := by
  constructor
  · intro p b hp
    rcases hregistry p b hp with hp | hr
    · obtain ⟨r, hr⟩ := h.registry p b hp
      exact ⟨r, hgrown _ hr⟩
    · exact hr
  · intro c s hs hr
    obtain ⟨p, b, hg⟩ := h.sessions c s (hsessions c s hs hr) hr
    exact ⟨p, b, hgrown _ hg⟩

theorem leave_introduced (h : Introduced n) (hs : n.sessions[c]? = some s) :
    Introduced (n.leave c s) := by
  obtain ⟨hsessions, hregistrants, _, _⟩ := leave_history n c s
  refine h.replaced hsessions (fun r hr => hregistrants.symm ▸ hr) ?_ ?_
  · intro p b hp
    rw [hregistrants]
    rw [leave_fabric] at hp
    split at hp
    · exact h.registry p b (World.act_holds_only n.world (by simp) hp)
    · exact h.registry p b hp
  · intro hr
    obtain ⟨p, b, hg⟩ := h.sessions c s hs hr
    refine ⟨p, b, ?_⟩
    unfold Greeted at hg ⊢
    rwa [hregistrants]

theorem hostCall_introduced (h : Introduced n) (a : Action) : Introduced (n.hostCall a) := by
  unfold hostCall
  split
  next p b requested =>
    split
    next registration hok =>
      refine h.congr (fun _ _ hs _ => hs) (fun _ hr => List.mem_cons_of_mem _ hr) ?_
      intro p' b' hp
      rcases World.act_holds n.world _ hp with hp | ⟨requested', heq, _⟩
      · exact .inl hp
      · injection heq with hpublisher hboot
        exact .inr ⟨none, by rw [hpublisher, hboot]; exact List.mem_cons_self⟩
    next status herror =>
      refine h.congr (fun _ _ hs _ => hs) (fun _ hr => hr) ?_
      intro p' b' hp
      rcases World.act_holds n.world _ hp with hp | ⟨requested', heq, hadmitted⟩
      · exact .inl hp
      · injection heq with hpublisher hboot
        rw [← hpublisher, ← hboot] at hadmitted
        obtain ⟨registration, hok⟩ := registerPublisher_admitted requested hadmitted
        have hok : (n.fabric.registerPublisher p b requested).2 = .ok registration := hok
        rw [hok] at herror
        cases herror
  next hother =>
    refine h.congr (fun _ _ hs _ => hs) (fun _ hr => hr) ?_
    exact fun p b hp => .inl (World.act_holds_only n.world (hother p b) hp)

theorem Step.introduced {i : Input} (hstep : Step n i n') (h : Introduced n) : Introduced n' := by
  obtain ⟨_, rfl⟩ := hstep
  cases i with
  | accept =>
    refine h.congr (fun c s hs hr => ?_) (fun _ hr => hr) fun _ _ hp => .inl hp
    have hs : (n.sessions ++ [({} : Session)])[c]? = some s := hs
    rw [List.getElem?_append] at hs
    split_ifs at hs with hlt
    · exact hs
    · obtain ⟨_, hs⟩ := List.getElem?_eq_some_iff.mp hs
      have hs : s = {} := by simpa using hs.symm
      rw [hs] at hr
      cases hr
  | session c answer =>
    show Introduced (n.advance c answer)
    unfold advance
    split
    next => exact h
    next s hs =>
      by_cases hleaving : s.work = .leaving
      · rw [proceed_leaving n c hleaving]
        exact leave_introduced h hs
      · by_cases hended : s.work = .ended
        · rw [proceed_ended n c hended]
          exact h
        · exact (proceed_move n c ⟨hleaving, hended⟩ answer).introduced h hs
  | host a => exact hostCall_introduced h a
  | requestStop => exact h.congr (fun _ _ hs _ => hs) (fun _ hr => hr) fun _ _ hp => .inl hp
  | shutdown =>
    refine h.congr (fun _ _ hs _ => hs) (fun _ hr => hr) ?_
    exact fun _ _ hp => .inl (World.act_holds_only n.world (by simp) hp)

/-! ### What enters the window through a connection -/

/-- A sample that the window holds after an input of a connection and did not hold before. -/
structure Enters (e : Event CoordinatorNode Input) (c : Nat) (key : WindowKey)
    (sample : EvidenceSample) : Prop where
  input : ∃ answer, e.input = .session c answer
  after : e.after.fabric.evidence.find? key = some sample
  before : e.before.fabric.evidence.find? key ≠ some sample

/-- The connection is registered, and the sample is of an incarnation that is. -/
structure Vouched (n : CoordinatorNode) (c : Nat) (sample : EvidenceSample) : Prop where
  connection : ∃ s, n.sessions[c]? = some s ∧ s.registered = true
  greeted : ∃ publisher boot, n.Greeted c publisher boot
  held : n.fabric.Holds sample.publisher sample.publisherBoot
  unfenced : n.fabric.isFenced sample.publisher sample.publisherBoot = false
  introduced : ∃ r, (r, sample.publisher, sample.publisherBoot) ∈ n.registrants

theorem call_enters {a : Action} {key : WindowKey} {sample : EvidenceSample}
    (hafter : (n.call a).fabric.evidence.find? key = some sample)
    (hbefore : n.fabric.evidence.find? key ≠ some sample) :
    (∃ batch, a = .ingest batch) ∧ n.fabric.Holds sample.publisher sample.publisherBoot ∧
      n.fabric.isFenced sample.publisher sample.publisherBoot = false :=
  (World.act_evidence n.world a hafter).resolve_left hbefore

theorem Move.enters (hmove : Move n c s n') {key : WindowKey} {sample : EvidenceSample}
    (hafter : n'.fabric.evidence.find? key = some sample)
    (hbefore : n.fabric.evidence.find? key ≠ some sample) :
    s.registered = true ∧ n.fabric.Holds sample.publisher sample.publisherBoot ∧
      n.fabric.isFenced sample.publisher sample.publisherBoot = false := by
  cases hmove with
  | kept => exact absurd hafter hbefore
  | called _ _ hregistered =>
    obtain ⟨⟨batch, hingest⟩, hheld⟩ := call_enters hafter hbefore
    exact ⟨(hregistered batch hingest).1, hheld⟩
  | refused =>
    obtain ⟨⟨batch, hingest⟩, _⟩ := call_enters hafter hbefore
    cases hingest
  | greeted =>
    obtain ⟨⟨batch, hingest⟩, _⟩ := call_enters hafter hbefore
    cases hingest
  | farewell _ _ hcalled =>
    rcases hcalled with rfl | ⟨_, rfl⟩
    · exact absurd hafter hbefore
    · obtain ⟨⟨batch, hingest⟩, _⟩ := call_enters hafter hbefore
      cases hingest

theorem leave_enters_nothing {key : WindowKey} {sample : EvidenceSample}
    (hafter : (n.leave c s).fabric.evidence.find? key = some sample) :
    n.fabric.evidence.find? key = some sample := by
  rw [leave_fabric] at hafter
  split at hafter
  · by_contra hbefore
    obtain ⟨⟨batch, hingest⟩, _⟩ := call_enters hafter hbefore
    cases hingest
  · exact hafter

/-- What enters the window through a connection is vouched for by the registry, not by the
connection. -/
theorem session_evidence_vouched {options : FabricOptions} {clock : Tick} {disk : Disk}
    {f : Fabric} {maxFrames : UInt64} {es : List (Event CoordinatorNode Input)}
    (hopen : openOn options clock disk = .ok f) (run : Run Step (starting f maxFrames) es n) :
    ∀ e ∈ es, ∀ c key sample, Enters e c key sample → Vouched e.before c sample := by
  obtain ⟨_, _, hopened⟩ := openOn_ok hopen
  have hstart : Introduced (starting f maxFrames) := by
    constructor
    · intro p b hp
      have hp : f.Holds p b := hp
      simp [Holds, registered, hopened.publishers] at hp
    · intro c s hs
      cases hs
  rintro e he c key sample ⟨⟨answer, hinput⟩, hafter, hbefore⟩
  have hintroduced := (run.invariant_at hstart (fun _ _ _ hn hstep => hstep.introduced hn) he).1
  obtain ⟨_, happly⟩ := run.mem_step he
  have hadvance : e.after = e.before.advance c answer := by
    rw [← happly, hinput]
    rfl
  rw [hadvance, advance] at hafter
  cases hs : e.before.sessions[c]? with
  | none =>
    rw [hs] at hafter
    exact absurd hafter hbefore
  | some s =>
    rw [hs] at hafter
    dsimp only at hafter
    by_cases hleaving : s.work = .leaving
    · rw [proceed_leaving e.before c hleaving] at hafter
      exact absurd (leave_enters_nothing hafter) hbefore
    · by_cases hended : s.work = .ended
      · rw [proceed_ended e.before c hended] at hafter
        exact absurd hafter hbefore
      · obtain ⟨hregistered, hheld, hunfenced⟩ :=
          (proceed_move e.before c ⟨hleaving, hended⟩ answer).enters hafter hbefore
        exact ⟨⟨s, hs, hregistered⟩, hintroduced.sessions c s hs hregistered, hheld, hunfenced,
          hintroduced.registry _ _ hheld⟩

/-! ### Two connections -/

/-- A batch of one sample of the first publisher. -/
def borrowedBatch : EvidenceBatch where
  epoch := ⟨1⟩
  submittedTick := 100
  samples := [{
    resource := ⟨5⟩, publisher := ⟨7⟩, publisherBoot := ⟨9⟩, epoch := ⟨1⟩, generation := ⟨1⟩
    sequence := 1, observedTick := 100, metrics := SortedMap.insert ∅ .utilizationPpm 900000 }]

def evidenceFrame (batch : EvidenceBatch) : Frame where
  header := { type := FrameType.evidence.toRaw }
  payload := (encodeEvidence batch).toOption.getD []

def evidenceBytes (batch : EvidenceBatch) : Bytes :=
  (FrameCodec.encode (evidenceFrame batch)).toOption.getD []

/-- The first connection says hello, the second says hello and sends a batch. -/
def crossing : List Input :=
  [.accept, .accept, .session 0 { received := some (helloBytes ⟨7⟩ ⟨9⟩) }, .session 0 {},
    .session 1 { received := some (helloBytes ⟨8⟩ ⟨9⟩ ++ evidenceBytes borrowedBatch) },
    .session 1 {}]

def borrowing : Event CoordinatorNode Input :=
  finalEvent (starting World.memoryFabric 100) crossing (.session 1 {})

theorem run_borrowing : Run Step (starting World.memoryFabric 100)
    (events apply (starting World.memoryFabric 100) crossing ++ [borrowing]) borrowing.after := by
  have hfree : ∀ i ∈ crossing, Free i := by
    intro i hi n
    simp only [crossing, List.mem_cons, List.not_mem_nil, or_false] at hi
    rcases hi with rfl | rfl | rfl | rfl | rfl | rfl <;> trivial
  exact run_final _ hfree fun _ => trivial

/-- The sample of the first publisher as the fabric receives it. -/
def borrowedSample : EvidenceSample :=
  (borrowing.after.fabric.evidence.values.head?).getD {}

set_option maxRecDepth 100000 in
theorem borrowing_enters : Enters borrowing 1 ⟨⟨5⟩, {}, ⟨7⟩⟩ borrowedSample := by
  refine ⟨⟨_, rfl⟩, ?_, ?_⟩
  · decide +kernel
  · decide +kernel

theorem borrowing_happens :
    borrowing ∈ events apply (starting World.memoryFabric 100) crossing ++ [borrowing] :=
  List.mem_append_right _ List.mem_cons_self

theorem session_evidence_vouched_borrowing : Vouched borrowing.before 1 borrowedSample :=
  session_evidence_vouched World.openOn_memory run_borrowing borrowing borrowing_happens 1 _ _
    borrowing_enters

set_option maxRecDepth 100000 in
/-- A sample of the publisher that another connection registered enters through this one. -/
theorem borrowed_sample_enters : openOn {} 100 {} = .ok World.memoryFabric ∧
    ∃ es n, Run Step (starting World.memoryFabric 100) es n ∧ ∃ e ∈ es, ∃ key sample,
      Enters e 1 key sample ∧ (sample.publisher, sample.publisherBoot) = (⟨7⟩, ⟨9⟩) ∧
        e.before.Greeted 0 ⟨7⟩ ⟨9⟩ ∧ ¬e.before.Greeted 1 ⟨7⟩ ⟨9⟩ := by
  have hidentity : (borrowedSample.publisher, borrowedSample.publisherBoot) = (⟨7⟩, ⟨9⟩) := by
    decide +kernel
  have hfirst : borrowing.before.Greeted 0 ⟨7⟩ ⟨9⟩ := by
    unfold Greeted
    decide +kernel
  have hsecond : ¬borrowing.before.Greeted 1 ⟨7⟩ ⟨9⟩ := by
    unfold Greeted
    decide +kernel
  exact ⟨World.openOn_memory, _, _, run_borrowing, borrowing, borrowing_happens, _, _,
    borrowing_enters, hidentity, hfirst, hsecond⟩

end CongestionFabric.CoordinatorNode
