import CongestionFabric.Runtime.Moves

namespace CongestionFabric.CoordinatorNode

open Fabric

variable {n n' : CoordinatorNode} {c : Nat} {s s' : Session} {publisher : PublisherId}
  {boot : BootId}

/-- The Hello a registered session takes names the incarnation it is registered as. -/
def SameHello (n : CoordinatorNode) (s : Session) : Bool :=
  !s.registered || (n.helloTaken s).all fun hello =>
    decide (hello.publisher = s.publisher ∧ hello.boot = s.boot)

/-- The condition on one input. -/
def KeepsIdentity (n : CoordinatorNode) : Input → Bool
  | .session c _ => (n.sessions[c]?).all n.SameHello
  | _ => true

/-- What a connection has registered, and what its locals say of it. -/
structure Coherent (n : CoordinatorNode) (c : Nat) (s : Session) : Prop where
  closing : n.fabric.closed = true → s.registered = true → s.work = .ended
  valid : s.registered = true → s.publisher.valid = true ∧ s.boot.valid = true
  own : s.registered = true → ∀ publisher boot, n.Greeted c publisher boot ↔
    publisher = s.publisher ∧ boot = s.boot
  unknown : s.registered = false → c ∉ n.farewells → ∀ publisher boot,
    ¬n.Greeted c publisher boot
  farewell : c ∈ n.farewells → s.registered = false ∧ ¬s.InLoop

structure AllCoherent (n : CoordinatorNode) : Prop where
  sessions : ∀ c s, n.sessions[c]? = some s → Coherent n c s
  fresh : ∀ c, n.sessions.length ≤ c → c ∉ n.farewells ∧ ∀ publisher boot,
    ¬n.Greeted c publisher boot

/-- A node that has the same history of a connection, and a fabric that is open as long. -/
structure SameHistory (n n' : CoordinatorNode) (c : Nat) : Prop where
  closed : n'.fabric.closed = true → n.fabric.closed = true
  greeted : ∀ publisher boot, n'.Greeted c publisher boot ↔ n.Greeted c publisher boot
  farewells : c ∈ n'.farewells ↔ c ∈ n.farewells

theorem Coherent.congr (h : Coherent n c s) (hn : SameHistory n n' c) : Coherent n' c s := by
  refine ⟨fun hc => h.closing (hn.closed hc), h.valid, ?_, ?_, ?_⟩
  · intro hr p b
    exact (hn.greeted p b).trans (h.own hr p b)
  · intro hr hf p b hg
    exact h.unknown hr (fun hmem => hf (hn.farewells.mpr hmem)) p b ((hn.greeted p b).mp hg)
  · exact fun hmem => h.farewell (hn.farewells.mp hmem)

/-- Replacing a session in place keeps the rest. -/
theorem AllCoherent.replaced (h : AllCoherent n) (hs : n.sessions[c]? = some s)
    (hsessions : n'.sessions = n.sessions.set c s')
    (hothers : ∀ c', c' ≠ c → SameHistory n n' c') (hc : Coherent n' c s') : AllCoherent n' := by
  obtain ⟨hlt, _⟩ := List.getElem?_eq_some_iff.mp hs
  constructor
  · intro c' s₁ hs₁
    rw [hsessions, List.getElem?_set] at hs₁
    split_ifs at hs₁ with heq
    · obtain rfl := Option.some.inj hs₁
      exact heq ▸ hc
    · exact (h.sessions c' s₁ hs₁).congr (hothers c' (Ne.symm heq))
  · intro c' hle
    rw [hsessions, List.length_set] at hle
    have hne : c' ≠ c := by omega
    obtain ⟨hf, hg⟩ := h.fresh c' hle
    have hsame := hothers c' hne
    exact ⟨fun hmem => hf (hsame.farewells.mp hmem),
      fun p b hmem => hg p b ((hsame.greeted p b).mp hmem)⟩

theorem registerPublisher_ok {f : Fabric} {requested : AuthoritySet}
    {registration : PublisherRegistration}
    (h : (f.registerPublisher publisher boot requested).2 = .ok registration) :
    f.admitPublisher publisher boot = .ok () := by
  unfold registerPublisher checked at h
  split at h
  next => cases h
  next u hadmitted => exact hadmitted

theorem admitPublisher_open {f : Fabric} (h : f.admitPublisher publisher boot = .ok ()) :
    f.closed = false := by
  simp only [admitPublisher, ensureOpen, bind_ok, refuseIf_ok] at h
  obtain ⟨_, _, _, hopen, _⟩ := h
  simpa using hopen

theorem helloTaken_valid {hello : HelloMessage} (h : n.helloTaken s = some hello) :
    hello.publisher.valid = true ∧ hello.boot.valid = true := by
  unfold helloTaken at h
  split at h
  next => cases h
  next frame _ =>
    split_ifs at h
    cases hdecoded : decodeHello frame.payload with
    | error status =>
      rw [hdecoded] at h
      cases h
    | ok message =>
      rw [hdecoded] at h
      obtain rfl := Option.some.inj h
      exact decodeHello_valid hdecoded

theorem Plain.ne_close {a : Action} (h : Plain a) : a ≠ .close := by
  rintro rfl
  exact h

/-- A call and a new value for one session leave the history of every connection. -/
theorem SameHistory.called {a : Action} (ha : a ≠ .close) (c c' : Nat) (s : Session) :
    SameHistory n ((n.call a).put c s) c' := by
  refine ⟨fun hclosed => ?_, fun p b => Iff.rfl, Iff.rfl⟩
  have hsame : (n.call a).fabric.closed = n.fabric.closed := World.act_closed n.world ha
  exact hsame ▸ hclosed

theorem SameHistory.put (c c' : Nat) (s : Session) : SameHistory n (n.put c s) c' :=
  ⟨id, fun _ _ => Iff.rfl, Iff.rfl⟩

/-- A session in its loop has said no goodbye, and finds the fabric open if it is registered. -/
theorem Coherent.inLoop (h : Coherent n c s) (hloop : s.InLoop) :
    c ∉ n.farewells ∧ (s.registered = true → n.fabric.closed = false) := by
  refine ⟨fun hmem => (h.farewell hmem).2 hloop, fun hregistered => ?_⟩
  rw [Bool.eq_false_iff]
  exact fun hclosed => hloop.2 (h.closing hclosed hregistered)

theorem Coherent.kept (h : Coherent n c s) (hloop : s.InLoop) (hid : s.SameIdentity s') :
    Coherent n c s' := by
  obtain ⟨hfarewell, hopen⟩ := h.inLoop hloop
  obtain ⟨hp, hb, hr⟩ := hid
  refine ⟨?_, ?_, ?_, ?_, fun hmem => absurd hmem hfarewell⟩
  · intro hclosed hregistered
    rw [hopen (hr.symm.trans hregistered)] at hclosed
    cases hclosed
  · rw [hp, hb, hr]
    exact h.valid
  · rw [hp, hb, hr]
    exact h.own
  · rw [hr]
    exact h.unknown

/-- An unregistered session has registered nobody, whatever its locals say. -/
theorem Coherent.unregistered (h : Coherent n c s) (hloop : s.InLoop)
    (hr : s.registered = false) (hr' : s'.registered = false) : Coherent n c s' := by
  have hnot : ∀ {p : Prop}, s'.registered = true → p := by
    intro p htrue
    rw [hr'] at htrue
    cases htrue
  exact ⟨fun _ => hnot, hnot, hnot, fun _ => h.unknown hr,
    fun hmem => absurd hmem (h.inLoop hloop).1⟩

/-- A registered connection that repeats its Hello as itself names itself. -/
theorem SameHello.named {hello : HelloMessage} (hsame : n.SameHello s = true)
    (hr : s.registered = true) (hhello : n.helloTaken s = some hello) :
    hello.publisher = s.publisher ∧ hello.boot = s.boot := by
  unfold SameHello at hsame
  rw [hr, hhello] at hsame
  simpa using hsame

/-- Every move of a session keeps the history coherent when its Hello names it. -/
theorem Move.coherent (hmove : Move n c s n') (h : AllCoherent n) (hs : n.sessions[c]? = some s)
    (hloop : s.InLoop) (hsame : n.SameHello s = true) : AllCoherent n' := by
  have hc := h.sessions c s hs
  obtain ⟨hfarewell, hopen⟩ := hc.inLoop hloop
  cases hmove with
  | @kept s' hid =>
    exact h.replaced hs rfl (fun c' _ => .put c c' s') ((hc.kept hloop hid).congr (.put c c s'))
  | @called s' a hid ha =>
    exact h.replaced hs rfl (fun c' _ => .called ha.ne_close c c' s')
      ((hc.kept hloop hid).congr (.called ha.ne_close c c s'))
  | @refused s' hello hhello hpublisher hboot hregistered =>
    have hne : Action.registerPublisher hello.publisher hello.boot hello.requested ≠ .close := nofun
    have hkept : Coherent n c s' := by
      cases hr : s.registered with
      | true =>
        have hnamed := SameHello.named hsame hr hhello
        exact hc.kept hloop ⟨hpublisher.trans hnamed.1, hboot.trans hnamed.2, hregistered⟩
      | false => exact hc.unregistered hloop hr (hregistered.trans hr)
    exact h.replaced hs rfl (fun c' _ => .called hne c c' s') (hkept.congr (.called hne c c s'))
  | @greeted s' hello registration hhello hpublisher hboot hregistered hok =>
    have hne : Action.registerPublisher hello.publisher hello.boot hello.requested ≠ .close := nofun
    have hadmitted : n.fabric.closed = false := admitPublisher_open (registerPublisher_ok hok)
    have hclosed : (n.world.act (.registerPublisher hello.publisher hello.boot
        hello.requested)).fabric.closed = false := (World.act_closed n.world hne).trans hadmitted
    have hbefore : ∀ p b, n.Greeted c p b → p = hello.publisher ∧ b = hello.boot := by
      intro p b hg
      cases hr : s.registered with
      | true =>
        have hnamed := SameHello.named hsame hr hhello
        rw [hnamed.1, hnamed.2]
        exact (hc.own hr p b).mp hg
      | false => exact absurd hg (hc.unknown hr hfarewell p b)
    refine h.replaced hs rfl ?_ ⟨?_, ?_, ?_, ?_, fun hmem => absurd hmem hfarewell⟩
    · intro c' hother
      refine ⟨fun hcl => ?_, fun p b => ?_, Iff.rfl⟩
      · exact absurd (hclosed.symm.trans hcl) Bool.false_ne_true
      · show (some c', p, b) ∈ (some c, hello.publisher, hello.boot) :: n.registrants ↔ _
        simp [Greeted, hother]
    · intro hcl
      exact absurd (hclosed.symm.trans hcl) Bool.false_ne_true
    · intro _
      rw [hpublisher, hboot]
      exact helloTaken_valid hhello
    · intro _ p b
      rw [hpublisher, hboot]
      show (some c, p, b) ∈ (some c, hello.publisher, hello.boot) :: n.registrants ↔ _
      constructor
      · intro hmem
        rcases List.mem_cons.mp hmem with heq | hmem
        · simpa using heq
        · exact hbefore p b hmem
      · rintro ⟨rfl, rfl⟩
        exact List.mem_cons_self
    · intro hr
      rw [hregistered] at hr
      cases hr
  | @farewell s' hregistered hwork called hcalled =>
    have hhistory : called.sessions = n.sessions ∧ called.farewells = n.farewells ∧
        called.registrants = n.registrants ∧
        (called.fabric.closed = true → n.fabric.closed = true) := by
      rcases hcalled with rfl | ⟨_, rfl⟩
      · exact ⟨rfl, rfl, rfl, id⟩
      · refine ⟨rfl, rfl, rfl, fun hcl => ?_⟩
        have hkept : (n.world.act (.unregisterPublisher s.publisher s.boot .none [])).fabric.closed =
            n.fabric.closed := World.act_closed n.world nofun
        exact hkept.symm.trans hcl
    obtain ⟨hsessions, hfarewells, hregistrants, hclosed⟩ := hhistory
    refine h.replaced hs (congrArg (·.set c s') hsessions) ?_ ⟨?_, ?_, ?_, ?_, ?_⟩
    · intro c' hother
      refine ⟨hclosed, fun p b => ?_, ?_⟩
      · show (some c', p, b) ∈ called.registrants ↔ _
        rw [hregistrants]
        exact Iff.rfl
      · show c' ∈ c :: called.farewells ↔ _
        rw [hfarewells]
        simp [hother]
    · intro _ hr
      rw [hregistered] at hr
      cases hr
    · intro hr
      rw [hregistered] at hr
      cases hr
    · intro hr
      rw [hregistered] at hr
      cases hr
    · intro _ hnot
      exact absurd List.mem_cons_self hnot
    · intro _
      exact ⟨hregistered, fun hin => hin.1 hwork⟩

/-! ### The end of the loop -/

theorem leave_fabric (n : CoordinatorNode) (c : Nat) (s : Session) :
    (n.leave c s).fabric = if s.registered = true then
      (n.world.act (.unregisterPublisher s.publisher s.boot .publisherDeath deathDetail)).fabric
    else n.fabric := by
  unfold leave
  dsimp only
  split <;> rfl

theorem leave_history (n : CoordinatorNode) (c : Nat) (s : Session) :
    (n.leave c s).sessions = n.sessions.set c { s with work := .ended } ∧
      (n.leave c s).registrants = n.registrants ∧ (n.leave c s).farewells = n.farewells ∧
      (n.leave c s).fabric.closed = n.fabric.closed := by
  refine ⟨?_, ?_, ?_, ?_⟩
  · unfold leave
    dsimp only
    split <;> rfl
  · unfold leave
    dsimp only
    split <;> rfl
  · unfold leave
    dsimp only
    split <;> rfl
  · rw [leave_fabric]
    split
    · exact World.act_closed n.world nofun
    · rfl

theorem leave_coherent (h : AllCoherent n) (hs : n.sessions[c]? = some s) :
    AllCoherent (n.leave c s) := by
  obtain ⟨hsessions, hregistrants, hfarewells, hclosed⟩ := leave_history n c s
  have hsame : ∀ c', SameHistory n (n.leave c s) c' := by
    intro c'
    refine ⟨fun hcl => hclosed ▸ hcl, fun p b => ?_, ?_⟩
    · unfold Greeted
      rw [hregistrants]
    · rw [hfarewells]
  have hc := h.sessions c s hs
  have hended : Coherent n c { s with work := .ended } :=
    ⟨fun _ _ => rfl, hc.valid, hc.own, hc.unknown,
      fun hmem => ⟨(hc.farewell hmem).1, fun hin => hin.2 rfl⟩⟩
  exact h.replaced hs hsessions (fun c' _ => hsame c') (hended.congr (hsame c))

/-- What a departure fences, when the fabric is open for it. -/
theorem departure_fencing (hopen : n.fabric.closed = false) (hp : publisher.valid = true)
    (hb : boot.valid = true) :
    n.fabric.fencing (.unregisterPublisher publisher boot .publisherDeath deathDetail) =
      [(publisher, boot)] := by
  have hadmitted :
      (n.fabric.admitFence publisher boot .publisherDeath deathDetail).isOk = true := by
    simp [admitFence, stageFence, ensureOpen, refuseIf, hopen, hp, hb, bind, Except.bind, pure,
      Except.pure, Result.isOk, succeed]
  exact if_pos ⟨by decide, by decide, hadmitted⟩

/-! ### Runs -/

theorem Step.coherent {i : Input} (hstep : Step n i n') (h : AllCoherent n)
    (hsame : n.KeepsIdentity i = true) : AllCoherent n' := by
  obtain ⟨hallowed, rfl⟩ := hstep
  cases i with
  | accept =>
    constructor
    · intro c s hs
      have hs : (n.sessions ++ [({} : Session)])[c]? = some s := hs
      rw [List.getElem?_append] at hs
      split_ifs at hs with hlt
      · exact (h.sessions c s hs).congr ⟨id, fun _ _ => Iff.rfl, Iff.rfl⟩
      · obtain ⟨hf, hg⟩ := h.fresh c (not_lt.mp hlt)
        have hs : s = {} := by
          obtain ⟨_, hs⟩ := List.getElem?_eq_some_iff.mp hs
          simpa using hs.symm
        rw [hs]
        exact ⟨nofun, nofun, nofun, fun _ _ => hg, fun hmem => absurd hmem hf⟩
    · intro c hle
      have hle : (n.sessions ++ [({} : Session)]).length ≤ c := hle
      rw [List.length_append] at hle
      exact h.fresh c (by omega)
  | session c answer =>
    show AllCoherent (n.advance c answer)
    unfold advance
    split
    next => exact h
    next s hs =>
      have hsame : n.SameHello s = true := by simpa [KeepsIdentity, hs] using hsame
      by_cases hleaving : s.work = .leaving
      · rw [proceed_leaving n c hleaving]
        exact leave_coherent h hs
      · by_cases hended : s.work = .ended
        · rw [proceed_ended n c hended]
          exact h
        · exact (proceed_move n c ⟨hleaving, hended⟩ answer).coherent h hs ⟨hleaving, hended⟩ hsame
  | host a =>
    have hclosed : (n.world.act a).fabric.closed = n.fabric.closed :=
      World.act_closed n.world hallowed
    have hhistory : (n.hostCall a).sessions = n.sessions ∧
        ∀ c, SameHistory n (n.hostCall a) c := by
      unfold hostCall
      split
      · split
        · refine ⟨rfl, fun c => ⟨fun hcl => hclosed ▸ hcl, fun p b => ?_, Iff.rfl⟩⟩
          show (some c, p, b) ∈ (none, _, _) :: n.registrants ↔ _
          simp [Greeted]
        · exact ⟨rfl, fun c => ⟨fun hcl => hclosed ▸ hcl, fun p b => Iff.rfl, Iff.rfl⟩⟩
      · exact ⟨rfl, fun c => ⟨fun hcl => hclosed ▸ hcl, fun p b => Iff.rfl, Iff.rfl⟩⟩
    obtain ⟨hsessions, hhistory⟩ := hhistory
    show AllCoherent (n.hostCall a)
    constructor
    · intro c s hs
      exact (h.sessions c s (hsessions ▸ hs)).congr (hhistory c)
    · intro c hle
      obtain ⟨hf, hg⟩ := h.fresh c (hsessions ▸ hle)
      exact ⟨fun hmem => hf ((hhistory c).farewells.mp hmem),
        fun p b hmem => hg p b (((hhistory c).greeted p b).mp hmem)⟩
  | requestStop =>
    exact ⟨fun c s hs => (h.sessions c s hs).congr ⟨id, fun _ _ => Iff.rfl, Iff.rfl⟩, h.fresh⟩
  | shutdown =>
    refine ⟨fun c s hs => ?_, h.fresh⟩
    obtain ⟨_, hvalid, hown, hunknown, hfarewell⟩ := h.sessions c s hs
    exact ⟨fun _ _ => hallowed.2 s (List.mem_of_getElem? hs), hvalid, hown, hunknown, hfarewell⟩

theorem starting_coherent (f : Fabric) (maxFrames : UInt64) :
    AllCoherent (starting f maxFrames) := by
  constructor
  · intro c s hs
    cases hs
  · exact fun c _ => ⟨List.not_mem_nil, fun p b => List.not_mem_nil⟩

/-- A connection returns without having said goodbye. -/
def Returns (e : Event CoordinatorNode Input) (c : Nat) : Prop :=
  (∃ answer, e.input = .session c answer) ∧
    (∃ s, e.before.sessions[c]? = some s ∧ s.work = .leaving) ∧ c ∉ e.before.farewells

/-- The return of a connection fences every incarnation it had registered, and nobody it had not
registered. -/
structure FencesItsOwn (e : Event CoordinatorNode Input) (c : Nat) : Prop where
  own : ∀ publisher boot, e.before.Greeted c publisher boot →
    e.after.fabric.isFenced publisher boot = true
  others : ∀ publisher boot, e.after.fabric.isFenced publisher boot = true →
    e.before.fabric.isFenced publisher boot = true ∨ e.before.Greeted c publisher boot

theorem Coherent.leaving_open (hc : Coherent n c s) (hleaving : s.work = .leaving)
    (hr : s.registered = true) : n.fabric.closed = false := by
  rw [Bool.eq_false_iff]
  intro hclosed
  have hended := hc.closing hclosed hr
  rw [hleaving] at hended
  cases hended

/-- A registered connection that leaves is fenced. -/
theorem leave_fenced (hc : Coherent n c s) (hleaving : s.work = .leaving)
    (hr : s.registered = true) : (n.leave c s).fabric.isFenced s.publisher s.boot = true := by
  obtain ⟨hp, hb⟩ := hc.valid hr
  rw [leave_fabric, if_pos hr]
  apply World.act_fencing
  show (s.publisher, s.boot) ∈ n.fabric.fencing _
  rw [departure_fencing (hc.leaving_open hleaving hr) hp hb]
  exact List.mem_cons_self

theorem leave_fencesItsOwn (hc : Coherent n c s) (hleaving : s.work = .leaving)
    (hfarewell : c ∉ n.farewells) (i : Input) : FencesItsOwn ⟨n, i, n.leave c s⟩ c := by
  cases hr : s.registered with
  | true =>
    have hfabric : (n.leave c s).fabric = (n.world.act
        (.unregisterPublisher s.publisher s.boot .publisherDeath deathDetail)).fabric := by
      rw [leave_fabric, if_pos hr]
    obtain ⟨hp, hb⟩ := hc.valid hr
    have hfencing := departure_fencing (hc.leaving_open hleaving hr) hp hb
    constructor
    · intro p b hg
      obtain ⟨rfl, rfl⟩ := (hc.own hr p b).mp hg
      exact leave_fenced hc hleaving hr
    · intro p b hf
      have hf : (n.leave c s).fabric.isFenced p b = true := hf
      rw [hfabric] at hf
      rcases World.act_fenced_only n.world _ hf with hf | hmem
      · exact .inl hf
      · have hmem : (p, b) ∈ n.fabric.fencing _ := hmem
        rw [hfencing] at hmem
        obtain ⟨rfl, rfl⟩ := Prod.mk.inj (List.mem_singleton.mp hmem)
        exact .inr ((hc.own hr _ _).mpr ⟨rfl, rfl⟩)
  | false =>
    have hfabric : (n.leave c s).fabric = n.fabric := by
      rw [leave_fabric, hr]
      rfl
    constructor
    · intro p b hg
      exact absurd hg (hc.unknown hr hfarewell p b)
    · intro p b hf
      have hf : (n.leave c s).fabric.isFenced p b = true := hf
      rw [hfabric] at hf
      exact .inl hf

/-- In every run in which a registered connection says Hello as itself only, every connection that
returns without a Goodbye fences exactly what it had registered. -/
theorem departure_fences {f : Fabric} {maxFrames : UInt64}
    {es : List (Event CoordinatorNode Input)} (run : Run Step (starting f maxFrames) es n)
    (hsame : ∀ e ∈ es, e.before.KeepsIdentity e.input = true) :
    ∀ e ∈ es, ∀ c, Returns e c → FencesItsOwn e c := by
  have hguarded := run.guarded (P := fun n i => n.KeepsIdentity i = true) hsame
  intro e he c ⟨⟨answer, hinput⟩, ⟨s, hs, hleaving⟩, hfarewell⟩
  have hbefore : AllCoherent e.before :=
    (hguarded.invariant_at (starting_coherent f maxFrames)
      (fun _ _ _ hn hstep => hstep.1.coherent hn hstep.2) he).1
  have hafter : e.after = e.before.leave c s := by
    obtain ⟨_, happly⟩ := run.mem_step he
    rw [← happly, hinput]
    show e.before.advance c answer = _
    rw [advance, hs]
    exact proceed_leaving e.before c hleaving answer
  have hfences := leave_fencesItsOwn (hbefore.sessions c s hs) hleaving hfarewell e.input
  rw [← hafter] at hfences
  exact hfences

/-! ### One connection -/

def helloFrame (publisher : PublisherId) (boot : BootId) : Frame where
  header := { type := FrameType.hello.toRaw }
  payload := (encodeHello { publisher, boot, requested := AuthoritySet.all }).toOption.getD []

def helloBytes (publisher : PublisherId) (boot : BootId) : Bytes :=
  (FrameCodec.encode (helloFrame publisher boot)).toOption.getD []

/-- The only connection reads these bytes, takes the two frames in them and finds its peer gone. -/
def visit (bytes : Bytes) : List Input :=
  [.accept, .session 0 { received := some bytes }, .session 0 {}, .session 0 {}, .session 0 {},
    .session 0 {}]

/-- The event of one more input after these. -/
def finalEvent (n : CoordinatorNode) (is : List Input) (i : Input) : Event CoordinatorNode Input :=
  ⟨is.foldl apply n, i, (is.foldl apply n).apply i⟩

/-- Inputs that no node refuses. -/
def Free (i : Input) : Prop := ∀ n : CoordinatorNode, n.Allows i

theorem run_inputs {is : List Input} (n : CoordinatorNode) (h : ∀ i ∈ is, Free i) :
    Run Step n (events apply n is) (is.foldl apply n) := by
  induction is generalizing n with
  | nil => exact .start
  | cons i rest ih =>
    obtain ⟨hfirst, hrest⟩ := List.forall_mem_cons.mp h
    exact (Run.start.next ⟨hfirst n, rfl⟩).append (ih (n.apply i) hrest)

theorem run_final (n : CoordinatorNode) {is : List Input} {i : Input} (h : ∀ i ∈ is, Free i)
    (hi : Free i) : Run Step n (events apply n is ++ [finalEvent n is i]) (finalEvent n is i).after :=
  (run_inputs n h).next ⟨hi _, rfl⟩

def departure (bytes : Bytes) : Event CoordinatorNode Input :=
  finalEvent (starting World.memoryFabric 100) (visit bytes) (.session 0 {})

def visitEvents (bytes : Bytes) : List (Event CoordinatorNode Input) :=
  events apply (starting World.memoryFabric 100) (visit bytes) ++ [departure bytes]

theorem run_visit (bytes : Bytes) :
    Run Step (starting World.memoryFabric 100) (visitEvents bytes) (departure bytes).after := by
  have hfree : ∀ i ∈ visit bytes, Free i := by
    intro i hi n
    simp only [visit, List.mem_cons, List.not_mem_nil, or_false] at hi
    rcases hi with rfl | rfl | rfl | rfl | rfl | rfl <;> trivial
  exact run_final _ hfree fun _ => trivial

theorem visit_returns {bytes : Bytes}
    (h : ((departure bytes).before.sessions[0]?).any (fun s => decide (s.work = .leaving)) = true)
    (hsilent : 0 ∉ (departure bytes).before.farewells) : Returns (departure bytes) 0 := by
  obtain ⟨s, hs, hwork⟩ := (Option.any_eq_true _ _).mp h
  exact ⟨⟨_, rfl⟩, ⟨s, hs, of_decide_eq_true hwork⟩, hsilent⟩

/-- The same Hello twice. -/
def repeatedHello : Bytes := helloBytes ⟨7⟩ ⟨9⟩ ++ helloBytes ⟨7⟩ ⟨9⟩

set_option maxRecDepth 100000 in
theorem departure_fences_repeated :
    Returns (departure repeatedHello) 0 ∧ FencesItsOwn (departure repeatedHello) 0 := by
  have hreturns : Returns (departure repeatedHello) 0 :=
    visit_returns (by decide +kernel) (by decide +kernel)
  have hsame : ∀ e ∈ visitEvents repeatedHello, e.before.KeepsIdentity e.input = true :=
    List.all_eq_true.mp (by decide +kernel)
  have hlast : departure repeatedHello ∈ visitEvents repeatedHello :=
    List.mem_append_right _ List.mem_cons_self
  exact ⟨hreturns, departure_fences (run_visit repeatedHello) hsame _ hlast 0 hreturns⟩

/-- Two incarnations, one after the other. -/
def renamingHello : Bytes := helloBytes ⟨7⟩ ⟨9⟩ ++ helloBytes ⟨8⟩ ⟨9⟩

set_option maxRecDepth 100000 in
/-- The first of two incarnations that one connection registers is left registered and unfenced. -/
theorem renamed_departure_unfenced : openOn {} 100 {} = .ok World.memoryFabric ∧
    ∃ es n, Run Step (starting World.memoryFabric 100) es n ∧ ∃ e ∈ es, Returns e 0 ∧
      e.before.Greeted 0 ⟨7⟩ ⟨9⟩ ∧ e.before.fabric.Holds ⟨7⟩ ⟨9⟩ ∧
      e.after.fabric.isFenced ⟨7⟩ ⟨9⟩ = false ∧ ¬FencesItsOwn e 0 := by
  have hreturns : Returns (departure renamingHello) 0 :=
    visit_returns (by decide +kernel) (by decide +kernel)
  have hgreeted : (departure renamingHello).before.Greeted 0 ⟨7⟩ ⟨9⟩ := by
    unfold Greeted
    decide +kernel
  have hheld : (departure renamingHello).before.fabric.Holds ⟨7⟩ ⟨9⟩ := by
    unfold Holds
    decide +kernel
  have hunfenced : (departure renamingHello).after.fabric.isFenced ⟨7⟩ ⟨9⟩ = false := by
    decide +kernel
  refine ⟨World.openOn_memory, _, _, run_visit renamingHello, departure renamingHello,
    List.mem_append_right _ List.mem_cons_self, hreturns, hgreeted, hheld, hunfenced, ?_⟩
  intro hfences
  rw [hfences.own ⟨7⟩ ⟨9⟩ hgreeted] at hunfenced
  cases hunfenced

end CongestionFabric.CoordinatorNode
