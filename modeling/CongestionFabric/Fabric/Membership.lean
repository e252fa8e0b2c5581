import CongestionFabric.Fabric.FenceSafety

namespace CongestionFabric

namespace Fabric

variable {f g : Fabric} {publisher : PublisherId} {boot : BootId}

/-- The incarnation is registered. -/
def Holds (f : Fabric) (publisher : PublisherId) (boot : BootId) : Prop :=
  (f.registered publisher boot).isSome = true

theorem Holds.congr (hpublishers : g.publishers = f.publishers) :
    g.Holds publisher boot ↔ f.Holds publisher boot := by
  unfold Holds registered
  rw [hpublishers]

theorem Holds.of_forget {p : PublisherId} {b : BootId}
    (h : (f.forgetPublisher p b).Holds publisher boot) : f.Holds publisher boot := by
  unfold Holds at h ⊢
  rw [registered_forgetPublisher] at h
  split_ifs at h
  · cases h
  · exact h

theorem Holds.of_enroll {p : PublisherId} {registration : PublisherRegistration}
    (h : (f.enroll p registration).Holds publisher boot) :
    f.Holds publisher boot ∨ (publisher, boot) = (p, registration.boot) := by
  unfold Holds at h ⊢
  rw [registered_enroll] at h
  split_ifs at h with hp hb
  · exact .inr (by rw [hp, hb])
  · cases h
  · exact .inl h

/-- Seeing an incarnation again registers nobody. -/
theorem Holds.of_refresh {p : PublisherId} {b : BootId}
    {registration registration' : PublisherRegistration}
    (h : (f.enroll p registration').Holds publisher boot)
    (hr : f.registered p b = some registration) (hboot : registration'.boot = registration.boot) :
    f.Holds publisher boot := by
  rcases h.of_enroll with h | heq
  · exact h
  · obtain ⟨rfl, rfl⟩ := Prod.mk.inj heq
    obtain ⟨_, rfl⟩ := registered_find hr
    unfold Holds
    rw [hboot, hr]
    rfl

/-! ### Ingest -/

/-- What a batch leaves: nobody new is registered, and what is new in the window is of somebody
registered and not fenced. -/
structure Received (f g : Fabric) : Prop where
  closed : g.closed = f.closed
  fences : g.fences = f.fences
  publishers : ∀ publisher boot, g.Holds publisher boot → f.Holds publisher boot
  evidence : ∀ key sample, g.evidence.find? key = some sample →
    f.evidence.find? key = some sample ∨
      f.Holds sample.publisher sample.publisherBoot ∧
        f.isFenced sample.publisher sample.publisherBoot = false

theorem Received.refl (f : Fabric) : Received f f :=
  ⟨rfl, rfl, fun _ _ h => h, fun _ _ h => .inl h⟩

theorem Received.trans {f₁ f₂ f₃ : Fabric} (h : Received f₁ f₂) (h' : Received f₂ f₃) :
    Received f₁ f₃ := by
  refine ⟨h'.closed.trans h.closed, h'.fences.trans h.fences,
    fun p b hr => h.publishers p b (h'.publishers p b hr), ?_⟩
  intro key sample hs
  rcases h'.evidence key sample hs with hs | ⟨hr, hf⟩
  · exact h.evidence key sample hs
  · refine .inr ⟨h.publishers _ _ hr, ?_⟩
    unfold isFenced at hf ⊢
    rwa [h.fences] at hf

theorem admitToWindow_cases {sample : EvidenceSample} (h : f.admitToWindow sample = .ok g) :
    g = f ∨ g = { f with evidence := f.evidence.insert (windowKey sample) sample } := by
  unfold admitToWindow at h
  split at h
  next => exact .inl (Except.ok.inj h).symm
  next =>
    split at h
    next =>
      split at h
      next => cases h
      next => exact .inr (Except.ok.inj h).symm
    next =>
      split at h
      next => exact .inr (Except.ok.inj h).symm
      next => cases h

theorem ingestSample_received (f : Fabric) (report : IngestReport) (sample : EvidenceSample) :
    Received f (ingestSample (f, report) sample).1 := by
  rcases ingestSample_cases f report sample with he | ⟨_, hfence, registration, g, hr, ha, he⟩
  · rw [he]
    exact .refl f
  · have hsample : f.Holds sample.publisher sample.publisherBoot := by
      unfold Holds
      rw [hr]
      rfl
    have hseen : ∀ g : Fabric, g.publishers = f.publishers → ∀ p b,
        (g.noteSeen registration (f.received sample)).Holds p b → f.Holds p b := by
      intro g hg p b hp
      have hr' : g.registered sample.publisher sample.publisherBoot = some registration := by
        unfold registered at hr ⊢
        rwa [hg]
      have hp : (g.enroll sample.publisher { registration with
          lastSeenTick := g.clock
          alive := true
          lastGeneration := max registration.lastGeneration sample.generation
          lastSequence :=
            if sample.sequence > registration.lastSequence then sample.sequence
            else registration.lastSequence }).Holds p b := hp
      exact (Holds.congr hg).mp (hp.of_refresh hr' rfl)
    rw [he]
    rcases admitToWindow_cases ha with rfl | rfl
    · exact ⟨rfl, rfl, hseen g rfl, fun key s hs => .inl hs⟩
    · refine ⟨rfl, rfl, hseen _ rfl, ?_⟩
      intro key s hs
      have hs : (f.evidence.insert (windowKey sample) (f.received sample)).find? key = some s := hs
      rw [SortedMap.find?_insert] at hs
      split_ifs at hs
      · obtain rfl := Option.some.inj hs
        exact .inr ⟨hsample, hfence⟩
      · exact .inl hs

theorem ingestAll_received (samples : List EvidenceSample) (f : Fabric) (report : IngestReport) :
    Received f (samples.foldl ingestSample (f, report)).1 := by
  induction samples generalizing f report with
  | nil => exact .refl f
  | cons sample rest ih =>
    have hfirst := ingestSample_received f report sample
    exact hfirst.trans (ih (ingestSample (f, report) sample).1 (ingestSample (f, report) sample).2)

end Fabric

namespace World

open Fabric

variable {w w' : World} {a : Action} {publisher : PublisherId} {boot : BootId}

/-- Only closing closes. -/
theorem act_closed (w : World) (ha : a ≠ .close) :
    (w.act a).fabric.closed = w.fabric.closed := by
  obtain ⟨w', store, he, heq⟩ := act_effect w a
  rw [heq]
  show w'.fabric.closed = w.fabric.closed
  cases he with
  | closed => exact absurd rfl ha
  | departed p b =>
    show (w.fabric.forgetPublisher p b).closed = w.fabric.closed
    unfold forgetPublisher
    split <;> rfl
  | @fenced a record =>
    show (w.fabric.forgetPublisher record.publisher record.boot).closed = w.fabric.closed
    unfold forgetPublisher
    split <;> rfl
  | ingested batch => exact (ingestAll_received batch.samples w.fabric {}).closed
  | @epoch reason =>
    obtain ⟨fences, hnext⟩ := nextEpoch_eq w.fabric reason
    show (w.fabric.nextEpoch reason).closed = w.fabric.closed
    rw [hnext]
  | _ => rfl

/-- Nobody is registered but by registering. -/
theorem act_holds (w : World) (a : Action) (h : (w.act a).fabric.Holds publisher boot) :
    w.fabric.Holds publisher boot ∨ ∃ requested, a = .registerPublisher publisher boot requested ∧
      w.fabric.admitPublisher publisher boot = .ok () := by
  obtain ⟨w', store, he, heq⟩ := act_effect w a
  rw [heq] at h
  have h : w'.fabric.Holds publisher boot := h
  cases he with
  | @registered p b requested hadmitted =>
    rcases Holds.of_enroll h with h | hid
    · exact .inl h
    · obtain ⟨rfl, rfl⟩ := Prod.mk.inj hid
      exact .inr ⟨requested, rfl, hadmitted⟩
  | departed => exact .inl (Holds.of_forget h)
  | alive hr => exact .inl (Holds.of_refresh h hr rfl)
  | fenced => exact .inl (Holds.of_forget h)
  | ingested batch => exact .inl ((ingestAll_received batch.samples w.fabric {}).publishers _ _ h)
  | @epoch reason =>
    obtain ⟨fences, hnext⟩ := nextEpoch_eq w.fabric reason
    have h : (w.fabric.nextEpoch reason).Holds publisher boot := h
    rw [hnext] at h
    cases h
  | _ => exact .inl h

/-- Only its registration registers an incarnation. -/
theorem act_holds_only (w : World) {a : Action}
    (ha : ∀ requested, a ≠ .registerPublisher publisher boot requested)
    (h : (w.act a).fabric.Holds publisher boot) : w.fabric.Holds publisher boot := by
  rcases act_holds w a h with hbefore | ⟨requested, heq, _⟩
  · exact hbefore
  · exact absurd heq (ha requested)

/-- Nobody is fenced but by what the action fences. -/
theorem act_fenced_only (w : World) (a : Action)
    (h : (w.act a).fabric.isFenced publisher boot = true) :
    w.fabric.isFenced publisher boot = true ∨ (publisher, boot) ∈ w.fabric.fencing a := by
  obtain ⟨w', store, he, heq⟩ := act_effect w a
  rw [heq] at h
  have h : w'.fabric.isFenced publisher boot = true := h
  cases he with
  | departed p b =>
    exact .inl ((congrFun₂ (isFenced_forgetPublisher w.fabric p b) publisher boot).symm.trans h)
  | @fenced a record hfencing =>
    rcases (isFenced_fenced w.fabric record publisher boot).mp h with h | hid
    · exact .inl h
    · exact .inr (by rw [hfencing, hid]; exact List.mem_cons_self)
  | ingested batch =>
    have hfences := (ingestAll_received batch.samples w.fabric {}).fences
    unfold Fabric.isFenced at h ⊢
    exact .inl (by rwa [show (w.moved _ _).fabric.fences = w.fabric.fences from hfences] at h)
  | epoch hstage =>
    rcases (isFenced_nextEpoch w.fabric _).mp h with h | hmem
    · exact .inl h
    · exact .inr (by rw [Fabric.fencing, if_pos hstage]; exact hmem)
  | _ => exact .inl h

/-- The window grows by ingesting only. -/
theorem act_evidence (w : World) (a : Action) {key : WindowKey} {sample : EvidenceSample}
    (h : (w.act a).fabric.evidence.find? key = some sample) :
    w.fabric.evidence.find? key = some sample ∨ (∃ batch, a = .ingest batch) ∧
      w.fabric.Holds sample.publisher sample.publisherBoot ∧
        w.fabric.isFenced sample.publisher sample.publisherBoot = false := by
  obtain ⟨w', store, he, heq⟩ := act_effect w a
  rw [heq] at h
  have h : w'.fabric.evidence.find? key = some sample := h
  cases he with
  | departed p b =>
    have hsame : (w.fabric.forgetPublisher p b).evidence = w.fabric.evidence := by
      unfold forgetPublisher
      split <;> rfl
    exact .inl (hsame ▸ h)
  | @fenced a record =>
    have hsame : (w.fabric.forgetPublisher record.publisher record.boot).evidence =
        w.fabric.evidence := by
      unfold forgetPublisher
      split <;> rfl
    obtain ⟨hfind, _⟩ := SortedMap.find?_filter_some.mp h
    exact .inl (hsame ▸ hfind)
  | ingested batch =>
    rcases (ingestAll_received batch.samples w.fabric {}).evidence key sample h with h | hnew
    · exact .inl h
    · exact .inr ⟨⟨batch, rfl⟩, hnew⟩
  | @epoch reason =>
    obtain ⟨fences, hnext⟩ := nextEpoch_eq w.fabric reason
    have h : (w.fabric.nextEpoch reason).evidence.find? key = some sample := h
    rw [hnext] at h
    cases h
  | _ => exact .inl h

end World

end CongestionFabric
