import CongestionFabric.Fabric.Opened

namespace CongestionFabric

namespace Fabric

variable {f g : Fabric} {publisher : PublisherId} {boot : BootId}

/-- No registered incarnation is fenced, the window holds samples of the present epoch and of
unfenced incarnations only, and neither the window nor the registrations exceed their bounds. -/
structure Guarded (f : Fabric) : Prop where
  expelled : ∀ publisher boot, f.isFenced publisher boot = true →
    f.registered publisher boot = none
  epoch : ∀ key sample, f.evidence.find? key = some sample → sample.epoch = f.epoch
  unfenced : ∀ key sample, f.evidence.find? key = some sample →
    f.isFenced sample.publisher sample.publisherBoot = false
  windowBound : f.evidence.size ≤ f.options.maxEvidenceEntries
  publisherBound : f.publishers.size ≤ f.options.maxPublishers

/-- The fabrics agree on what the invariant reads. -/
structure SameWindow (f g : Fabric) : Prop where
  publishers : g.publishers = f.publishers
  fences : g.fences = f.fences
  evidence : g.evidence = f.evidence
  epoch : g.epoch = f.epoch
  options : g.options = f.options

theorem SameWindow.guarded (h : SameWindow f g) (hf : Guarded f) : Guarded g := by
  obtain ⟨hp, hx, he, ht, ho⟩ := h
  obtain ⟨h₁, h₂, h₃, h₄, h₅⟩ := hf
  unfold isFenced registered at h₁
  unfold isFenced at h₃
  constructor
  · unfold isFenced registered
    rwa [hp, hx]
  · rwa [he, ht]
  · unfold isFenced
    rwa [he, hx]
  · rwa [he, ho]
  · rwa [hp, ho]

/-! ### Fencing -/

theorem isFenced_forgetPublisher (f : Fabric) (p : PublisherId) (b : BootId) :
    (f.forgetPublisher p b).isFenced = f.isFenced := by
  unfold forgetPublisher
  split <;> rfl

theorem registered_forgetPublisher (f : Fabric) (p : PublisherId) (b : BootId) :
    (f.forgetPublisher p b).registered publisher boot =
      if (publisher, boot) = (p, b) then none else f.registered publisher boot := by
  unfold forgetPublisher
  split_ifs with hreg heq heq
  · obtain ⟨rfl, rfl⟩ := Prod.mk.inj heq
    simp [registered]
  · unfold registered
    rw [SortedMap.find?_erase]
    split_ifs with hp
    · subst hp
      -- another incarnation of the same publisher is registered
      obtain ⟨registration, hr⟩ := Option.isSome_iff_exists.mp hreg
      obtain ⟨hfind, hboot⟩ := Option.filter_eq_some_iff.mp hr
      have hboot : registration.boot = b := by simpa using hboot
      have hne : registration.boot ≠ boot := fun h => heq (by rw [← h, hboot])
      rw [hfind, Option.filter_some, if_neg (by simpa using hne)]
      rfl
    · rfl
  · obtain ⟨rfl, rfl⟩ := Prod.mk.inj heq
    simpa using hreg
  · rfl

theorem Guarded.forgetPublisher (h : Guarded f) (p : PublisherId) (b : BootId) :
    Guarded (f.forgetPublisher p b) := by
  constructor
  · intro publisher boot hf
    rw [isFenced_forgetPublisher] at hf
    rw [registered_forgetPublisher]
    split_ifs
    · rfl
    · exact h.expelled publisher boot hf
  · unfold Fabric.forgetPublisher
    split <;> exact h.epoch
  · rw [isFenced_forgetPublisher]
    unfold Fabric.forgetPublisher
    split <;> exact h.unfenced
  · unfold Fabric.forgetPublisher
    split <;> exact h.windowBound
  · unfold Fabric.forgetPublisher
    split
    · exact le_trans (SortedMap.size_erase_le _ _) h.publisherBound
    · exact h.publisherBound

theorem isFenced_fenced (f : Fabric) (record : FenceRecord) (publisher : PublisherId)
    (boot : BootId) : (f.fenced record).isFenced publisher boot = true ↔
      f.isFenced publisher boot = true ∨ (publisher, boot) = (record.publisher, record.boot) := by
  have h := isFenced_noteFence (f.forgetPublisher record.publisher record.boot) record publisher
    boot
  rw [isFenced_forgetPublisher] at h
  exact h

theorem Guarded.fenced (h : Guarded f) (record : FenceRecord) : Guarded (f.fenced record) := by
  have hforget := h.forgetPublisher record.publisher record.boot
  have hkept : ∀ key sample, (f.fenced record).evidence.find? key = some sample →
      (f.forgetPublisher record.publisher record.boot).evidence.find? key = some sample ∧
        ¬(sample.publisher = record.publisher ∧ sample.publisherBoot = record.boot) := by
    intro key sample hs
    obtain ⟨hfind, hother⟩ := SortedMap.find?_filter_some.mp hs
    exact ⟨hfind, not_and_or.mpr (by simpa using hother)⟩
  constructor
  · intro publisher boot hf
    rcases (isFenced_fenced f record publisher boot).mp hf with hf | heq
    · exact hforget.expelled publisher boot (by rwa [isFenced_forgetPublisher])
    · exact (registered_forgetPublisher f record.publisher record.boot).trans (if_pos heq)
  · exact fun key sample hs => hforget.epoch key sample (hkept key sample hs).1
  · intro key sample hs
    obtain ⟨hfind, hother⟩ := hkept key sample hs
    have hun := hforget.unfenced key sample hfind
    rw [isFenced_forgetPublisher] at hun
    refine Bool.eq_false_iff.mpr fun hf => ?_
    rcases (isFenced_fenced f record _ _).mp hf with hf | heq
    · rw [hun] at hf
      cases hf
    · exact hother (Prod.mk.inj heq)
  · exact le_trans (SortedMap.size_filter_le _ _) hforget.windowBound
  · exact hforget.publisherBound

/-! ### Registration -/

theorem registered_enroll (f : Fabric) (p : PublisherId) (registration : PublisherRegistration) :
    (f.enroll p registration).registered publisher boot =
      if publisher = p then
        if registration.boot = boot then some registration else none
      else f.registered publisher boot := by
  unfold registered enroll
  dsimp only
  rw [SortedMap.find?_insert]
  by_cases hp : publisher = p
  · rw [if_pos hp, if_pos hp]
    by_cases hb : registration.boot = boot <;> simp [hb]
  · rw [if_neg hp, if_neg hp]

/-- Enrolling an unfenced incarnation in place of another, or where there is room. -/
theorem Guarded.enroll (h : Guarded f) {registration : PublisherRegistration}
    (hfence : f.isFenced publisher registration.boot = false)
    (hroom : f.publishers.contains publisher = true ∨
      f.publishers.size < f.options.maxPublishers) :
    Guarded (f.enroll publisher registration) := by
  refine ⟨?_, h.epoch, h.unfenced, h.windowBound, ?_⟩
  · intro p b hf
    have hfenced : f.isFenced p b = true := hf
    rw [registered_enroll]
    split_ifs with hp hb
    · subst hp hb
      exact absurd (hfence.symm.trans hfenced) Bool.false_ne_true
    · rfl
    · exact h.expelled p b hfenced
  · change (f.publishers.insert publisher registration).size ≤ f.options.maxPublishers
    rw [SortedMap.size_insert]
    split_ifs with hc
    · exact h.publisherBound
    · exact hroom.resolve_left hc

theorem registered_find {registration : PublisherRegistration}
    (h : f.registered publisher boot = some registration) :
    f.publishers.find? publisher = some registration ∧ registration.boot = boot := by
  obtain ⟨hfind, hboot⟩ := Option.filter_eq_some_iff.mp h
  exact ⟨hfind, by simpa using hboot⟩

/-- A registered incarnation is enrolled again without room. -/
theorem Guarded.refresh (h : Guarded f) {registration registration' : PublisherRegistration}
    (hr : f.registered publisher boot = some registration)
    (hboot : registration'.boot = registration.boot) :
    Guarded (f.enroll publisher registration') := by
  obtain ⟨hfind, rfl⟩ := registered_find hr
  refine h.enroll ?_ (.inl (by simp [SortedMap.contains, hfind]))
  rw [hboot]
  refine Bool.eq_false_iff.mpr fun hf => ?_
  rw [h.expelled _ _ hf] at hr
  cases hr

theorem admitPublisher_ok (h : f.admitPublisher publisher boot = .ok ()) :
    f.isFenced publisher boot = false ∧ (f.publishers.contains publisher = true ∨
      f.publishers.size < f.options.maxPublishers) := by
  simp only [admitPublisher, bind_ok, refuseIf_ok] at h
  obtain ⟨_, _, _, _, _, hfence, hroom⟩ := h
  refine ⟨by simpa using hfence, ?_⟩
  by_cases hc : f.publishers.contains publisher = true
  · exact .inl hc
  · exact .inr (not_le.mp fun hle => hroom ⟨hle, hc⟩)

/-! ### Evidence -/

theorem Guarded.insertSample (h : Guarded f) {sample : EvidenceSample} {key : WindowKey}
    (hepoch : sample.epoch = f.epoch)
    (hfence : f.isFenced sample.publisher sample.publisherBoot = false)
    (hroom : f.evidence.contains key = true ∨
      f.evidence.size < f.options.maxEvidenceEntries) :
    Guarded { f with evidence := f.evidence.insert key sample } := by
  refine ⟨h.expelled, ?_, ?_, ?_, h.publisherBound⟩
  · intro k s hs
    rw [SortedMap.find?_insert] at hs
    split_ifs at hs
    · cases hs
      exact hepoch
    · exact h.epoch k s hs
  · intro k s hs
    rw [SortedMap.find?_insert] at hs
    split_ifs at hs
    · cases hs
      exact hfence
    · exact h.unfenced k s hs
  · change (f.evidence.insert key sample).size ≤ f.options.maxEvidenceEntries
    rw [SortedMap.size_insert]
    split_ifs with hc
    · exact h.windowBound
    · exact hroom.resolve_left hc

theorem Guarded.admitToWindow (h : Guarded f) {sample : EvidenceSample}
    (hepoch : sample.epoch = f.epoch)
    (hfence : f.isFenced sample.publisher sample.publisherBoot = false)
    (hadmitted : f.admitToWindow sample = .ok g) :
    Guarded g ∧ g.publishers = f.publishers ∧ g.fences = f.fences := by
  unfold Fabric.admitToWindow at hadmitted
  split at hadmitted
  next =>
    cases hadmitted
    exact ⟨h, rfl, rfl⟩
  next =>
    split at hadmitted
    next =>
      split at hadmitted
      next => cases hadmitted
      next hroom =>
        cases hadmitted
        exact ⟨h.insertSample hepoch hfence (.inr (not_le.mp hroom)), rfl, rfl⟩
    next previous hfind =>
      split at hadmitted
      next =>
        cases hadmitted
        exact ⟨h.insertSample hepoch hfence (.inl (by simp [SortedMap.contains, hfind])), rfl, rfl⟩
      next => cases hadmitted

/-- A sample leaves the fabric, or is a sample of the present epoch and of a registered incarnation
that is put into the window. -/
theorem ingestSample_cases (f : Fabric) (report : IngestReport) (sample : EvidenceSample) :
    (ingestSample (f, report) sample).1 = f ∨
      sample.epoch = f.epoch ∧ f.isFenced sample.publisher sample.publisherBoot = false ∧
      ∃ registration g,
        f.registered sample.publisher sample.publisherBoot = some registration ∧
        f.admitToWindow (f.received sample) = .ok g ∧
        (ingestSample (f, report) sample).1 = g.noteSeen registration (f.received sample) := by
  unfold ingestSample
  dsimp only
  split
  next => exact .inl rfl
  next =>
    split
    next => exact .inl rfl
    next hepoch =>
      split
      next => exact .inl rfl
      next registration hr =>
        split
        next => exact .inl rfl
        next hfence =>
          split
          next => exact .inl rfl
          next =>
            split
            next => exact .inl rfl
            next g hadmitted =>
              exact .inr ⟨not_not.mp hepoch, Bool.eq_false_iff.mpr hfence, registration, g, hr,
                hadmitted, rfl⟩

theorem admitToWindow_fences {sample : EvidenceSample} (h : f.admitToWindow sample = .ok g) :
    g.fences = f.fences := by
  unfold admitToWindow at h
  repeat' split at h
  all_goals cases h
  all_goals rfl

theorem Guarded.ingestSample (h : Guarded f) (report : IngestReport) (sample : EvidenceSample) :
    Guarded (Fabric.ingestSample (f, report) sample).1 := by
  rcases ingestSample_cases f report sample with he | ⟨hepoch, hfence, registration, g, hr, ha, he⟩
  · rw [he]
    exact h
  · rw [he]
    have hepoch' : (f.received sample).epoch = f.epoch := hepoch
    obtain ⟨hg, hpublishers, _⟩ := h.admitToWindow hepoch' hfence ha
    have hr' : g.registered sample.publisher sample.publisherBoot = some registration := by
      unfold registered at hr ⊢
      rw [hpublishers]
      exact hr
    exact hg.refresh hr' rfl

theorem ingestSample_fences (f : Fabric) (report : IngestReport) (sample : EvidenceSample) :
    (Fabric.ingestSample (f, report) sample).1.fences = f.fences := by
  rcases ingestSample_cases f report sample with he | ⟨_, _, registration, g, _, ha, he⟩
  · rw [he]
  · rw [he]
    exact show g.fences = f.fences from admitToWindow_fences ha

theorem Guarded.ingestAll {samples : List EvidenceSample} {report : IngestReport}
    (h : Guarded f) : Guarded (samples.foldl Fabric.ingestSample (f, report)).1 := by
  induction samples generalizing f report with
  | nil => exact h
  | cons sample rest ih => exact ih (h.ingestSample report sample)

theorem ingestAll_fences {samples : List EvidenceSample} {report : IngestReport} :
    (samples.foldl Fabric.ingestSample (f, report)).1.fences = f.fences := by
  induction samples generalizing f report with
  | nil => rfl
  | cons sample rest ih => exact ih.trans (ingestSample_fences f report sample)

/-! ### Epochs and runs -/

/-- An epoch advance empties the registry and the window. -/
theorem nextEpoch_eq (f : Fabric) (reason : FenceReason) :
    ∃ fences, f.nextEpoch reason = { f with
      epoch := ⟨f.epoch.value + 1⟩
      authorityGeneration := ⟨f.authorityGeneration.value + 1⟩
      publishers := ∅
      evidence := ∅
      intents := ∅
      fences
      domains := f.domains.mapVal fun _ s =>
        demoteDomain ⟨f.epoch.value + 1⟩ ⟨f.authorityGeneration.value + 1⟩ s } :=
  foldl_noteFence_eq _ _

theorem Guarded.nextEpoch (f : Fabric) (reason : FenceReason) : Guarded (f.nextEpoch reason) := by
  obtain ⟨fences, h⟩ := nextEpoch_eq f reason
  rw [h]
  exact ⟨fun _ _ _ => rfl, nofun, nofun, Nat.zero_le _, Nat.zero_le _⟩

theorem isFenced_nextEpoch (f : Fabric) (reason : FenceReason) :
    (f.nextEpoch reason).isFenced publisher boot = true ↔ f.isFenced publisher boot = true ∨
      (publisher, boot) ∈ f.publishers.entries.map fun e => (e.1, e.2.boot) := by
  unfold nextEpoch
  dsimp only
  rw [isFenced_foldl_noteFence, List.map_map]
  rfl

theorem Guarded.of_empty (hp : f.publishers = ∅) (he : f.evidence = ∅) : Guarded f := by
  constructor
  · intro publisher boot _
    simp [registered, hp]
  · rw [he]
    exact nofun
  · rw [he]
    exact nofun
  · rw [he]
    exact Nat.zero_le _
  · rw [hp]
    exact Nat.zero_le _

theorem Guarded.of_openOn {options : FabricOptions} {clock : Tick} {disk : Disk}
    (h : openOn options clock disk = .ok f) : Guarded f := by
  obtain ⟨_, _, hopened⟩ := openOn_ok h
  exact .of_empty hopened.publishers hopened.evidence

end Fabric

namespace World

open Fabric

variable {w w' : World} {a : Action}

theorem Effect.guarded (h : Effect w a w') (hw : Guarded w.fabric) : Guarded w'.fabric := by
  have hsame : ∀ f : Fabric, SameWindow w.fabric f → Guarded f := fun f hf => hf.guarded hw
  cases h with
  | kept | policy | topology | capacity | closed | clock => exact hsame _ ⟨rfl, rfl, rfl, rfl, rfl⟩
  | evaluated | published | carried => exact hsame _ ⟨rfl, rfl, rfl, rfl, rfl⟩
  | dropped | planned | plannedLast => exact hsame _ ⟨rfl, rfl, rfl, rfl, rfl⟩
  | registered h =>
    obtain ⟨hfence, hroom⟩ := admitPublisher_ok h
    exact hw.enroll hfence hroom
  | departed publisher boot => exact hw.forgetPublisher publisher boot
  | alive h => exact hw.refresh h rfl
  | @fenced a record => exact hw.fenced record
  | ingested => exact hw.ingestAll
  | epoch => exact .nextEpoch ..

/-- No fence is ever lifted. -/
theorem Effect.isFenced {publisher : PublisherId} {boot : BootId} (h : Effect w a w')
    (hf : w.fabric.isFenced publisher boot = true) :
    w'.fabric.isFenced publisher boot = true := by
  cases h with
  | departed p b => exact (congrFun₂ (isFenced_forgetPublisher w.fabric p b) publisher boot).trans hf
  | @fenced a record => exact (isFenced_fenced w.fabric record publisher boot).mpr (.inl hf)
  | ingested batch =>
    unfold Fabric.isFenced at hf ⊢
    rwa [show (w.moved _ _).fabric.fences = w.fabric.fences from ingestAll_fences]
  | epoch => exact (isFenced_nextEpoch w.fabric _).mpr (.inl hf)
  | _ => exact hf

theorem act_guarded (w : World) (a : Action) (hw : Guarded w.fabric) :
    Guarded (w.act a).fabric := by
  obtain ⟨w', store, he, heq⟩ := act_effect w a
  have hsame : SameWindow w'.fabric (w'.onStore store).fabric := ⟨rfl, rfl, rfl, rfl, rfl⟩
  rw [heq]
  exact hsame.guarded (he.guarded hw)

theorem act_isFenced {publisher : PublisherId} {boot : BootId} (w : World) (a : Action)
    (hf : w.fabric.isFenced publisher boot = true) :
    (w.act a).fabric.isFenced publisher boot = true := by
  obtain ⟨w', store, he, heq⟩ := act_effect w a
  rw [heq]
  exact he.isFenced hf

theorem Step.guarded {i : Input} (h : Step w i w') (hw : Guarded w.fabric) :
    Guarded w'.fabric := by
  cases h with
  | act a => exact act_guarded w a hw
  | restart hopen => exact .of_openOn hopen

/-- The inputs of a run that one process takes. -/
def OneProcess (es : List (Event World Input)) : Prop := ∀ e ∈ es, ∃ a, e.input = .act a

theorem OneProcess.init {es : List (Event World Input)} {e : Event World Input}
    (h : OneProcess (es ++ [e])) : OneProcess es ∧ ∃ a, e.input = .act a :=
  ⟨fun e' he' => h e' (List.mem_append_left _ he'),
    h e (List.mem_append_right _ List.mem_cons_self)⟩

theorem isFenced_lasts {publisher : PublisherId} {boot : BootId} {es : List (Event World Input)}
    (run : Run Step w es w') (hlive : OneProcess es)
    (hf : w.fabric.isFenced publisher boot = true) :
    w'.fabric.isFenced publisher boot = true := by
  induction run with
  | start => exact hf
  | next _ hstep ih =>
    obtain ⟨hinit, a, ha⟩ := hlive.init
    have hf := ih hinit
    cases hstep with
    | restart => cases ha
    | act a => exact act_isFenced _ a hf

/-- In every state of every run, across restarts, the window invariant holds; and as long as the
process lives what it has fenced stays fenced. -/
theorem window_guarded {options : FabricOptions} {clock : Tick} {disk : Disk} {f : Fabric}
    {es es' : List (Event World Input)} (hopen : openOn options clock disk = .ok f)
    (run : Run Step ⟨f, [], ∅⟩ es w) (run' : Run Step w es' w') :
    Guarded w.fabric ∧ (OneProcess es' → ∀ publisher boot,
      w.fabric.isFenced publisher boot = true → w'.fabric.isFenced publisher boot = true) := by
  exact ⟨run.invariant (.of_openOn hopen) fun _ _ _ hs hstep => hstep.guarded hs,
    fun hlive _ _ hf => isFenced_lasts run' hlive hf⟩

/-- A fabric in memory, as it opens. -/
@[irreducible]
def memoryFabric : Fabric :=
  match openOn {} 100 {} with
  | .ok f => f
  | .error _ => {}

set_option maxRecDepth 100000 in
theorem openOn_memory : openOn {} 100 {} = .ok memoryFabric := by
  have hok : (openOn {} 100 {}).isOk = true := by decide +kernel
  obtain ⟨f, hf⟩ := Result.exists_of_isOk hok
  rw [hf, memoryFabric, hf]

def registration : Action := .registerPublisher ⟨7⟩ ⟨9⟩ AuthoritySet.all
def expulsion : Action := .fencePublisher ⟨7⟩ ⟨9⟩ .manual []

/-- A publisher is registered, fenced and tries to register again. -/
def expelledWorld : World := ((⟨memoryFabric, [], ∅⟩ : World).act registration).act expulsion

set_option maxRecDepth 100000 in
theorem expelledWorld_fenced : expelledWorld.fabric.isFenced ⟨7⟩ ⟨9⟩ = true := by
  decide +kernel

theorem window_guarded_expelled : Guarded expelledWorld.fabric ∧
    (expelledWorld.act registration).fabric.isFenced ⟨7⟩ ⟨9⟩ = true := by
  have run : Run Step ⟨memoryFabric, [], ∅⟩ _ expelledWorld :=
    (Run.start.next (.act registration)).next (.act expulsion)
  have again : Run Step expelledWorld _ (expelledWorld.act registration) :=
    Run.start.next (.act registration)
  obtain ⟨hguarded, hlasting⟩ := window_guarded openOn_memory run again
  exact ⟨hguarded, hlasting (by simp [OneProcess]) _ _ expelledWorld_fenced⟩

end World

end CongestionFabric
