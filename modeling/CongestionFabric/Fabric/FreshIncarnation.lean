import CongestionFabric.Fabric.ReplayProtection

namespace CongestionFabric

namespace Fabric

variable {f g : Fabric} {sent : List EvidenceSample} {sample : EvidenceSample}
  {publisher : PublisherId} {boot : BootId}

/-- The window and the registered generations come from the samples sent so far. -/
structure Traced (sent : List EvidenceSample) (f : Fabric) : Prop where
  window : ∀ key kept, f.evidence.find? key = some kept → ∃ s ∈ sent,
    windowKey s = key ∧ s.publisherBoot = kept.publisherBoot
  generations : ∀ publisher boot registration, f.registered publisher boot = some registration →
    registration.lastGeneration = {} ∨ ∃ s ∈ sent, s.publisher = publisher ∧
      s.publisherBoot = boot ∧ registration.lastGeneration = s.generation

theorem Traced.mono (h : Traced sent f) {more : List EvidenceSample}
    (hsub : ∀ s ∈ sent, s ∈ more) : Traced more f := by
  refine ⟨fun key kept hfind => ?_, fun publisher boot registration hr => ?_⟩
  · obtain ⟨s, hs, hkey⟩ := h.window key kept hfind
    exact ⟨s, hsub s hs, hkey⟩
  · rcases h.generations publisher boot registration hr with hzero | ⟨s, hs, hsent⟩
    · exact .inl hzero
    · exact .inr ⟨s, hsub s hs, hsent⟩

theorem Traced.congr (h : Traced sent f) (hpublishers : g.publishers = f.publishers)
    (hevidence : g.evidence = f.evidence) : Traced sent g := by
  refine ⟨by rw [hevidence]; exact h.window, fun publisher boot registration hr => ?_⟩
  unfold registered at hr
  rw [hpublishers] at hr
  exact h.generations publisher boot registration hr

theorem Traced.empty (hpublishers : f.publishers = ∅) (hevidence : f.evidence = ∅) :
    Traced sent f := by
  refine ⟨fun key kept hfind => ?_, fun publisher boot registration hr => ?_⟩
  · rw [hevidence] at hfind
    cases hfind
  · unfold registered at hr
    rw [hpublishers] at hr
    cases hr

/-- Enrolling an incarnation with no generation, or with one that was sent. -/
theorem Traced.enroll (h : Traced sent f) {registration : PublisherRegistration}
    (hgeneration : registration.lastGeneration = {} ∨ ∃ s ∈ sent, s.publisher = publisher ∧
      s.publisherBoot = registration.boot ∧ registration.lastGeneration = s.generation) :
    Traced sent (f.enroll publisher registration) := by
  refine ⟨h.window, fun p b found hr => ?_⟩
  rw [registered_enroll] at hr
  by_cases hp : p = publisher
  · rw [if_pos hp] at hr
    by_cases hb : registration.boot = b
    · rw [if_pos hb] at hr
      obtain rfl := Option.some.inj hr
      rw [hp, ← hb]
      exact hgeneration
    · rw [if_neg hb] at hr
      cases hr
  · rw [if_neg hp] at hr
    exact h.generations p b found hr

theorem Traced.forgetPublisher (h : Traced sent f) (publisher : PublisherId) (boot : BootId) :
    Traced sent (f.forgetPublisher publisher boot) := by
  refine ⟨?_, fun p b registration hr => ?_⟩
  · unfold Fabric.forgetPublisher
    split <;> exact h.window
  · rw [registered_forgetPublisher] at hr
    by_cases hsame : (p, b) = (publisher, boot)
    · rw [if_pos hsame] at hr
      cases hr
    · rw [if_neg hsame] at hr
      exact h.generations p b registration hr

theorem Traced.ingestSample (h : Traced sent f) (report : IngestReport) (sample : EvidenceSample) :
    Traced (sent ++ [sample]) (Fabric.ingestSample (f, report) sample).1 := by
  have hmore : Traced (sent ++ [sample]) f := h.mono fun s hs => List.mem_append_left _ hs
  have hlast : sample ∈ sent ++ [sample] := List.mem_append_right _ (List.mem_singleton_self _)
  by_cases haccepts : ∃ registration, f.Accepts sample registration
  · obtain ⟨registration, haccepts⟩ := haccepts
    obtain ⟨hfind, hboot⟩ := registered_find haccepts.registered
    rw [ingestSample_accepts haccepts]
    have hwindowed : Traced (sent ++ [sample]) (f.windowed sample) := by
      unfold windowed
      split_ifs
      · exact hmore
      · refine ⟨fun key kept hkept => ?_, hmore.generations⟩
        rw [SortedMap.find?_insert] at hkept
        split_ifs at hkept with hkey
        · obtain rfl := Option.some.inj hkept
          exact ⟨sample, hlast, hkey.symm, rfl⟩
        · exact hmore.window key kept hkept
    refine hwindowed.enroll ?_
    dsimp only
    rcases le_total registration.lastGeneration sample.generation with hle | hle
    · exact .inr ⟨sample, hlast, rfl, hboot.symm, max_eq_right hle⟩
    · have hsame : max registration.lastGeneration sample.generation =
          registration.lastGeneration := max_eq_left hle
      rw [show (f.received sample).generation = sample.generation from rfl, hsame, hboot]
      exact hmore.generations _ _ _ haccepts.registered
  · obtain ⟨_, heq, _⟩ := ingestSample_refuses (not_exists.mp haccepts) report
    rw [heq]
    exact hmore

theorem Traced.ingestAll (h : Traced sent f) (samples : List EvidenceSample) (report : IngestReport) :
    Traced (sent ++ samples) (samples.foldl Fabric.ingestSample (f, report)).1 := by
  induction samples generalizing f sent report with
  | nil =>
    rw [List.append_nil]
    exact h
  | cons first rest ih =>
    have hrest := ih (h.ingestSample report first) (Fabric.ingestSample (f, report) first).2
    rw [List.append_assoc] at hrest
    exact hrest

end Fabric

namespace World

open Fabric

variable {w w' : World} {sent : List EvidenceSample}

/-- The samples an input brings. -/
def Input.samples : Input → List EvidenceSample
  | .act (.ingest batch) => batch.samples
  | _ => []

/-- The samples a run was sent, in order. -/
def sentSamples (es : List (Event World Input)) : List EvidenceSample :=
  es.flatMap fun e => e.input.samples

theorem act_traced (w : World) (a : Action) (h : Traced sent w.fabric) :
    Traced (sent ++ (Input.act a).samples) (w.act a).fabric := by
  obtain ⟨w', store, he, heq⟩ := act_effect w a
  rw [heq]
  have hmore : Traced (sent ++ (Input.act a).samples) w.fabric :=
    h.mono fun s hs => List.mem_append_left _ hs
  have hstored : ∀ g : Fabric, Traced (sent ++ (Input.act a).samples) g →
      Traced (sent ++ (Input.act a).samples) { g with store } := fun g hg => hg.congr rfl rfl
  refine hstored w'.fabric ?_
  cases he with
  | registered => exact hmore.enroll (.inl rfl)
  | departed publisher boot => exact hmore.forgetPublisher publisher boot
  | @alive publisher boot registration hr =>
    obtain ⟨_, hboot⟩ := registered_find hr
    refine hmore.enroll ?_
    dsimp only
    rw [hboot]
    exact hmore.generations publisher boot registration hr
  | @fenced a record =>
    have hforget := hmore.forgetPublisher record.publisher record.boot
    refine ⟨fun key kept hfind => ?_, hforget.generations⟩
    exact hforget.window key kept (SortedMap.find?_filter_some.mp hfind).1
  | ingested batch => exact h.ingestAll batch.samples {}
  | @epoch reason =>
    obtain ⟨fences, hnext⟩ := nextEpoch_eq w.fabric reason
    change Traced _ (w.fabric.nextEpoch reason)
    rw [hnext]
    exact .empty rfl rfl
  | _ => exact hmore.congr rfl rfl

theorem run_traced {es : List (Event World Input)} (run : Run Step w es w')
    (hpublishers : w.fabric.publishers = ∅) (hevidence : w.fabric.evidence = ∅) :
    Traced (sentSamples es) w'.fabric := by
  induction run with
  | start => exact .empty hpublishers hevidence
  | @next es s s' i _ hstep ih =>
    have happend : sentSamples (es ++ [⟨s, i, s'⟩]) = sentSamples es ++ i.samples := by
      unfold sentSamples
      rw [List.flatMap_append, List.flatMap_singleton]
    rw [happend]
    cases hstep with
    | act a => exact act_traced s a ih
    | restart hopen =>
      obtain ⟨_, _, hopened⟩ := openOn_ok hopen
      exact .empty hopened.publishers hopened.evidence

/-- The batch is ingested, and its last sample counts as accepted and is what the window holds under
its key. -/
def TakesLast (f : Fabric) (before : List EvidenceSample) (sample : EvidenceSample)
    (batch : EvidenceBatch) : Prop :=
  ∃ g report, f.ingest batch = (g, .ok report) ∧
    report.accepted = (before.foldl ingestSample (f, {})).2.accepted + 1 ∧
    g.evidence.find? (windowKey sample) =
      some ((before.foldl ingestSample (f, {})).1.received sample)

/-- A sample under a key its incarnation sent nothing for, of no generation before those it sent, is
taken just when its resource is valid and the window has room for it or an older sample under its
key; and what is there was left by another incarnation. -/
theorem fresh_sample_taken_iff {options : FabricOptions} {clock : Tick} {disk : Disk} {f : Fabric}
    {es : List (Event World Input)} {batch : EvidenceBatch} {before : List EvidenceSample}
    {sample : EvidenceSample} (hopen : openOn options clock disk = .ok f)
    (run : Run Step ⟨f, [], ∅⟩ es w) (hclosed : w.fabric.closed = false)
    (hbatch : batch.samples = before ++ [sample])
    (hcount : batch.samples.length ≤ limits.kMaxEvidencePerBatch)
    (hheld : w.fabric.Holds sample.publisher sample.publisherBoot)
    (hepoch : sample.epoch = w.fabric.epoch) (hheartbeat : sample.isHeartbeat = false)
    (hnothing : ∀ s ∈ sentSamples es ++ before, s.publisherBoot = sample.publisherBoot →
      windowKey s ≠ windowKey sample)
    (hgeneration : ∀ s ∈ sentSamples es ++ before, s.publisher = sample.publisher →
      s.publisherBoot = sample.publisherBoot → s.generation ≤ sample.generation) :
    (∀ previous, (before.foldl ingestSample (w.fabric, {})).1.evidence.find? (windowKey sample) =
      some previous → previous.publisherBoot ≠ sample.publisherBoot) ∧
    (TakesLast w.fabric before sample batch ↔ sample.resource.valid = true ∧
      (before.foldl ingestSample (w.fabric, {})).1.Admits sample) := by
  obtain ⟨_, _, hopened⟩ := openOn_ok hopen
  have htraced := (run_traced run hopened.publishers hopened.evidence).ingestAll before {}
  have hguarded : Guarded w.fabric := (window_guarded hopen run Run.start).1
  have hunfenced := (@Guarded.ingestAll _ before {} hguarded).expelled
  have hlater := ingestAll_later before w.fabric {}
  have hingest := ingest_ok hclosed hcount
  rw [hbatch, List.foldl_append] at hingest
  unfold TakesLast
  generalize before.foldl ingestSample (w.fabric, {}) = passed at *
  obtain ⟨p, report⟩ := passed
  dsimp only at htraced hunfenced hlater hingest ⊢
  refine ⟨fun previous hprevious hboot => ?_, fun htaken => ?_, fun hadmitted => ?_⟩
  · obtain ⟨s, hs, hkey, hsame⟩ := htraced.window _ _ hprevious
    exact hnothing s hs (hsame.trans hboot) hkey
  · obtain ⟨g, counted, hok, haccepted, _⟩ := htaken
    by_cases haccepts : ∃ registration, p.Accepts sample registration
    · obtain ⟨registration, haccepts⟩ := haccepts
      exact ⟨haccepts.valid, haccepts.admits hheartbeat⟩
    · obtain ⟨_, heq, hsame, _⟩ := ingestSample_refuses (not_exists.mp haccepts) report
      rw [List.foldl_cons, List.foldl_nil, heq] at hingest
      obtain ⟨_, hcounted⟩ := Prod.mk.inj (hok.symm.trans hingest)
      rw [Except.ok.inj hcounted, hsame] at haccepted
      omega
  · obtain ⟨hvalid, hadmits⟩ := hadmitted
    obtain ⟨registration, hregistered⟩ := Option.isSome_iff_exists.mp (hlater.held _ _ hheld)
    have haccepts : p.Accepts sample registration := by
      refine ⟨hvalid, hepoch.trans hlater.epoch.symm, hregistered, ?_, ?_, fun _ => hadmits⟩
      · refine Bool.eq_false_iff.mpr fun hfenced => ?_
        rw [hunfenced _ _ hfenced] at hregistered
        cases hregistered
      · rcases htraced.generations _ _ _ hregistered with hzero | ⟨s, hs, hpublisher, hboot, hsame⟩
        · rw [hzero]
          exact Nat.zero_le _
        · rw [hsame]
          exact hgeneration s hs hpublisher hboot
    rw [List.foldl_cons, List.foldl_nil, ingestSample_accepts haccepts] at hingest
    refine ⟨_, _, hingest, rfl, ?_⟩
    unfold windowed
    rw [hheartbeat]
    exact SortedMap.find?_insert_self _ _ _

/-- A sample of the first queue of a resource. -/
def sampleOf (boot : BootId) (epoch : EpochId) (generation : EvidenceGeneration) : EvidenceSample where
  resource := ⟨1⟩
  queue := ⟨1⟩
  publisher := ⟨7⟩
  publisherBoot := boot
  epoch
  generation
  sequence := 1

/-- A publisher registers, reports under its fifth generation, says goodbye and registers under a
new boot. -/
def returning : List Action :=
  [.registerPublisher ⟨7⟩ ⟨9⟩ AuthoritySet.all,
    .ingest { samples := [sampleOf ⟨9⟩ memoryFabric.epoch ⟨5⟩] },
    .unregisterPublisher ⟨7⟩ ⟨9⟩ .none [], .registerPublisher ⟨7⟩ ⟨10⟩ AuthoritySet.all]

def returnedWorld : World := returning.foldl act ⟨memoryFabric, [], ∅⟩

/-- The first report of the new incarnation, under a generation. -/
def firstReport (generation : EvidenceGeneration) : EvidenceSample :=
  sampleOf ⟨10⟩ memoryFabric.epoch generation

set_option maxRecDepth 100000 in
theorem returnedWorld_facts : returnedWorld.fabric.closed = false ∧
    (returnedWorld.fabric.registered ⟨7⟩ ⟨10⟩).isSome = true ∧
    returnedWorld.fabric.epoch = memoryFabric.epoch ∧
    (returnedWorld.fabric.ingest { samples := [firstReport ⟨1⟩] }).2.toOption.map (·.accepted) =
      some 0 ∧
    (returnedWorld.fabric.evidence.find? (windowKey (firstReport ⟨6⟩))).any
      (fun previous => supersedes (firstReport ⟨6⟩) previous) = true := by
  decide +kernel

theorem returned_sent : sentSamples (actEvents ⟨memoryFabric, [], ∅⟩ returning) =
    [sampleOf ⟨9⟩ memoryFabric.epoch ⟨5⟩] := rfl

theorem fresh_sample_taken_iff_returned :
    TakesLast returnedWorld.fabric [] (firstReport ⟨6⟩) { samples := [firstReport ⟨6⟩] } := by
  obtain ⟨hclosed, hheld, hepoch, _, hsome⟩ := returnedWorld_facts
  obtain ⟨previous, hfind, hsupersedes⟩ := (Option.any_eq_true _ _).mp hsome
  have hheld' : returnedWorld.fabric.Holds (firstReport ⟨6⟩).publisher
      (firstReport ⟨6⟩).publisherBoot := hheld
  have run : Run Step ⟨memoryFabric, [], ∅⟩ _ returnedWorld := run_acts _ returning
  have hbatch : ({ samples := [firstReport ⟨6⟩] } : EvidenceBatch).samples = [] ++ [firstReport ⟨6⟩] :=
    rfl
  refine (fresh_sample_taken_iff openOn_memory run hclosed hbatch (by decide) hheld' hepoch.symm
    (by decide) ?_ ?_).2.mpr ⟨by decide, ?_⟩
  · intro s hs hboot
    rw [List.append_nil, returned_sent, List.mem_singleton] at hs
    rw [hs] at hboot
    exact absurd hboot (by decide)
  · intro s hs _ hboot
    rw [List.append_nil, returned_sent, List.mem_singleton] at hs
    rw [hs] at hboot
    exact absurd hboot (by decide)
  · change returnedWorld.fabric.Admits (firstReport ⟨6⟩)
    unfold Admits
    rw [hfind]
    exact hsupersedes

/-- What an incarnation left under a key blocks the first report of the next one. -/
theorem predecessor_blocks : ∃ es, Run Step ⟨memoryFabric, [], ∅⟩ es returnedWorld ∧
    returnedWorld.fabric.closed = false ∧ returnedWorld.fabric.Holds ⟨7⟩ ⟨10⟩ ∧
    (firstReport ⟨1⟩).epoch = returnedWorld.fabric.epoch ∧
    (∀ s ∈ sentSamples es, s.publisherBoot ≠ ⟨10⟩) ∧
    ¬TakesLast returnedWorld.fabric [] (firstReport ⟨1⟩) { samples := [firstReport ⟨1⟩] } := by
  obtain ⟨hclosed, hheld, hepoch, hrefused, _⟩ := returnedWorld_facts
  refine ⟨_, run_acts _ returning, hclosed, hheld, hepoch.symm, fun s hs => ?_, ?_⟩
  · rw [returned_sent, List.mem_singleton] at hs
    rw [hs]
    decide
  · rintro ⟨g, report, hok, haccepted, _⟩
    rw [hok] at hrefused
    have hnone : report.accepted = 0 := Option.some.inj hrefused
    rw [hnone] at haccepted
    exact absurd haccepted (by decide)

end World

end CongestionFabric
