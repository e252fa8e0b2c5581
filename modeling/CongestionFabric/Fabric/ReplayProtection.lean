import CongestionFabric.Fabric.Membership

namespace CongestionFabric

/-- The samples a report accounts for. -/
def IngestReport.accounted (report : IngestReport) : Nat :=
  report.accepted + report.rejected + report.duplicate

namespace Fabric

variable {f g : Fabric} {sample previous : EvidenceSample} {registration : PublisherRegistration}
  {report : IngestReport}

/-- The sample comes after the other by generation, then by sequence. -/
def Exceeds (sample previous : EvidenceSample) : Prop :=
  previous.generation < sample.generation ∨
    previous.generation = sample.generation ∧ previous.sequence < sample.sequence

theorem Exceeds.trans {newer : EvidenceSample} (h : Exceeds newer sample)
    (h' : Exceeds sample previous) : Exceeds newer previous := by
  rcases h with hg | ⟨hg, hs⟩ <;> rcases h' with hg' | ⟨hg', hs'⟩
  · exact .inl (hg'.trans hg)
  · exact .inl (hg' ▸ hg)
  · exact .inl (hg ▸ hg')
  · exact .inr ⟨hg'.trans hg, UInt64.lt_trans hs' hs⟩

theorem exceeds_of_supersedes (h : supersedes sample previous = true) : Exceeds sample previous := by
  simp only [supersedes, Bool.or_eq_true, Bool.and_eq_true, decide_eq_true_eq] at h
  rcases h with hg | ⟨hg, _, hs⟩
  · exact .inl hg
  · exact .inr ⟨hg.symm, hs⟩

theorem supersedes_trans {newer : EvidenceSample} (h : supersedes newer previous = true)
    (hs : supersedes sample newer = true) : supersedes sample previous = true := by
  simp only [supersedes, Bool.or_eq_true, Bool.and_eq_true, decide_eq_true_eq] at h hs ⊢
  rcases h with hg | ⟨hg, ⟨hn, hp⟩, hlt⟩ <;> rcases hs with hg' | ⟨hg', ⟨hs', hn'⟩, hlt'⟩
  · exact .inl (hg.trans hg')
  · exact .inl (hg' ▸ hg)
  · exact .inl (hg ▸ hg')
  · exact .inr ⟨hg'.trans hg, ⟨hs', hp⟩, UInt64.lt_trans hlt hlt'⟩

theorem not_supersedes_self (sample : EvidenceSample) : supersedes sample sample = false := by
  unfold supersedes
  simp

/-! ### One sample -/

/-- The window has room for a sample under a new key, or an older sample under its key. -/
def Admits (f : Fabric) (sample : EvidenceSample) : Prop :=
  match f.evidence.find? (windowKey sample) with
  | none => f.evidence.size < f.options.maxEvidenceEntries
  | some previous => supersedes sample previous = true

/-- The sample of a registered, unfenced incarnation, of the present epoch and of no generation
before the last, that the window admits if it is not a heartbeat. -/
structure Accepts (f : Fabric) (sample : EvidenceSample) (registration : PublisherRegistration) :
    Prop where
  valid : sample.resource.valid = true
  epoch : sample.epoch = f.epoch
  registered : f.registered sample.publisher sample.publisherBoot = some registration
  unfenced : f.isFenced sample.publisher sample.publisherBoot = false
  generation : registration.lastGeneration ≤ sample.generation
  admits : sample.isHeartbeat = false → f.Admits sample

/-- The fabric with a sample in its window, unless the sample is a heartbeat. -/
def windowed (f : Fabric) (sample : EvidenceSample) : Fabric :=
  if sample.isHeartbeat then f
  else { f with evidence := f.evidence.insert (windowKey sample) (f.received sample) }

theorem admitToWindow_of_admits (h : sample.isHeartbeat = false → f.Admits sample) :
    f.admitToWindow (f.received sample) = .ok (f.windowed sample) := by
  have hheartbeat : (f.received sample).isHeartbeat = sample.isHeartbeat := rfl
  have hkey : windowKey (f.received sample) = windowKey sample := rfl
  unfold admitToWindow windowed
  rw [hheartbeat, hkey]
  cases hb : sample.isHeartbeat with
  | true => rfl
  | false =>
    have hadmits := h hb
    unfold Admits at hadmits
    rw [if_neg Bool.false_ne_true, if_neg Bool.false_ne_true]
    cases hfind : f.evidence.find? (windowKey sample) with
    | none =>
      rw [hfind] at hadmits
      exact if_neg (not_le.mpr hadmits)
    | some previous =>
      rw [hfind] at hadmits
      exact if_pos hadmits

theorem ingestSample_accepts (h : f.Accepts sample registration) (report : IngestReport) :
    ingestSample (f, report) sample =
      ((f.windowed sample).noteSeen registration (f.received sample), report.acceptOne) := by
  have hvalid : ¬¬sample.resource.valid = true := not_not.mpr h.valid
  have hepoch : ¬sample.epoch ≠ f.epoch := not_not.mpr h.epoch
  have hfenced : ¬f.isFenced sample.publisher sample.publisherBoot = true := by
    rw [h.unfenced]
    exact Bool.false_ne_true
  unfold ingestSample
  dsimp only
  rw [if_neg hvalid, if_neg hepoch, h.registered]
  dsimp only
  rw [if_neg hfenced, if_neg (not_lt.mpr h.generation), admitToWindow_of_admits h.admits]

/-- A sample that is not accepted leaves the fabric, and counts once as rejected or as duplicate. -/
theorem ingestSample_refuses (h : ∀ registration, ¬f.Accepts sample registration)
    (report : IngestReport) :
    ∃ report', ingestSample (f, report) sample = (f, report') ∧
      report'.accepted = report.accepted ∧
      report'.rejected + report'.duplicate = report.rejected + report.duplicate + 1 := by
  have hreject : ∀ count : IngestReport → IngestReport, (count report).accepted = report.accepted →
      (count report).rejected = report.rejected → (count report).duplicate = report.duplicate →
      (report.rejectWith count).accepted = report.accepted ∧
        (report.rejectWith count).rejected + (report.rejectWith count).duplicate =
          report.rejected + report.duplicate + 1 := by
    intro count ha hr hd
    refine ⟨ha, ?_⟩
    unfold IngestReport.rejectWith
    dsimp only
    omega
  unfold ingestSample
  dsimp only
  split
  next => exact ⟨_, rfl, hreject _ rfl rfl rfl⟩
  next hvalid =>
    split
    next => exact ⟨_, rfl, hreject _ rfl rfl rfl⟩
    next hepoch =>
      split
      next => exact ⟨_, rfl, hreject _ rfl rfl rfl⟩
      next registration hregistered =>
        split
        next => exact ⟨_, rfl, hreject _ rfl rfl rfl⟩
        next hfenced =>
          split
          next => exact ⟨_, rfl, hreject _ rfl rfl rfl⟩
          next hgeneration =>
            by_cases hadmits : sample.isHeartbeat = false → f.Admits sample
            · exact absurd ⟨not_not.mp hvalid, not_not.mp hepoch, hregistered,
                Bool.eq_false_iff.mpr hfenced, not_lt.mp hgeneration, hadmits⟩ (h registration)
            · obtain ⟨hheartbeat, hadmits⟩ := Classical.not_imp.mp hadmits
              have hsame : (f.received sample).isHeartbeat = false := hheartbeat
              have hkey : windowKey (f.received sample) = windowKey sample := rfl
              unfold Admits at hadmits
              unfold admitToWindow
              rw [hsame, hkey, if_neg Bool.false_ne_true]
              cases hfind : f.evidence.find? (windowKey sample) with
              | none =>
                rw [hfind] at hadmits
                dsimp only
                rw [if_pos (not_lt.mp hadmits)]
                exact ⟨_, rfl, hreject _ rfl rfl rfl⟩
              | some previous =>
                rw [hfind] at hadmits
                have hdiffers : ¬supersedes (f.received sample) previous = true := hadmits
                dsimp only
                rw [if_neg hdiffers]
                exact ⟨_, rfl, rfl, by dsimp only; omega⟩

/-- Every sample counts once. -/
theorem ingestSample_counts (f : Fabric) (report : IngestReport) (sample : EvidenceSample) :
    (ingestSample (f, report) sample).2.accounted = report.accounted + 1 := by
  unfold IngestReport.accounted
  by_cases h : ∃ registration, f.Accepts sample registration
  · obtain ⟨registration, h⟩ := h
    rw [ingestSample_accepts h]
    unfold IngestReport.acceptOne
    dsimp only
    omega
  · obtain ⟨_, heq, haccepted, hrest⟩ := ingestSample_refuses (not_exists.mp h) report
    rw [heq]
    dsimp only
    omega

theorem ingestAll_counts (samples : List EvidenceSample) (f : Fabric) (report : IngestReport) :
    (samples.foldl ingestSample (f, report)).2.accounted = report.accounted + samples.length := by
  induction samples generalizing f report with
  | nil => rfl
  | cons sample rest ih =>
    have hfirst := ingestSample_counts f report sample
    have hrest := ih (ingestSample (f, report) sample).1 (ingestSample (f, report) sample).2
    rw [hfirst, Nat.add_assoc, Nat.add_comm 1] at hrest
    exact hrest

/-- A heartbeat stays out of the window. -/
theorem ingestSample_heartbeat (h : sample.isHeartbeat = true) (report : IngestReport) :
    (ingestSample (f, report) sample).1.evidence = f.evidence := by
  by_cases hacc : ∃ registration, f.Accepts sample registration
  · obtain ⟨registration, hacc⟩ := hacc
    rw [ingestSample_accepts hacc, windowed, if_pos h]
    rfl
  · obtain ⟨_, heq, _⟩ := ingestSample_refuses (not_exists.mp hacc) report
    rw [heq]

/-! ### Later samples of a batch -/

/-- What ingesting leaves: the same incarnations, no generation below the last one, a window whose
entries were only replaced by later ones, and no new keys in a full window. -/
structure Later (f g : Fabric) : Prop where
  epoch : g.epoch = f.epoch
  options : g.options = f.options
  fences : g.fences = f.fences
  registered : ∀ publisher boot registration, g.registered publisher boot = some registration →
    ∃ earlier, f.registered publisher boot = some earlier ∧
      earlier.lastGeneration ≤ registration.lastGeneration
  held : ∀ publisher boot, f.Holds publisher boot → g.Holds publisher boot
  kept : ∀ key previous, f.evidence.find? key = some previous → ∃ sample,
    g.evidence.find? key = some sample ∧ (sample = previous ∨ supersedes sample previous = true)
  grown : f.evidence.size ≤ g.evidence.size
  full : f.options.maxEvidenceEntries ≤ f.evidence.size → ∀ key, f.evidence.find? key = none →
    g.evidence.find? key = none

theorem Later.refl (f : Fabric) : Later f f :=
  ⟨rfl, rfl, rfl, fun _ _ registration h => ⟨registration, h, le_refl _⟩, fun _ _ h => h,
    fun _ previous h => ⟨previous, h, .inl rfl⟩, Nat.le_refl _, fun _ _ h => h⟩

theorem Later.trans {f₁ f₂ f₃ : Fabric} (h : Later f₁ f₂) (h' : Later f₂ f₃) : Later f₁ f₃ := by
  refine ⟨h'.epoch.trans h.epoch, h'.options.trans h.options, h'.fences.trans h.fences, ?_,
    fun publisher boot hf => h'.held publisher boot (h.held publisher boot hf), ?_,
    h.grown.trans h'.grown, ?_⟩
  · intro publisher boot registration hr
    obtain ⟨middle, hm, hle⟩ := h'.registered publisher boot registration hr
    obtain ⟨earlier, he, hle'⟩ := h.registered publisher boot middle hm
    exact ⟨earlier, he, hle'.trans hle⟩
  · intro key previous hp
    obtain ⟨middle, hm, hmiddle⟩ := h.kept key previous hp
    obtain ⟨last, hl, hlast⟩ := h'.kept key middle hm
    refine ⟨last, hl, ?_⟩
    rcases hlast with rfl | hlast
    · exact hmiddle
    · rcases hmiddle with rfl | hmiddle
      · exact .inr hlast
      · exact .inr (supersedes_trans hmiddle hlast)
  · intro hfull key hnone
    refine h'.full ?_ key (h.full hfull key hnone)
    rw [h.options]
    exact hfull.trans h.grown

/-- What a window refuses, every later window refuses. -/
theorem Later.refuses (h : Later f g) (hheartbeat : sample.isHeartbeat = false)
    (hrefused : ∀ registration, ¬f.Accepts sample registration) :
    ∀ registration, ¬g.Accepts sample registration := by
  intro registration haccepts
  obtain ⟨earlier, hearlier, hle⟩ := h.registered _ _ _ haccepts.registered
  refine hrefused earlier ⟨haccepts.valid, haccepts.epoch.trans h.epoch, hearlier, ?_,
    hle.trans haccepts.generation, fun _ => ?_⟩
  · have hunfenced := haccepts.unfenced
    unfold isFenced at hunfenced ⊢
    rwa [h.fences] at hunfenced
  · have hadmits := haccepts.admits hheartbeat
    unfold Admits at hadmits ⊢
    cases hfind : f.evidence.find? (windowKey sample) with
    | none =>
      by_contra hfull
      rw [h.full (not_lt.mp hfull) _ hfind, h.options] at hadmits
      have hgrown := h.grown
      dsimp only at hadmits hfull
      omega
    | some previous =>
      obtain ⟨later, hlater, hsame⟩ := h.kept _ _ hfind
      rw [hlater] at hadmits
      rcases hsame with rfl | hsupersedes
      · exact hadmits
      · exact supersedes_trans hsupersedes hadmits

theorem registered_noteSeen {publisher : PublisherId} {boot : BootId}
    {seen : PublisherRegistration}
    (hregistered : g.registered sample.publisher sample.publisherBoot = some registration)
    (hseen : (g.noteSeen registration sample).registered publisher boot = some seen) :
    ∃ earlier, g.registered publisher boot = some earlier ∧
      earlier.lastGeneration ≤ seen.lastGeneration := by
  obtain ⟨_, hboot⟩ := registered_find hregistered
  change (g.enroll sample.publisher _).registered publisher boot = some seen at hseen
  rw [registered_enroll] at hseen
  by_cases hp : publisher = sample.publisher
  · rw [if_pos hp] at hseen
    by_cases hb : registration.boot = boot
    · rw [if_pos hb] at hseen
      obtain rfl := Option.some.inj hseen
      refine ⟨registration, ?_, le_max_left _ _⟩
      rw [hp, ← hb, hboot]
      exact hregistered
    · rw [if_neg hb] at hseen
      cases hseen
  · rw [if_neg hp] at hseen
    exact ⟨seen, hseen, le_refl _⟩

theorem holds_noteSeen {publisher : PublisherId} {boot : BootId}
    (hregistered : g.registered sample.publisher sample.publisherBoot = some registration)
    (hheld : g.Holds publisher boot) : (g.noteSeen registration sample).Holds publisher boot := by
  obtain ⟨hfind, hboot⟩ := registered_find hregistered
  change ((g.enroll sample.publisher _).registered publisher boot).isSome = true
  rw [registered_enroll]
  by_cases hp : publisher = sample.publisher
  · obtain ⟨found, hfound⟩ := Option.isSome_iff_exists.mp hheld
    obtain ⟨hfind', hboot'⟩ := registered_find hfound
    rw [hp, hfind] at hfind'
    obtain rfl := Option.some.inj hfind'
    rw [if_pos hp, if_pos hboot']
    rfl
  · rw [if_neg hp]
    exact hheld

theorem windowed_later (hadmits : sample.isHeartbeat = false → f.Admits sample) :
    (∀ key previous, f.evidence.find? key = some previous → ∃ sample',
      (f.windowed sample).evidence.find? key = some sample' ∧
        (sample' = previous ∨ supersedes sample' previous = true)) ∧
    f.evidence.size ≤ (f.windowed sample).evidence.size ∧
    (f.options.maxEvidenceEntries ≤ f.evidence.size → ∀ key, f.evidence.find? key = none →
      (f.windowed sample).evidence.find? key = none) := by
  unfold windowed
  cases hheartbeat : sample.isHeartbeat with
  | true => exact ⟨fun key previous h => ⟨previous, h, .inl rfl⟩, Nat.le_refl _, fun _ _ h => h⟩
  | false =>
    have hadmits := hadmits hheartbeat
    unfold Admits at hadmits
    rw [if_neg Bool.false_ne_true]
    dsimp only
    refine ⟨?_, ?_, ?_⟩
    · intro key previous hfind
      rw [SortedMap.find?_insert]
      split_ifs with hkey
      · rw [← hkey, hfind] at hadmits
        exact ⟨_, rfl, .inr hadmits⟩
      · exact ⟨previous, hfind, .inl rfl⟩
    · rw [SortedMap.size_insert]
      split_ifs
      · exact Nat.le_refl _
      · exact Nat.le_succ _
    · intro hfull key hnone
      rw [SortedMap.find?_insert_ne _ _ ?_]
      · exact hnone
      · intro hkey
        rw [← hkey, hnone] at hadmits
        exact absurd hadmits (not_lt.mpr hfull)

theorem ingestSample_later (f : Fabric) (report : IngestReport) (sample : EvidenceSample) :
    Later f (ingestSample (f, report) sample).1 := by
  by_cases h : ∃ registration, f.Accepts sample registration
  · obtain ⟨registration, h⟩ := h
    rw [ingestSample_accepts h]
    have hframe : (f.windowed sample).epoch = f.epoch ∧ (f.windowed sample).options = f.options ∧
        (f.windowed sample).fences = f.fences ∧ (f.windowed sample).publishers = f.publishers := by
      unfold windowed
      split_ifs <;> exact ⟨rfl, rfl, rfl, rfl⟩
    obtain ⟨hepoch, hoptions, hfences, hpublishers⟩ := hframe
    obtain ⟨hkept, hgrown, hfull⟩ := windowed_later h.admits
    have hsame : ∀ p b, (f.windowed sample).registered p b = f.registered p b := by
      intro p b
      unfold registered
      rw [hpublishers]
    refine ⟨hepoch, hoptions, hfences, fun publisher boot seen hseen => ?_,
      fun publisher boot hheld => ?_, hkept, hgrown, hfull⟩
    · obtain ⟨earlier, hearlier, hle⟩ := @registered_noteSeen (f.windowed sample)
        (f.received sample) registration publisher boot seen ((hsame _ _).trans h.registered) hseen
      exact ⟨earlier, (hsame _ _).symm.trans hearlier, hle⟩
    · exact @holds_noteSeen (f.windowed sample) (f.received sample) registration publisher boot
        ((hsame _ _).trans h.registered) ((Holds.congr hpublishers).mpr hheld)
  · obtain ⟨_, heq, _⟩ := ingestSample_refuses (not_exists.mp h) report
    rw [heq]
    exact .refl f

theorem ingestAll_later (samples : List EvidenceSample) (f : Fabric) (report : IngestReport) :
    Later f (samples.foldl ingestSample (f, report)).1 := by
  induction samples generalizing f report with
  | nil => exact .refl f
  | cons sample rest ih =>
    exact (ingestSample_later f report sample).trans
      (ih (ingestSample (f, report) sample).1 (ingestSample (f, report) sample).2)

/-- A sample that is no heartbeat is not accepted twice. -/
theorem ingestSample_spent (report : IngestReport) (hheartbeat : sample.isHeartbeat = false) :
    ∀ registration, ¬(ingestSample (f, report) sample).1.Accepts sample registration := by
  by_cases h : ∃ registration, f.Accepts sample registration
  · obtain ⟨registration, h⟩ := h
    rw [ingestSample_accepts h]
    intro again haccepts
    have hfind : ((f.windowed sample).noteSeen registration (f.received sample)).evidence.find?
        (windowKey sample) = some (f.received sample) := by
      unfold windowed
      rw [hheartbeat]
      exact SortedMap.find?_insert_self _ _ _
    have hadmits := haccepts.admits hheartbeat
    unfold Admits at hadmits
    rw [hfind] at hadmits
    have hself : supersedes sample (f.received sample) = false := not_supersedes_self sample
    exact Bool.false_ne_true (hself.symm.trans hadmits)
  · obtain ⟨_, heq, _⟩ := ingestSample_refuses (not_exists.mp h) report
    rw [heq]
    exact not_exists.mp h

/-- After a batch none of its samples would be accepted, heartbeats apart. -/
theorem ingestAll_spent {samples : List EvidenceSample} (hsample : sample ∈ samples)
    (hheartbeat : sample.isHeartbeat = false) (f : Fabric) (report : IngestReport) :
    ∀ registration, ¬(samples.foldl ingestSample (f, report)).1.Accepts sample registration := by
  induction samples generalizing f report with
  | nil => exact absurd hsample List.not_mem_nil
  | cons first rest ih =>
    rcases List.mem_cons.mp hsample with rfl | hrest
    · exact (ingestAll_later rest (ingestSample (f, report) sample).1
        (ingestSample (f, report) sample).2).refuses hheartbeat
          (ingestSample_spent report hheartbeat)
    · exact ih hrest (ingestSample (f, report) first).1 (ingestSample (f, report) first).2

/-- The sample counts as accepted after what was ingested before it. -/
def CountsAccepted (acc : Fabric × IngestReport) (sample : EvidenceSample) : Prop :=
  (ingestSample acc sample).2.accepted = acc.2.accepted + 1

/-- Samples that are spent, heartbeats among them, leave the window, and only heartbeats count as
accepted. -/
theorem ingestAll_again {samples : List EvidenceSample}
    (hspent : ∀ sample ∈ samples, sample.isHeartbeat = false →
      ∀ registration, ¬f.Accepts sample registration) (report : IngestReport) :
    (samples.foldl ingestSample (f, report)).1.evidence = f.evidence ∧
      ∀ before sample after, samples = before ++ sample :: after →
        CountsAccepted (before.foldl ingestSample (f, report)) sample → sample.isHeartbeat = true := by
  have hpassed : ∀ before : List EvidenceSample, (∀ s ∈ before, s ∈ samples) →
      (before.foldl ingestSample (f, report)).1.evidence = f.evidence ∧
        Later f (before.foldl ingestSample (f, report)).1 := by
    intro before hmem
    refine ⟨?_, ingestAll_later before f report⟩
    induction before using List.reverseRecOn with
    | nil => rfl
    | append_singleton before last ih =>
      have hbefore := ih fun s hs => hmem s (List.mem_append_left _ hs)
      have hlast := hmem last (List.mem_append_right _ (List.mem_singleton_self last))
      rw [List.foldl_append]
      refine Eq.trans ?_ hbefore
      cases hheartbeat : last.isHeartbeat with
      | true => exact ingestSample_heartbeat hheartbeat (before.foldl ingestSample (f, report)).2
      | false =>
        have hrefused := (ingestAll_later before f report).refuses hheartbeat
          (hspent last hlast hheartbeat)
        obtain ⟨_, heq, _⟩ :=
          ingestSample_refuses hrefused (before.foldl ingestSample (f, report)).2
        exact congrArg (fun acc => acc.1.evidence) heq
  refine ⟨(hpassed samples fun _ h => h).1, fun before sample after hsplit hcounted => ?_⟩
  by_contra hno
  have hheartbeat : sample.isHeartbeat = false := Bool.eq_false_iff.mpr hno
  have hsample : sample ∈ samples := by
    rw [hsplit]
    exact List.mem_append_right _ List.mem_cons_self
  have hrefused := (ingestAll_later before f report).refuses hheartbeat
    (hspent sample hsample hheartbeat)
  obtain ⟨_, heq, hsame, _⟩ :=
    ingestSample_refuses hrefused (before.foldl ingestSample (f, report)).2
  have hkept : (ingestSample (before.foldl ingestSample (f, report)) sample).2.accepted =
      (before.foldl ingestSample (f, report)).2.accepted :=
    (congrArg (fun acc => acc.2.accepted) heq).trans hsame
  unfold CountsAccepted at hcounted
  omega

theorem ingest_ok {batch : EvidenceBatch} (hopen : f.closed = false)
    (hcount : batch.samples.length ≤ limits.kMaxEvidencePerBatch) :
    f.ingest batch = ((batch.samples.foldl ingestSample (f, {})).1,
      .ok (batch.samples.foldl ingestSample (f, {})).2) := by
  have hensure : f.ensureOpen = .ok () := refuseIf_ok.mpr (by rw [hopen]; exact Bool.false_ne_true)
  have hchecks : (do
      refuseIf (batch.samples.length > limits.kMaxEvidencePerBatch) .limitExceeded
        "evidence batch exceeds the permitted sample count"
      f.ensureOpen : VoidResult) = .ok () :=
    bind_ok.mpr ⟨(), refuseIf_ok.mpr (not_lt.mpr hcount), hensure⟩
  unfold ingest checked
  rw [hchecks]

end Fabric

namespace World

open Fabric

variable {w w' : World} {a : Action} {key : WindowKey} {previous : EvidenceSample}

/-- What can take a sample out of the window: a fence of its incarnation, an epoch advance or a
restart. -/
inductive Erases (f : Fabric) (previous : EvidenceSample) : Input → Prop where
  | fence {a : Action}
      (hfence : (previous.publisher, previous.publisherBoot) ∈ f.fencing a) :
      Erases f previous (.act a)
  | epoch (reason : FenceReason) : Erases f previous (.act (.advanceEpoch reason))
  | restart (options : FabricOptions) (clock : Tick) (disk : Disk) :
      Erases f previous (.restart options clock disk)

/-- An action keeps what is under a key, replaces it by a later sample or erases it. -/
theorem act_window (w : World) (a : Action) (hfind : w.fabric.evidence.find? key = some previous) :
    (∃ sample, (w.act a).fabric.evidence.find? key = some sample ∧
      (sample = previous ∨ Exceeds sample previous)) ∨
    (w.act a).fabric.evidence.find? key = none ∧ Erases w.fabric previous (.act a) := by
  obtain ⟨w', store, he, heq⟩ := act_effect w a
  rw [heq]
  change (∃ sample, w'.fabric.evidence.find? key = some sample ∧ _) ∨
    w'.fabric.evidence.find? key = none ∧ _
  have hforget : ∀ p b, (w.fabric.forgetPublisher p b).evidence = w.fabric.evidence := by
    intro p b
    unfold forgetPublisher
    split <;> rfl
  cases he with
  | departed p b =>
    refine .inl ⟨previous, ?_, .inl rfl⟩
    change (w.fabric.forgetPublisher p b).evidence.find? key = _
    rw [hforget]
    exact hfind
  | @fenced a record hfencing =>
    change (∃ sample, (w.fabric.fenced record).evidence.find? key = some sample ∧ _) ∨
      (w.fabric.fenced record).evidence.find? key = none ∧ _
    have hevidence : (w.fabric.fenced record).evidence.find? key =
        (w.fabric.evidence.find? key).filter fun sample =>
          sample.publisher ≠ record.publisher ∨ sample.publisherBoot ≠ record.boot := by
      rw [← hforget record.publisher record.boot]
      refine (SortedMap.find?_filter _ _ key).trans ?_
      refine congrArg (Option.filter · _) (funext fun sample => ?_)
      simp
    rw [hevidence, hfind]
    by_cases hother : previous.publisher ≠ record.publisher ∨ previous.publisherBoot ≠ record.boot
    · exact .inl ⟨previous, by rw [Option.filter_some, if_pos (decide_eq_true hother)], .inl rfl⟩
    · refine .inr ⟨by rw [Option.filter_some, if_neg (by rwa [decide_eq_true_eq])], .fence ?_⟩
      obtain ⟨hpublisher, hboot⟩ := not_or.mp hother
      rw [hfencing, not_not.mp hpublisher, not_not.mp hboot]
      exact List.mem_singleton_self _
  | ingested batch =>
    obtain ⟨sample, hsample, hlater⟩ :=
      (ingestAll_later batch.samples w.fabric {}).kept key previous hfind
    exact .inl ⟨sample, hsample, hlater.imp_right exceeds_of_supersedes⟩
  | @epoch reason =>
    obtain ⟨fences, hnext⟩ := nextEpoch_eq w.fabric reason
    refine .inr ⟨?_, .epoch reason⟩
    change (w.fabric.nextEpoch reason).evidence.find? key = none
    rw [hnext]
    rfl
  | _ => exact .inl ⟨previous, hfind, .inl rfl⟩

theorem Step.window {i : Input} (h : Step w i w')
    (hfind : w.fabric.evidence.find? key = some previous) :
    (∃ sample, w'.fabric.evidence.find? key = some sample ∧
      (sample = previous ∨ Exceeds sample previous)) ∨
    w'.fabric.evidence.find? key = none ∧ Erases w.fabric previous i := by
  cases h with
  | act a => exact act_window w a hfind
  | @restart options clock disk fabric hopen =>
    obtain ⟨_, _, hopened⟩ := openOn_ok hopen
    refine .inr ⟨?_, .restart options clock disk⟩
    change fabric.evidence.find? key = none
    rw [hopened.evidence]
    rfl

/-- Over a run what is under a key stays or is replaced by later samples, until it is erased. -/
theorem run_window {es : List (Event World Input)} (run : Run Step w es w')
    (hfind : w.fabric.evidence.find? key = some previous) :
    (∃ sample, w'.fabric.evidence.find? key = some sample ∧
      (sample = previous ∨ Exceeds sample previous)) ∨
    ∃ e ∈ es, ∃ erased, e.before.fabric.evidence.find? key = some erased ∧
      (erased = previous ∨ Exceeds erased previous) ∧
      e.after.fabric.evidence.find? key = none ∧ Erases e.before.fabric erased e.input := by
  induction run with
  | start => exact .inl ⟨previous, hfind, .inl rfl⟩
  | @next es s s' i _ hstep ih =>
    rcases ih with ⟨sample, hsample, hlater⟩ | ⟨e, he, herased⟩
    · rcases hstep.window hsample with ⟨newer, hnewer, hlast⟩ | ⟨hnone, herases⟩
      · refine .inl ⟨newer, hnewer, ?_⟩
        rcases hlast with rfl | hlast
        · exact hlater
        · rcases hlater with rfl | hlater
          · exact .inr hlast
          · exact .inr (hlast.trans hlater)
      · refine .inr ⟨⟨s, i, s'⟩, ?_, sample, hsample, hlater, hnone, herases⟩
        exact List.mem_append_right _ (List.mem_singleton_self _)
    · exact .inr ⟨e, List.mem_append_left _ he, herased⟩

/-- An open fabric accounts for each sample of a batch, replaces what is under a key by later samples
only, keeps heartbeats out of the window, and takes nothing but heartbeats from the same batch again.
Over every run what is under a key of the window only gives way to later samples, until a fence, an
epoch advance or a restart erases it. -/
theorem ingest_accounts (w : World) :
    (∀ batch : EvidenceBatch, batch.samples.length ≤ limits.kMaxEvidencePerBatch →
      w.fabric.closed = false → ∃ g report, w.fabric.ingest batch = (g, .ok report) ∧
        report.accepted + report.rejected + report.duplicate = batch.samples.length ∧
        (∀ before sample after, batch.samples = before ++ sample :: after →
          let passed := before.foldl ingestSample (w.fabric, {})
          (∀ key previous, passed.1.evidence.find? key = some previous → ∃ sample',
            (ingestSample passed sample).1.evidence.find? key = some sample' ∧
              (sample' = previous ∨ Exceeds sample' previous)) ∧
          (sample.isHeartbeat = true →
            (ingestSample passed sample).1.evidence = passed.1.evidence)) ∧
        ∃ again report', g.ingest batch = (again, .ok report') ∧ again.evidence = g.evidence ∧
          ∀ before sample after, batch.samples = before ++ sample :: after →
            CountsAccepted (before.foldl ingestSample (g, {})) sample → sample.isHeartbeat = true) ∧
    ∀ es w', Run Step w es w' → ∀ key previous, w.fabric.evidence.find? key = some previous →
      (∃ sample, w'.fabric.evidence.find? key = some sample ∧
        (sample = previous ∨ Exceeds sample previous)) ∨
      ∃ e ∈ es, ∃ erased, e.before.fabric.evidence.find? key = some erased ∧
        (erased = previous ∨ Exceeds erased previous) ∧
        e.after.fabric.evidence.find? key = none ∧ Erases e.before.fabric erased e.input := by
  refine ⟨fun batch hcount hclosed => ?_, fun es w' run key previous hfind => run_window run hfind⟩
  have hfirst := ingest_ok hclosed hcount
  have hclosed' : (batch.samples.foldl ingestSample (w.fabric, {})).1.closed = false :=
    (ingestAll_received batch.samples w.fabric {}).closed.trans hclosed
  have hagain := ingest_ok hclosed' hcount
  obtain ⟨hwindow, hheartbeats⟩ := ingestAll_again
    (fun sample hs hb => ingestAll_spent hs hb w.fabric {}) ({} : IngestReport)
  refine ⟨_, _, hfirst, ?_, ?_, _, _, hagain, hwindow, hheartbeats⟩
  · have hcounts := ingestAll_counts batch.samples w.fabric {}
    unfold IngestReport.accounted at hcounts
    rw [hcounts]
    exact Nat.zero_add _
  · intro before sample after _ passed
    refine ⟨fun key previous hfind => ?_, fun hheartbeat => ?_⟩
    · obtain ⟨sample', hsample, hlater⟩ :=
        (ingestSample_later passed.1 passed.2 sample).kept key previous hfind
      exact ⟨sample', hsample, hlater.imp_right exceeds_of_supersedes⟩
    · exact ingestSample_heartbeat hheartbeat passed.2

end World

end CongestionFabric
