import CongestionFabric.Durability.JournalFraming
import CongestionFabric.Durability.StoreCodec

namespace CongestionFabric

/-- In front of anything a reader reads back what was written, unless one of its checks fails. -/
def Recovers {α : Type} (checks : Prop) (reader : ByteReader α) (bytes : Bytes) (a : α) : Prop :=
  bytes.length < 2 ^ 64 → ∀ rest,
    (checks → reader (bytes ++ rest) = .ok (a, rest)) ∧
      (¬checks → ∃ status, reader (bytes ++ rest) = .error status)

namespace Recovers

variable {α β : Type} {reader : ByteReader α} {next : α → ByteReader β} {bytes bytes' : Bytes}
  {a : α} {b : β} {checks checks' : Prop}

theorem of_append (h : ∀ rest, reader (bytes ++ rest) = .ok (a, rest)) :
    Recovers True reader bytes a :=
  fun _ rest => ⟨fun _ => h rest, fun hno => (hno trivial).elim⟩

theorem pure (a : α) : Recovers True (Pure.pure a) [] a := .of_append fun _ => rfl

theorem bindChecks (h : Recovers checks reader bytes a)
    (h' : Recovers checks' (next a) bytes' b) :
    Recovers (checks ∧ checks') (reader >>= next) (bytes ++ bytes') b := by
  intro hlen rest
  rw [List.length_append] at hlen
  obtain ⟨hok, hfail⟩ := h (by omega) (bytes' ++ rest)
  obtain ⟨hok', hfail'⟩ := h' (by omega) rest
  rw [List.append_assoc]
  by_cases hc : checks
  · have hstep : (reader >>= next) (bytes ++ (bytes' ++ rest)) = next a (bytes' ++ rest) :=
      ByteReader.bind_append (hok hc)
    rw [hstep]
    exact ⟨fun hcs => hok' hcs.2, fun hno => hfail' fun hc' => hno ⟨hc, hc'⟩⟩
  · obtain ⟨status, hs⟩ := hfail hc
    refine ⟨fun hcs => absurd hcs.1 hc, fun _ => ⟨status, ?_⟩⟩
    simp [Bind.bind, StateT.bind, hs, Except.bind]

/-- A field without checks. -/
theorem bind (h : Recovers True reader bytes a) (h' : Recovers checks (next a) bytes' b) :
    Recovers checks (reader >>= next) (bytes ++ bytes') b := by
  have hbind := h.bindChecks h'
  rwa [true_and] at hbind

/-- The last field with checks. -/
theorem bindLast (h : Recovers checks reader bytes a) (h' : Recovers True (next a) bytes' b) :
    Recovers checks (reader >>= next) (bytes ++ bytes') b := by
  have hbind := h.bindChecks h'
  rwa [and_true] at hbind

/-- The last field of a record. -/
theorem last {f : α → β} (h : Recovers checks reader bytes a) :
    Recovers checks (reader >>= fun a => Pure.pure (f a)) bytes (f a) := by
  have hbind : Recovers (checks ∧ True) (reader >>= fun a => Pure.pure (f a)) (bytes ++ []) (f a) :=
    h.bindChecks (.pure (f a))
  rwa [List.append_nil, and_true] at hbind

theorem congr {a' : α} (h : Recovers checks reader bytes a') (ha : a' = a) :
    Recovers checks reader bytes a := ha ▸ h

theorem u8 (value : UInt8) : Recovers True ByteReader.u8 (ByteWriter.u8 value) value :=
  .of_append (ByteReader.u8_append value)

theorem u16 (value : UInt16) : Recovers True ByteReader.u16 (ByteWriter.u16 value) value :=
  .of_append (ByteReader.u16_append value)

theorem u32 (value : UInt32) : Recovers True ByteReader.u32 (ByteWriter.u32 value) value :=
  .of_append (ByteReader.u32_append value)

theorem u64 (value : UInt64) : Recovers True ByteReader.u64 (ByteWriter.u64 value) value :=
  .of_append (ByteReader.u64_append value)

theorem i64 (value : Int64) : Recovers True ByteReader.i64 (ByteWriter.i64 value) value :=
  ((Recovers.u64 value.toUInt64).last (f := UInt64.toInt64)).congr (by simp)

theorem boolean (value : Bool) :
    Recovers True ByteReader.boolean (ByteWriter.boolean value) value :=
  ((Recovers.u8 (if value then 1 else 0)).last (f := fun n => decide (n ≠ 0))).congr (by
    cases value <;> rfl)

theorem id {tag : IdTag} (value : StrongId tag) :
    Recovers True (ByteReader.id tag) value.put value :=
  (Recovers.u64 value.value).last (f := StrongId.mk)

theorem hash (value : Hash64) :
    Recovers True ByteReader.hash (ByteWriter.u64 value.value) value :=
  (Recovers.u64 value.value).last (f := Hash64.mk)

theorem require (bad : Prop) [Decidable bad] (code : ErrCode) (message : String) :
    Recovers (¬bad) (ByteReader.require bad code message) [] () := by
  intro _ rest
  unfold ByteReader.require
  constructor
  · intro h
    rw [if_neg h]
    rfl
  · intro h
    rw [if_pos (not_not.mp h)]
    exact ⟨_, rfl⟩

theorem raw (bytes : Bytes) : Recovers True (ByteReader.raw bytes.length) bytes bytes := by
  refine .of_append fun rest => ?_
  simp [ByteReader.raw]

theorem text {value bytes : Bytes} {maxLen : Nat} (h : ByteWriter.text value maxLen = .ok bytes) :
    Recovers True (ByteReader.text maxLen) bytes value := by
  unfold ByteWriter.text at h
  split at h
  next => cases h
  next hlen =>
    obtain rfl := Except.ok.inj h
    have hsize : (UInt32.ofNat value.length).toNat = value.length := by
      rw [UInt32.toNat_ofNat']
      exact Nat.mod_eq_of_lt (by omega)
    have hfits : ¬(UInt32.ofNat value.length).toNat > maxLen := by omega
    have hread : Recovers (¬(UInt32.ofNat value.length).toNat > maxLen ∧ True)
        (ByteReader.text maxLen) (ByteWriter.u32 (UInt32.ofNat value.length) ++ ([] ++ value))
        value := by
      refine .bind (.u32 _) (.bindChecks (.require _ _ _) ?_)
      rw [hsize]
      exact .raw value
    rwa [and_true, iff_true_intro hfits, List.nil_append] at hread

theorem times {put : α → Bytes} {check : α → Prop} (xs : List α)
    (h : ∀ x, Recovers (check x) reader (put x) x) :
    Recovers (∀ x ∈ xs, check x) (ByteReader.times reader xs.length) (xs.flatMap put) xs := by
  induction xs with
  | nil =>
    have hnil : (∀ x ∈ ([] : List α), check x) = True := by simp
    rw [hnil]
    exact .pure []
  | cons x rest ih =>
    rw [List.flatMap_cons, List.forall_mem_cons]
    exact (h x).bindChecks ih.last

theorem listOf {put : α → Bytes} {check : α → Prop} (xs : List α) {bound : Nat} {message : String}
    (hne : ∀ x, put x ≠ []) (h : ∀ x, Recovers (check x) reader (put x) x) :
    Recovers (xs.length ≤ bound ∧ ∀ x ∈ xs, check x) (ByteReader.listOf bound message reader)
      (ByteWriter.size xs.length ++ xs.flatMap put) xs := by
  intro hlen
  have hcount : xs.length ≤ (xs.flatMap put).length := by
    clear hlen
    induction xs with
    | nil => exact le_refl 0
    | cons x rest ih =>
      have hpos := List.length_pos_iff.mpr (hne x)
      rw [List.flatMap_cons, List.length_append, List.length_cons]
      omega
  rw [List.length_append] at hlen
  have hsize : (UInt64.ofNat xs.length).toNat = xs.length := by
    rw [UInt64.toNat_ofNat']
    exact Nat.mod_eq_of_lt (by omega)
  have hread : Recovers (¬(UInt64.ofNat xs.length).toNat > bound ∧ ∀ x ∈ xs, check x)
      (ByteReader.listOf bound message reader)
      (ByteWriter.size xs.length ++ ([] ++ xs.flatMap put)) xs := by
    refine .bind (.u64 _) (.bindChecks (.require _ _ _) ?_)
    rw [hsize]
    exact .times xs h
  rw [hsize, not_lt, List.nil_append] at hread
  exact hread (by rw [List.length_append]; omega)

/-- A list whose elements have no checks of their own. -/
theorem listOfPlain {put : α → Bytes} (xs : List α) {bound : Nat} {message : String}
    (hne : ∀ x, put x ≠ []) (h : ∀ x, Recovers True reader (put x) x) :
    Recovers (xs.length ≤ bound) (ByteReader.listOf bound message reader)
      (ByteWriter.size xs.length ++ xs.flatMap put) xs := by
  have hread : Recovers (xs.length ≤ bound ∧ ∀ x ∈ xs, True)
      (ByteReader.listOf bound message reader) (ByteWriter.size xs.length ++ xs.flatMap put) xs :=
    listOf xs hne h
  rwa [iff_true_intro (fun _ _ => trivial : ∀ x ∈ xs, True), and_true] at hread

/-- A payload decodes to what was encoded, and does when the checks hold. -/
theorem decode_iff {found : α} (h : Recovers checks reader bytes a)
    (hlen : bytes.length < 2 ^ 64) :
    ByteReader.decode reader bytes = .ok found ↔ checks ∧ found = a := by
  obtain ⟨hok, hfail⟩ := h hlen []
  rw [List.append_nil] at hok hfail
  unfold ByteReader.decode
  by_cases hc : checks
  · rw [hok hc]
    exact ⟨fun he => ⟨hc, (Except.ok.inj he).symm⟩, fun ⟨_, he⟩ => he ▸ rfl⟩
  · obtain ⟨status, hs⟩ := hfail hc
    rw [hs]
    exact ⟨nofun, fun ⟨hyes, _⟩ => absurd hyes hc⟩

theorem decode_plain {found : α} (h : Recovers True reader bytes a)
    (hlen : bytes.length < 2 ^ 64) :
    ByteReader.decode reader bytes = .ok found ↔ found = a := by
  rw [h.decode_iff hlen, true_and]

end Recovers

namespace Store

theorem recovers_rule (rule : ThresholdRule) : Recovers True readRule (putRule rule) rule := by
  simp only [putRule, List.append_assoc]
  refine .bind (.u16 _) ?_
  refine .bind (.u8 _) ?_
  refine .bind (.u64 _) ?_
  refine .bind (.u64 _) ?_
  refine .bind (.u64 _) ?_
  refine .bind (.boolean _) ?_
  refine .bind (.u64 _) ?_
  simp only [MetricKind.ofRaw_toRaw, ThresholdOp.ofRaw_toRaw]
  exact .last (.u32 _)

theorem recovers_interventionRule (rule : InterventionRule) :
    Recovers True readInterventionRule (putInterventionRule rule) rule := by
  simp only [putInterventionRule, List.append_assoc]
  refine .bind (.u8 _) ?_
  refine .bind (.u8 _) ?_
  refine .bind (.id _) ?_
  refine .bind (.id _) ?_
  refine .bind (.boolean _) ?_
  refine .bind (.boolean _) ?_
  refine .bind (.u64 _) ?_
  refine .bind (.u64 _) ?_
  refine .bind (.u64 _) ?_
  refine .bind (.u32 _) ?_
  simp only [Severity.ofRaw_toRaw, InterventionKind.ofRaw_toRaw]
  exact .last (.u64 _)

theorem recovers_hysteresis (p : HysteresisPolicy) :
    Recovers True readHysteresis (putHysteresis p) p := by
  simp only [putHysteresis, List.append_assoc]
  refine .bind (.u32 _) ?_
  refine .bind (.u32 _) ?_
  refine .bind (.u64 _) ?_
  refine .bind (.u32 _) ?_
  refine .bind (.boolean _) ?_
  exact .last (.boolean _)

theorem recovers_recovery (p : RecoveryPolicy) : Recovers True readRecovery (putRecovery p) p := by
  simp only [putRecovery, List.append_assoc]
  refine .bind (.boolean _) ?_
  refine .bind (.u32 _) ?_
  refine .bind (.boolean _) ?_
  refine .bind (.u32 _) ?_
  exact .last (.u64 _)

theorem recovers_propagation (p : PropagationPolicy) :
    Recovers True readPropagation (putPropagation p) p := by
  simp only [putPropagation, List.append_assoc]
  refine .bind (.boolean _) ?_
  refine .bind (.u32 _) ?_
  refine .bind (.u32 _) ?_
  refine .bind (.u8 _) ?_
  refine .bind (.boolean _) ?_
  refine .bind (.boolean _) ?_
  simp only [Severity.ofRaw_toRaw]
  exact .last (.u32 _)

theorem recovers_freshness (p : FreshnessPolicy) : Recovers True readFreshness (putFreshness p) p := by
  simp only [putFreshness, List.append_assoc]
  refine .bind (.u64 _) ?_
  refine .bind (.u64 _) ?_
  exact .last (.boolean _)

theorem put_ne_nil {tag : IdTag} (id : StrongId tag) : id.put ≠ [] := by
  simp [StrongId.put, ByteWriter.u64, littleEndian]

theorem recovers_contradiction (p : ContradictionPolicy) :
    Recovers (p.priorityOrder.length ≤ limits.kMaxPublishers) readContradiction (putContradiction p) p := by
  simp only [putContradiction, List.append_assoc]
  refine .bind (.u8 _) ?_
  refine .bind (.u64 _) ?_
  refine .bind (.u32 _) ?_
  refine .bind (.u64 _) ?_
  simp only [ContradictionMode.ofRaw_toRaw]
  exact .last (.listOfPlain _ put_ne_nil .id)

theorem recovers_limits (p : PolicyLimits) : Recovers True readLimits (putLimits p) p := by
  simp only [putLimits, List.append_assoc]
  refine .bind (.u64 _) ?_
  refine .bind (.u64 _) ?_
  refine .bind (.u64 _) ?_
  refine .bind (.u32 _) ?_
  refine .bind (.u64 _) ?_
  refine .bind (.u64 _) ?_
  refine .bind (.u64 _) ?_
  exact .last (.u64 _)

/-- The bounds a durable policy is read under. -/
def Storable (policy : CongestionPolicy) : Prop :=
  policy.rules.length ≤ limits.kMaxThresholdRules ∧
    policy.contradiction.priorityOrder.length ≤ limits.kMaxPublishers ∧
    policy.interventions.length ≤ limits.kMaxInterventionRules

theorem recovers_policy {policy : CongestionPolicy} {payload : Bytes}
    (h : encodePolicy policy = .ok payload) : Recovers (Storable policy) readPolicy payload policy := by
  obtain ⟨name, hname, h⟩ := bind_ok.mp h
  obtain rfl := Except.ok.inj h
  have hrule : ∀ rule, putRule rule ≠ [] := fun rule => by
    simp [putRule, ByteWriter.u16, littleEndian]
  have hintervention : ∀ rule, putInterventionRule rule ≠ [] := fun rule => by
    simp [putInterventionRule, ByteWriter.u8]
  simp only [List.append_assoc]
  rw [← List.append_assoc (ByteWriter.size policy.rules.length),
    ← List.append_assoc (ByteWriter.size policy.interventions.length)]
  refine .bind (.id _) ?_
  refine .bind (.u32 _) ?_
  refine .bind (.text hname) ?_
  refine .bind (.hash _) ?_
  refine .bindChecks (.listOfPlain _ hrule recovers_rule) ?_
  refine .bind (recovers_hysteresis _) ?_
  refine .bind (recovers_recovery _) ?_
  refine .bind (recovers_propagation _) ?_
  refine .bind (recovers_freshness _) ?_
  refine .bindChecks (recovers_contradiction _) ?_
  refine .bindLast (.listOfPlain _ hintervention recovers_interventionRule) ?_
  refine .bind (recovers_limits _) ?_
  refine .bind (.u32 _) ?_
  refine .bind (.u32 _) ?_
  exact .last (.u32 _)

theorem recovers_domainState {state : DomainState} {payload : Bytes}
    (h : encodeDomainState state = .ok payload) : Recovers True readDomainState payload state := by
  obtain rfl := Except.ok.inj h
  simp only [List.append_assoc]
  refine .bind (.id _) ?_
  refine .bind (.u8 _) ?_
  refine .bind (.u8 _) ?_
  refine .bind (.u32 _) ?_
  refine .bind (.u64 _) ?_
  refine .bind (.u64 _) ?_
  refine .bind (.u64 _) ?_
  refine .bind (.id _) ?_
  refine .bind (.id _) ?_
  refine .bind (.id _) ?_
  refine .bind (.id _) ?_
  refine .bind (.id _) ?_
  refine .bind (.id _) ?_
  refine .bind (.hash _) ?_
  refine .bind (.id _) ?_
  refine .bind (.u8 _) ?_
  refine .bind (.u64 _) ?_
  refine .bind (.u64 _) ?_
  simp only [CongestionState.ofRaw_toRaw, Severity.ofRaw_toRaw]
  exact .last (.boolean _)

theorem recovers_resource (record : ResourceRecord) :
    Recovers True readResource (putResource record) record := by
  simp only [putResource, List.append_assoc]
  refine .bind (.id _) ?_
  refine .bind (.id _) ?_
  refine .bind (.id _) ?_
  refine .bind (.id _) ?_
  refine .bind (.u8 _) ?_
  refine .bind (.u32 _) ?_
  refine .bind (.u64 _) ?_
  simp only [ResourceKind.ofRaw_toRaw]
  exact .last (.u32 _)

theorem recovers_link (link : LinkRecord) : Recovers True readLink (putLink link) link := by
  simp only [putLink, List.append_assoc]
  refine .bind (.id _) ?_
  refine .bind (.id _) ?_
  refine .bind (.id _) ?_
  refine .bind (.u64 _) ?_
  refine .bind (.u64 _) ?_
  exact .last (.u32 _)

theorem recovers_path (path : PathRecord) : Recovers (path.hops.length ≤ limits.kMaxResourcesPerPath) readPath (putPath path) path := by
  simp only [putPath, List.append_assoc]
  refine .bind (.id _) ?_
  refine .bind (.u64 _) ?_
  refine .bind (.u32 _) ?_
  exact .last (.listOfPlain _ put_ne_nil .id)

/-- The bounds a durable topology is read under. -/
def StorableTopology (topology : TopologySnapshot) : Prop :=
  topology.resources.length ≤ limits.kMaxResourcesPerFabric ∧
    topology.links.length ≤ limits.kMaxLinksPerTopology ∧
    topology.paths.length ≤ limits.kMaxPathsPerTopology ∧
    ∀ path ∈ topology.paths, path.hops.length ≤ limits.kMaxResourcesPerPath

theorem recovers_topology {topology : TopologySnapshot} {payload : Bytes}
    (h : encodeTopology topology = .ok payload) : Recovers (StorableTopology topology) readTopology payload topology := by
  obtain rfl := Except.ok.inj h
  have hresource : ∀ record, putResource record ≠ [] := fun record => by
    simp [putResource, put_ne_nil]
  have hlink : ∀ link, putLink link ≠ [] := fun link => by simp [putLink, put_ne_nil]
  have hpath : ∀ path, putPath path ≠ [] := fun path => by simp [putPath, put_ne_nil]
  simp only [List.append_assoc]
  rw [← List.append_assoc (ByteWriter.size topology.resources.length),
    ← List.append_assoc (ByteWriter.size topology.links.length)]
  refine .bind (.id _) ?_
  refine .bind (.id _) ?_
  refine .bind (.id _) ?_
  refine .bind (.u64 _) ?_
  refine .bind (.hash _) ?_
  refine .bindChecks (.listOfPlain _ hresource recovers_resource) ?_
  refine .bindChecks (.listOfPlain _ hlink recovers_link) ?_
  exact .last (.listOf _ hpath recovers_path)

theorem recovers_entry (entry : CapacityEntry) : Recovers True readEntry (putEntry entry) entry := by
  simp only [putEntry, List.append_assoc]
  refine .bind (.id _) ?_
  refine .bind (.u64 _) ?_
  refine .bind (.u64 _) ?_
  exact .last (.u64 _)

theorem recovers_capacity {capacity : CapacitySnapshot} {payload : Bytes}
    (h : encodeCapacity capacity = .ok payload) : Recovers (capacity.entries.length ≤ limits.kMaxResourcesPerFabric) readCapacity payload capacity := by
  obtain rfl := Except.ok.inj h
  have hentry : ∀ entry, putEntry entry ≠ [] := fun entry => by simp [putEntry, put_ne_nil]
  simp only [List.append_assoc]
  refine .bind (.id _) ?_
  refine .bind (.id _) ?_
  refine .bind (.id _) ?_
  refine .bind (.u64 _) ?_
  refine .bind (.hash _) ?_
  exact .last (.listOfPlain _ hentry recovers_entry)

theorem recovers_intervention {record : InterventionRecord} {payload : Bytes}
    (h : encodeIntervention record = .ok payload) : Recovers True readIntervention payload record := by
  obtain rfl := Except.ok.inj h
  simp only [List.append_assoc]
  refine .bind (.id _) ?_
  refine .bind (.u8 _) ?_
  refine .bind (.id _) ?_
  refine .bind (.id _) ?_
  refine .bind (.u8 _) ?_
  refine .bind (.id _) ?_
  refine .bind (.id _) ?_
  refine .bind (.id _) ?_
  refine .bind (.id _) ?_
  refine .bind (.id _) ?_
  refine .bind (.id _) ?_
  refine .bind (.u64 _) ?_
  simp only [InterventionKind.ofRaw_toRaw, Severity.ofRaw_toRaw]
  exact .last (.u64 _)

theorem recovers_fence {record : FenceRecord} {payload : Bytes}
    (h : encodeFence record = .ok payload) : Recovers True readFence payload record := by
  obtain ⟨detail, hdetail, h⟩ := bind_ok.mp h
  obtain rfl := Except.ok.inj h
  simp only [List.append_assoc]
  refine .bind (.id _) ?_
  refine .bind (.id _) ?_
  refine .bind (.id _) ?_
  refine .bind (.id _) ?_
  refine .bind (.id _) ?_
  refine .bind (.u8 _) ?_
  refine .bind (.u64 _) ?_
  refine .bind (.id _) ?_
  simp only [FenceReason.ofRaw_toRaw]
  exact .last (.text hdetail)

/-! ### Each decoder returns what was encoded -/

variable {payload : Bytes}

theorem decodePolicy_encoded {policy found : CongestionPolicy}
    (h : encodePolicy policy = .ok payload) (hlen : payload.length < 2 ^ 64) :
    decodePolicy payload = .ok found ↔ Storable policy ∧ validatePolicy policy = .ok found := by
  have hread : ∀ read, ByteReader.decode readPolicy payload = .ok read ↔
      Storable policy ∧ read = policy := fun _ => (recovers_policy h).decode_iff hlen
  unfold decodePolicy
  rw [bind_ok]
  constructor
  · rintro ⟨read, hd, hv⟩
    obtain ⟨hs, rfl⟩ := (hread read).mp hd
    exact ⟨hs, hv⟩
  · rintro ⟨hs, hv⟩
    exact ⟨policy, (hread policy).mpr ⟨hs, rfl⟩, hv⟩

/-- A decoder that checks what it read. -/
theorem checked_decode {α : Type} {checks : Prop} {reader : ByteReader α} {a found : α}
    {check : α → Result Unit} (h : Recovers checks reader payload a)
    (hlen : payload.length < 2 ^ 64) :
    (do let read ← ByteReader.decode reader payload
        check read
        return read) = Except.ok found ↔ (checks ∧ check a = .ok ()) ∧ found = a := by
  rw [bind_ok]
  constructor
  · rintro ⟨read, hd, hv⟩
    obtain ⟨hc, rfl⟩ := (h.decode_iff hlen).mp hd
    obtain ⟨_, hcheck, hv⟩ := bind_ok.mp hv
    exact ⟨⟨hc, hcheck⟩, (Except.ok.inj hv).symm⟩
  · rintro ⟨⟨hc, hcheck⟩, rfl⟩
    exact ⟨found, (h.decode_iff hlen).mpr ⟨hc, rfl⟩, bind_ok.mpr ⟨(), hcheck, rfl⟩⟩

theorem decodeDomainState_encoded {state found : DomainState}
    (h : encodeDomainState state = .ok payload) (hlen : payload.length < 2 ^ 64) :
    decodeDomainState payload = .ok found ↔ state.domain.valid ∧ found = state := by
  unfold decodeDomainState
  rw [checked_decode (recovers_domainState h) hlen, refuseIf_ok]
  simp

theorem decodeTopology_encoded {topology found : TopologySnapshot}
    (h : encodeTopology topology = .ok payload) (hlen : payload.length < 2 ^ 64) :
    decodeTopology payload = .ok found ↔
      (StorableTopology topology ∧ validateTopology topology = .ok ()) ∧ found = topology := by
  unfold decodeTopology
  rw [checked_decode (recovers_topology h) hlen]

theorem decodeCapacity_encoded {capacity found : CapacitySnapshot}
    (h : encodeCapacity capacity = .ok payload) (hlen : payload.length < 2 ^ 64) :
    decodeCapacity payload = .ok found ↔
      (capacity.entries.length ≤ limits.kMaxResourcesPerFabric ∧
        validateCapacity capacity = .ok ()) ∧ found = capacity := by
  unfold decodeCapacity
  rw [checked_decode (recovers_capacity h) hlen]

theorem decodeIntervention_encoded {record found : InterventionRecord}
    (h : encodeIntervention record = .ok payload) (hlen : payload.length < 2 ^ 64) :
    decodeIntervention payload = .ok found ↔
      (record.id.valid ∧ record.domain.valid) ∧ found = record := by
  unfold decodeIntervention
  rw [checked_decode (recovers_intervention h) hlen, refuseIf_ok]
  simp

theorem decodeFence_encoded {record found : FenceRecord}
    (h : encodeFence record = .ok payload) (hlen : payload.length < 2 ^ 64) :
    decodeFence payload = .ok found ↔
      (record.id.valid ∧ record.publisher.valid ∧ record.boot.valid) ∧ found = record := by
  unfold decodeFence
  rw [checked_decode (recovers_fence h) hlen, refuseIf_ok]
  simp

theorem recovers_epoch {epoch : EpochId} {boot : BootId} {counter : UInt64}
    (h : encodeEpoch epoch boot counter = .ok payload) :
    Recovers True (do
      return ({ epoch := ← ByteReader.id _, boot := ← ByteReader.id _, counter := ← ByteReader.u64 } :
        EpochMark)) payload ⟨epoch, boot, counter⟩ := by
  obtain rfl := Except.ok.inj h
  simp only [List.append_assoc]
  refine .bind (.id _) ?_
  refine .bind (.id _) ?_
  exact .last (.u64 _)

theorem decodeEpoch_encoded {epoch : EpochId} {boot : BootId} {counter : UInt64}
    {found : EpochMark} (h : encodeEpoch epoch boot counter = .ok payload)
    (hlen : payload.length < 2 ^ 64) :
    decodeEpoch payload = .ok found ↔
      (epoch.valid ∧ boot.valid) ∧ found = ⟨epoch, boot, counter⟩ := by
  unfold decodeEpoch
  rw [checked_decode (recovers_epoch h) hlen, refuseIf_ok]
  simp

theorem decodeHistory_encoded {entry found : HistoryEntry}
    (h : encodeHistory entry = .ok payload) (hlen : payload.length < 2 ^ 64) :
    decodeHistory payload = .ok found ↔ found = entry := by
  obtain ⟨reason, hreason, h⟩ := bind_ok.mp h
  obtain rfl := Except.ok.inj h
  simp only [List.append_assoc] at hlen ⊢
  refine Recovers.decode_plain ?_ hlen
  refine .bind (.id _) ?_
  refine .bind (.u8 _) ?_
  refine .bind (.u8 _) ?_
  refine .bind (.u64 _) ?_
  refine .bind (.id _) ?_
  refine .bind (.id _) ?_
  simp only [CongestionState.ofRaw_toRaw]
  exact .last (.text hreason)

theorem decodeAttempt_encoded {record found : AttemptRecord}
    (h : encodeAttempt record = .ok payload) (hlen : payload.length < 2 ^ 64) :
    decodeAttempt payload = .ok found ↔ found = record := by
  obtain ⟨detail, hdetail, h⟩ := bind_ok.mp h
  obtain rfl := Except.ok.inj h
  simp only [List.append_assoc] at hlen ⊢
  refine Recovers.decode_plain ?_ hlen
  refine .bind (.id _) ?_
  refine .bind (.id _) ?_
  refine .bind (.u16 _) ?_
  refine .bind (.u8 _) ?_
  refine .bind (.id _) ?_
  refine .bind (.id _) ?_
  refine .bind (.u64 _) ?_
  refine .bind (.id _) ?_
  simp only [MutationKind.ofRaw_toRaw, AttemptState.ofRaw_toRaw]
  exact .last (.text hdetail)

theorem decodeProvenance_encoded {provenance found : Provenance}
    (h : encodeProvenance provenance = .ok payload) (hlen : payload.length < 2 ^ 64) :
    decodeProvenance payload = .ok found ↔ found = provenance := by
  obtain ⟨note, hnote, h⟩ := bind_ok.mp h
  obtain rfl := Except.ok.inj h
  simp only [List.append_assoc] at hlen ⊢
  refine Recovers.decode_plain ?_ hlen
  refine .bind (.id _) ?_
  refine .bind (.u8 _) ?_
  refine .bind (.id _) ?_
  refine .bind (.id _) ?_
  refine .bind (.id _) ?_
  refine .bind (.id _) ?_
  refine .bind (.u64 _) ?_
  refine .bind (.i64 _) ?_
  simp only [ProvenanceKind.ofRaw_toRaw]
  exact .last (.text hnote)

theorem decodeRevalidation_encoded {record found : RevalidationRecord}
    (h : encodeRevalidation record = .ok payload) (hlen : payload.length < 2 ^ 64) :
    decodeRevalidation payload = .ok found ↔ found = record := by
  obtain ⟨detail, hdetail, h⟩ := bind_ok.mp h
  obtain rfl := Except.ok.inj h
  simp only [List.append_assoc] at hlen ⊢
  refine Recovers.decode_plain ?_ hlen
  refine .bind (.id _) ?_
  refine .bind (.id _) ?_
  refine .bind (.id _) ?_
  refine .bind (.u8 _) ?_
  refine .bind (.u8 _) ?_
  refine .bind (.boolean _) ?_
  refine .bind (.boolean _) ?_
  refine .bind (.boolean _) ?_
  refine .bind (.u64 _) ?_
  refine .bind (.id _) ?_
  simp only [CongestionState.ofRaw_toRaw]
  exact .last (.text hdetail)

end Store

end CongestionFabric
