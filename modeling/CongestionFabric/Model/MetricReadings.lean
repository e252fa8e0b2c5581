import CongestionFabric.Model.Evidence
import CongestionFabric.Model.RawEnums
import Mathlib.Data.List.Nodup
import Mathlib.Data.List.Perm.Subperm

namespace CongestionFabric

open limits

/-- The readings as they are kept. -/
abbrev MetricReadings := List (MetricKind × UInt64)

namespace MetricReadings

/-- The first position whose kind is not below the given one. -/
def lowerBound (readings : MetricReadings) (kind : MetricKind) : Nat :=
  (readings.takeWhile fun reading => reading.1 < kind).length

def get (readings : MetricReadings) (kind : MetricKind) : Option UInt64 :=
  match readings[lowerBound readings kind]? with
  | none => none
  | some (found, value) => if found ≠ kind then none else some value

/-- Insert a reading at its place; a refusal comes with the readings as they were. -/
def set (readings : MetricReadings) (kind : MetricKind) (value : UInt64) :
    MetricReadings × VoidResult :=
  match validateMetricValue kind value with
  | .error status => (readings, .error status)
  | .ok () =>
    if readings.length ≥ kMaxMetricReadings then
      (readings, fail .limitExceeded "metric set exceeds the hard reading bound")
    else
      let position := lowerBound readings kind
      if readings[position]?.map Prod.fst = some kind then
        (readings, fail .duplicate "duplicate metric kind within one sample")
      else (readings.insertIdx position (kind, value), succeed)

/-- A call with a kind that is any number. -/
def call (readings : MetricReadings) (c : UInt16 × UInt64) : MetricReadings × VoidResult :=
  set readings (.ofRaw c.1) c.2

def run (calls : List (UInt16 × UInt64)) (readings : MetricReadings) : MetricReadings :=
  calls.foldl (fun readings c => (call readings c).1) readings

/-- The calls that are not refused. -/
def taken : List (UInt16 × UInt64) → MetricReadings → List (UInt16 × UInt64)
  | [], _ => []
  | c :: calls, readings =>
    match call readings c with
    | (next, .ok ()) => c :: taken calls next
    | (next, .error _) => taken calls next

/-- A kind between the two ends of the table. -/
def Declared (kind : MetricKind) : Prop :=
  MetricKind.unknown < kind ∧ kind < MetricKind.count

/-- What readings should be after these calls have set them. -/
structure WellFormed (calls : List (UInt16 × UInt64)) (readings : MetricReadings) : Prop where
  increasing : (readings.map Prod.fst).Pairwise (· < ·)
  declared : ∀ reading ∈ readings, Declared reading.1
  bounded : ∀ reading ∈ readings, reading.2 ≤ metricPlausibleMax reading.1
  get : ∀ kind value, get readings kind = some value ↔ (kind.toRaw, value) ∈ calls

/-- Readings built by calls are well formed, and a refused call changes none. -/
structure WellBuilt (calls : List (UInt16 × UInt64)) : Prop where
  wellFormed : WellFormed (taken calls []) (run calls [])
  refused : ∀ before c after, calls = before ++ c :: after → ∀ status,
    (call (run before []) c).2 = .error status → (call (run before []) c).1 = run before []

/-- No call sets a kind beyond the table to zero. -/
def WithinTable (calls : List (UInt16 × UInt64)) : Prop :=
  ∀ c ∈ calls, ¬(21 ≤ c.1.toNat ∧ c.2 = 0)

/-! ### The readings of a sorted set -/

theorem lowerBound_cons (reading : MetricKind × UInt64) (rest : MetricReadings)
    (kind : MetricKind) :
    lowerBound (reading :: rest) kind =
      if reading.1 < kind then lowerBound rest kind + 1 else 0 := by
  unfold lowerBound
  rw [List.takeWhile_cons]
  by_cases h : reading.1 < kind
  · simp [h]
  · simp [h]

theorem getElem?_lowerBound {readings : MetricReadings}
    (hs : (readings.map Prod.fst).Pairwise (· < ·)) (kind : MetricKind) :
    readings[lowerBound readings kind]?.map Prod.fst = some kind ↔
      (SortedMap.lookup kind readings).isSome := by
  induction readings with
  | nil => simp [SortedMap.lookup]
  | cons reading rest ih =>
    obtain ⟨found, value⟩ := reading
    obtain ⟨hfirst, hrest⟩ := List.pairwise_cons.mp hs
    rw [lowerBound_cons, SortedMap.lookup]
    by_cases hlt : found < kind
    · rw [if_pos hlt, if_neg hlt.ne', List.getElem?_cons_succ]
      exact ih hrest
    · rw [if_neg hlt, List.getElem?_cons_zero]
      by_cases heq : kind = found
      · simp [heq]
      · rw [if_neg heq]
        refine iff_of_false (by simpa using Ne.symm heq) ?_
        have hnone : SortedMap.lookup kind rest = none := by
          refine SortedMap.lookup_eq_none fun e he => ?_
          have hbeyond : found < e.1 := hfirst e.1 (List.mem_map_of_mem he)
          exact (lt_of_le_of_lt (not_lt.mp hlt) hbeyond).ne'
        rw [hnone]
        decide

theorem insertIdx_lowerBound {readings : MetricReadings} {kind : MetricKind}
    (h : SortedMap.lookup kind readings = none) (value : UInt64) :
    readings.insertIdx (lowerBound readings kind) (kind, value) =
      SortedMap.insertEntry kind value readings := by
  induction readings with
  | nil => rfl
  | cons reading rest ih =>
    obtain ⟨found, held⟩ := reading
    rw [SortedMap.lookup] at h
    have hne : kind ≠ found := by
      rintro rfl
      rw [if_pos rfl] at h
      cases h
    rw [if_neg hne] at h
    rw [lowerBound_cons, SortedMap.insertEntry]
    by_cases hlt : found < kind
    · rw [if_pos hlt, if_neg hlt.not_gt, if_neg hne, List.insertIdx_succ_cons, ih h]
    · rw [if_neg hlt, if_pos (lt_of_le_of_ne (not_lt.mp hlt) hne)]
      rfl

theorem get_entries (m : MetricSet) (kind : MetricKind) : get m.entries kind = m.find? kind := by
  obtain ⟨readings, hs⟩ := m
  show get readings kind = SortedMap.lookup kind readings
  induction readings with
  | nil => rfl
  | cons reading rest ih =>
    obtain ⟨found, value⟩ := reading
    have hrest := (List.pairwise_cons.mp hs).2
    have hfound := getElem?_lowerBound hs kind
    unfold get at ih ⊢
    rw [lowerBound_cons, SortedMap.lookup] at hfound ⊢
    by_cases hlt : found < kind
    · rw [if_pos hlt, if_neg hlt.ne', List.getElem?_cons_succ]
      exact ih hrest
    · rw [if_neg hlt, List.getElem?_cons_zero] at hfound ⊢
      by_cases heq : kind = found
      · simp [heq]
      · rw [if_neg heq] at hfound ⊢
        cases hlookup : SortedMap.lookup kind rest with
        | none => simp [Ne.symm heq]
        | some held =>
          rw [hlookup] at hfound
          exact absurd (Option.some.inj (hfound.mpr rfl)).symm heq

theorem contains_eq_lookup (m : MetricSet) (kind : MetricKind) :
    m.contains kind = (SortedMap.lookup kind m.entries).isSome := rfl

/-- What a call does to a sorted set it does to the readings. -/
theorem set_entries (m : MetricSet) (kind : MetricKind) (value : UInt64) :
    set m.entries kind value = match MetricSet.set m kind value with
      | .ok m' => (m'.entries, .ok ())
      | .error status => (m.entries, .error status) := by
  have hfound := getElem?_lowerBound m.sorted kind
  rw [← contains_eq_lookup] at hfound
  unfold set MetricSet.set
  cases validateMetricValue kind value with
  | error status => rfl
  | ok u =>
    show (if m.entries.length ≥ kMaxMetricReadings then _ else _) = _
    by_cases hfull : m.entries.length ≥ kMaxMetricReadings
    · have hsize : m.size ≥ kMaxMetricReadings := hfull
      rw [if_pos hfull]
      simp only [refuseIf, if_pos hsize]
      rfl
    · have hsize : ¬m.size ≥ kMaxMetricReadings := hfull
      rw [if_neg hfull]
      by_cases hheld : m.contains kind = true
      · simp only [if_pos (hfound.mpr hheld), refuseIf, if_neg hsize, if_pos hheld]
        rfl
      · have hnone : SortedMap.lookup kind m.entries = none := by
          rw [contains_eq_lookup] at hheld
          simpa using hheld
        simp only [if_neg fun h => hheld (hfound.mp h), refuseIf, if_neg hsize, if_neg hheld]
        rw [insertIdx_lowerBound hnone]
        rfl

end MetricReadings

namespace MetricSet

theorem set_ok {m m' : MetricSet} {kind : MetricKind} {value : UInt64} :
    MetricSet.set m kind value = .ok m' ↔ validateMetricValue kind value = .ok () ∧
      m.size < kMaxMetricReadings ∧ m.contains kind = false ∧ m' = m.insert kind value := by
  simp only [MetricSet.set, bind_ok, refuseIf_ok, exists_const, Bool.not_eq_true]
  constructor
  · rintro ⟨_, hvalid, hroom, hnew, heq⟩
    exact ⟨hvalid, not_le.mp hroom, hnew, (Except.ok.inj heq).symm⟩
  · rintro ⟨hvalid, hroom, hnew, rfl⟩
    exact ⟨(), hvalid, not_le.mpr hroom, hnew, rfl⟩

theorem contains_false {m : MetricSet} {kind : MetricKind} (h : m.contains kind = false) :
    m.find? kind = none := by
  unfold SortedMap.contains at h
  simpa using h

/-- A call that is taken adds its reading and leaves the others. -/
theorem find?_set {m m' : MetricSet} {kind k : MetricKind} {value v : UInt64}
    (h : MetricSet.set m kind value = .ok m') :
    m'.find? k = some v ↔ (k = kind ∧ v = value) ∨ m.find? k = some v := by
  obtain ⟨_, _, hnew, rfl⟩ := set_ok.mp h
  rw [SortedMap.find?_insert]
  by_cases hk : k = kind
  · rw [if_pos hk, hk, contains_false hnew]
    simp [eq_comm]
  · simp [hk]

end MetricSet

/-- A set of metrics that calls of `set` have built. -/
inductive BuiltSet : MetricSet → Prop where
  | empty : BuiltSet ∅
  | set {m m' : MetricSet} {kind : MetricKind} {value : UInt64} (h : BuiltSet m)
      (hset : MetricSet.set m kind value = .ok m') : BuiltSet m'

namespace BuiltSet

theorem size_le {m : MetricSet} (h : BuiltSet m) : m.size ≤ kMaxMetricReadings := by
  induction h with
  | empty => exact Nat.zero_le _
  | set _ hset _ =>
    obtain ⟨_, hroom, hnew, rfl⟩ := MetricSet.set_ok.mp hset
    rw [SortedMap.size_insert, hnew]
    exact hroom

theorem valid {m : MetricSet} (h : BuiltSet m) {e : MetricKind × UInt64} (he : e ∈ m.entries) :
    validateMetricValue e.1 e.2 = .ok () := by
  induction h with
  | empty => cases he
  | set _ hset ih =>
    obtain ⟨hvalid, _, _, rfl⟩ := MetricSet.set_ok.mp hset
    rcases SortedMap.mem_insertEntry he with rfl | he
    · exact hvalid
    · exact ih he

end BuiltSet

theorem validateMetricValue_ok {kind : MetricKind} {value : UInt64} :
    validateMetricValue kind value = .ok () ↔
      kind ≠ .unknown ∧ kind ≠ .count ∧ value ≤ metricPlausibleMax kind := by
  simp only [validateMetricValue, bind_ok, refuseIf_ok, exists_const, not_or, UInt64.not_lt,
    gt_iff_lt, and_assoc]

namespace MetricReadings

/-! ### Runs of calls -/

def next (m : MetricSet) (c : UInt16 × UInt64) : MetricSet :=
  match MetricSet.set m (.ofRaw c.1) c.2 with
  | .ok m' => m'
  | .error _ => m

theorem call_entries (m : MetricSet) (c : UInt16 × UInt64) :
    (call m.entries c).1 = (next m c).entries := by
  unfold call next
  rw [set_entries]
  split <;> rfl

theorem run_entries (calls : List (UInt16 × UInt64)) (m : MetricSet) :
    run calls m.entries = (calls.foldl next m).entries := by
  induction calls generalizing m with
  | nil => rfl
  | cons c calls ih =>
    unfold run at ih ⊢
    rw [List.foldl_cons, List.foldl_cons, call_entries, ih]

theorem built_foldl {calls : List (UInt16 × UInt64)} {m : MetricSet} (h : BuiltSet m) :
    BuiltSet (calls.foldl next m) := by
  induction calls generalizing m with
  | nil => exact h
  | cons c calls ih =>
    apply ih
    unfold next
    split
    next hset => exact h.set hset
    next => exact h

theorem taken_cons (m : MetricSet) (c : UInt16 × UInt64) (calls : List (UInt16 × UInt64)) :
    taken (c :: calls) m.entries = match MetricSet.set m (.ofRaw c.1) c.2 with
      | .ok m' => c :: taken calls m'.entries
      | .error _ => taken calls m.entries := by
  rw [taken, call, set_entries]
  cases MetricSet.set m (.ofRaw c.1) c.2 with
  | ok m' => rfl
  | error status => rfl

/-- A run holds what it began with and what was taken. -/
theorem find?_foldl (calls : List (UInt16 × UInt64)) (m : MetricSet) (kind : MetricKind)
    (value : UInt64) : (calls.foldl next m).find? kind = some value ↔
      (kind.toRaw, value) ∈ taken calls m.entries ∨ m.find? kind = some value := by
  induction calls generalizing m with
  | nil => simp [taken]
  | cons c calls ih =>
    rw [List.foldl_cons, ih, taken_cons, next]
    cases hset : MetricSet.set m (.ofRaw c.1) c.2 with
    | error status => exact Iff.rfl
    | ok m' =>
      have hsame : (kind = .ofRaw c.1 ∧ value = c.2) ↔ (kind.toRaw, value) = c := by
        rw [Prod.ext_iff]
        refine and_congr_left' ?_
        constructor
        · rintro rfl
          exact MetricKind.toRaw_ofRaw c.1
        · intro hraw
          rw [← hraw, MetricKind.ofRaw_toRaw]
      dsimp only
      rw [MetricSet.find?_set hset, hsame, List.mem_cons, ← or_assoc]
      exact or_congr_left or_comm

theorem mem_taken {calls : List (UInt16 × UInt64)} {readings : MetricReadings}
    {c : UInt16 × UInt64} (h : c ∈ taken calls readings) : c ∈ calls := by
  induction calls generalizing readings with
  | nil => cases h
  | cons first calls ih =>
    rw [taken] at h
    split at h
    next =>
      rcases List.mem_cons.mp h with rfl | h
      · exact List.mem_cons_self
      · exact List.mem_cons_of_mem _ (ih h)
    next => exact List.mem_cons_of_mem _ (ih h)

/-- Kinds beyond the table are the ones without a name. -/
theorem declared_iff (kind : MetricKind) :
    Declared kind ↔ kind ≠ .unknown ∧ kind ≠ .count ∧ kind.toRaw.toNat < 21 := by
  unfold Declared
  cases kind with
  | undeclared raw h =>
    refine iff_of_false ?_ fun hdeclared => absurd hdeclared.2.2 (Nat.not_lt.mpr h)
    rintro ⟨_, hbelow⟩
    have hraw : raw.toNat < 20 := hbelow
    omega
  | _ => decide

theorem plausibleMax_beyond {kind : MetricKind} (h : 21 ≤ kind.toRaw.toNat) :
    metricPlausibleMax kind = 0 := by
  cases kind with
  | undeclared raw h => rfl
  | _ => exact absurd h (by decide)

/-- Declared kinds are fewer than a set may hold. -/
theorem size_of_declared {m : MetricSet} (h : ∀ e ∈ m.entries, Declared e.1) :
    m.size < kMaxMetricReadings := by
  have hkinds : (m.entries.map Prod.fst).Nodup := m.sorted.imp fun hlt => ne_of_lt hlt
  have hraw : ((m.entries.map Prod.fst).map fun kind => kind.toRaw.toNat).Nodup := by
    refine hkinds.map fun a b hab => ?_
    have hsame : a.toRaw = b.toRaw := UInt16.toNat_inj.mp hab
    rw [← MetricKind.ofRaw_toRaw a, hsame, MetricKind.ofRaw_toRaw]
  have hsub : ((m.entries.map Prod.fst).map fun kind => kind.toRaw.toNat) ⊆ List.range 21 := by
    intro n hn
    obtain ⟨kind, hkind, rfl⟩ := List.mem_map.mp hn
    obtain ⟨e, he, rfl⟩ := List.mem_map.mp hkind
    exact List.mem_range.mpr ((declared_iff e.1).mp (h e he)).2.2
  have hle := (List.subperm_of_subset hraw hsub).length_le
  rw [List.length_map, List.length_map, List.length_range] at hle
  exact Nat.lt_of_le_of_lt hle (by decide)

theorem kept_foldl {calls : List (UInt16 × UInt64)} {m : MetricSet} {kind : MetricKind}
    {value : UInt64} (h : m.find? kind = some value) :
    (calls.foldl next m).find? kind = some value :=
  (find?_foldl calls m kind value).mpr (.inr h)

/-- A call with a kind beyond the table and the value zero is taken by a set that has room and does
not hold the kind. -/
theorem next_beyond {m : MetricSet} {c : UInt16 × UInt64} (hbeyond : 21 ≤ c.1.toNat)
    (hzero : c.2 = 0) (hroom : m.size < kMaxMetricReadings)
    (hnew : m.contains (.ofRaw c.1) = false) : (next m c).find? (.ofRaw c.1) = some 0 := by
  have hraw : (MetricKind.ofRaw c.1).toRaw = c.1 := MetricKind.toRaw_ofRaw c.1
  have hvalid : validateMetricValue (.ofRaw c.1) c.2 = .ok () := by
    refine validateMetricValue_ok.mpr ⟨?_, ?_, ?_⟩
    · intro h
      rw [h] at hraw
      rw [← hraw] at hbeyond
      exact absurd hbeyond (by decide)
    · intro h
      rw [h] at hraw
      rw [← hraw] at hbeyond
      exact absurd hbeyond (by decide)
    · rw [hzero]
      exact UInt64.zero_le
  have hset := MetricSet.set_ok.mpr ⟨hvalid, hroom, hnew, rfl⟩
  rw [next, hset]
  exact (MetricSet.find?_set hset).mpr (.inl ⟨rfl, hzero.symm⟩)

/-- A set that a run makes of calls holds only declared kinds if no call sets one beyond the table
to zero, and no longer when one does. -/
theorem run_declared (calls : List (UInt16 × UInt64)) :
    (∀ e ∈ (calls.foldl next ∅).entries, Declared e.1) ↔ WithinTable calls := by
  constructor
  · intro hdeclared c hc hout
    obtain ⟨hbeyond, hzero⟩ := hout
    obtain ⟨before, after, rfl⟩ := List.append_of_mem hc
    rw [List.foldl_append, List.foldl_cons] at hdeclared
    -- What the set holds at the call or right after it, it holds in the end.
    have hafter : ∀ kind value, (next (before.foldl next ∅) c).find? kind = some value →
        Declared kind := fun kind value h =>
      hdeclared (kind, value) (SortedMap.mem_of_lookup (kept_foldl h))
    have hbefore : ∀ kind value, (before.foldl next ∅).find? kind = some value →
        Declared kind := fun kind value h =>
      hafter kind value (@kept_foldl [c] _ kind value h)
    have hundeclared : ¬Declared (.ofRaw c.1) := by
      intro h
      have hbelow := ((declared_iff _).mp h).2.2
      rw [MetricKind.toRaw_ofRaw] at hbelow
      omega
    have hroom := @size_of_declared (before.foldl next ∅) fun e he =>
      hbefore e.1 e.2 (SortedMap.lookup_of_mem (SortedMap.sorted _) he)
    cases hfind : (before.foldl next ∅).find? (.ofRaw c.1) with
    | some value => exact hundeclared (hbefore _ _ hfind)
    | none =>
      have hnew : (before.foldl next ∅).contains (.ofRaw c.1) = false := by
        unfold SortedMap.contains
        rw [hfind]
        rfl
      exact hundeclared (hafter _ _ (next_beyond hbeyond hzero hroom hnew))
  · intro hwithin e he
    have hbuilt := @built_foldl calls ∅ .empty
    have hfind : (calls.foldl next ∅).find? e.1 = some e.2 :=
      SortedMap.lookup_of_mem (SortedMap.sorted _) he
    have htaken : (e.1.toRaw, e.2) ∈ calls := by
      rcases (find?_foldl calls ∅ e.1 e.2).mp hfind with h | h
      · exact mem_taken h
      · rw [SortedMap.find?_empty] at h
        cases h
    obtain ⟨hunknown, hcount, hbound⟩ := validateMetricValue_ok.mp (hbuilt.valid he)
    refine (declared_iff e.1).mpr ⟨hunknown, hcount, ?_⟩
    by_contra hge
    have hbeyond := not_lt.mp hge
    rw [plausibleMax_beyond hbeyond] at hbound
    refine hwithin _ htaken ⟨hbeyond, ?_⟩
    exact UInt64.toNat_inj.mp (Nat.le_zero.mp (UInt64.le_iff_toNat_le.mp hbound))

theorem wellFormed_iff (calls : List (UInt16 × UInt64)) :
    WellFormed (taken calls []) (calls.foldl next ∅).entries ↔ WithinTable calls := by
  rw [← run_declared]
  constructor
  · exact fun h => h.declared
  · intro hdeclared
    have hbuilt := @built_foldl calls ∅ .empty
    refine ⟨SortedMap.sorted _, hdeclared, ?_, ?_⟩
    · intro e he
      exact (validateMetricValue_ok.mp (hbuilt.valid he)).2.2
    · intro kind value
      rw [get_entries, find?_foldl, SortedMap.find?_empty]
      exact or_iff_left nofun

theorem call_refused {m : MetricSet} {c : UInt16 × UInt64} {status : Status}
    (h : (call m.entries c).2 = .error status) : (call m.entries c).1 = m.entries := by
  unfold call at h ⊢
  rw [set_entries] at h ⊢
  cases hset : MetricSet.set m (.ofRaw c.1) c.2 with
  | error status => rfl
  | ok m' =>
    rw [hset] at h
    cases h

/-- Calls build well formed readings exactly when none sets a kind beyond the table to zero. -/
theorem wellBuilt_iff (calls : List (UInt16 × UInt64)) : WellBuilt calls ↔ WithinTable calls := by
  have hrun : ∀ calls, run calls [] = (calls.foldl next ∅).entries := fun calls =>
    run_entries calls ∅
  rw [← wellFormed_iff, ← hrun]
  constructor
  · exact fun h => h.wellFormed
  · refine fun h => ⟨h, fun before c after _ status hrefused => ?_⟩
    rw [hrun] at hrefused ⊢
    exact call_refused hrefused

end MetricReadings

end CongestionFabric
