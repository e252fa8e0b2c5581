import CongestionFabric.Durability.JournalFraming
import CongestionFabric.Durability.StoreCodec

namespace CongestionFabric

/-- A reader between two fields: the bytes to come, and the first failure if there was one. -/
structure ByteCursor where
  data : Bytes
  status : Option Status := none

/-- Code around the cursor. A read that fails is remembered there and the code goes on; an early
return of a status is the error of the monad. -/
abbrev StickyReader := StateT ByteCursor (Except Status)

namespace StickyReader

/-- After a failure every read gives zero. -/
def u8 : StickyReader UInt8 := fun cursor =>
  match cursor.status, cursor.data with
  | some _, _ => .ok (0, cursor)
  | none, [] =>
    .ok (0, { cursor with
      status := some ⟨.truncated, "payload ended before the field was complete", ""⟩ })
  | none, byte :: rest => .ok (byte, { cursor with data := rest })

/-- Bytes put together from the lowest. -/
def number : Nat → StickyReader Nat
  | 0 => return 0
  | width + 1 => do
    let low ← u8
    let high ← number width
    return low.toNat + 256 * high

def u16 : StickyReader UInt16 := do return UInt16.ofNat (← number 2)
def u32 : StickyReader UInt32 := do return UInt32.ofNat (← number 4)
def u64 : StickyReader UInt64 := do return UInt64.ofNat (← number 8)
def id (tag : IdTag) : StickyReader (StrongId tag) := do return ⟨← u64⟩

def good : StickyReader Bool := fun cursor => .ok (cursor.status.isNone, cursor)

/-- Return the failure that the cursor remembers. -/
def check : StickyReader Unit := fun cursor =>
  match cursor.status with
  | some status => .error status
  | none => .ok ((), cursor)

def returnIf (bad : Prop) [Decidable bad] (code : ErrCode) (message : String) :
    StickyReader Unit := fun cursor => if bad then fail code message else .ok ((), cursor)

def ofResult {α : Type} (result : Result α) : StickyReader α := fun cursor =>
  result.map fun a => (a, cursor)

def decode {α : Type} (reader : StickyReader α) (payload : Bytes) : Result α :=
  (reader ⟨payload, none⟩).map Prod.fst

/-! ### Both ways of reading -/

/-- Nothing good comes of it: an early return, or a cursor that remembers a failure. -/
def Fails {α : Type} (outcome : Except Status (α × ByteCursor)) : Prop :=
  ∀ a cursor, outcome = .ok (a, cursor) → cursor.status ≠ none

/-- Code with a sticky cursor does what a reader does that stops at the first failure. -/
structure Follows {α : Type} (sticky : StickyReader α) (reader : ByteReader α) : Prop where
  success : ∀ {data : Bytes} {a : α} {rest : Bytes}, reader data = .ok (a, rest) →
    sticky ⟨data, none⟩ = .ok (a, ⟨rest, none⟩)
  failure : ∀ {data : Bytes} {status : Status}, reader data = .error status →
    Fails (sticky ⟨data, none⟩)
  stays : ∀ {cursor : ByteCursor}, cursor.status ≠ none → Fails (sticky cursor)

variable {α β : Type} {sticky : StickyReader α} {reader : ByteReader α}
  {next : α → StickyReader β} {next' : α → ByteReader β}

theorem bind_ok {cursor cursor' : ByteCursor} {b : β} :
    (sticky >>= next) cursor = .ok (b, cursor') ↔
      ∃ a between, sticky cursor = .ok (a, between) ∧ next a between = .ok (b, cursor') := by
  show (sticky cursor).bind (fun p => next p.1 p.2) = .ok (b, cursor') ↔ _
  cases sticky cursor with
  | error status =>
    constructor
    · intro h
      cases h
    · intro h
      obtain ⟨_, _, hfirst, _⟩ := h
      cases hfirst
  | ok p =>
    constructor
    · intro h
      exact ⟨p.1, p.2, rfl, h⟩
    · intro h
      obtain ⟨a, between, hfirst, hsecond⟩ := h
      cases hfirst
      exact hsecond

/-- Code that looks at the cursor before it returns. -/
def Ends (sticky : StickyReader α) : Prop :=
  ∀ (cursor cursor' : ByteCursor) (a : α), sticky cursor = .ok (a, cursor') →
    cursor'.status = none

theorem Ends.check {a : α} : Ends (check >>= fun _ => Pure.pure a) := by
  intro cursor cursor' a' h
  obtain ⟨_, between, hcheck, hlast⟩ := bind_ok.mp h
  obtain ⟨_, rfl⟩ := Prod.mk.inj (Except.ok.inj hlast)
  unfold StickyReader.check at hcheck
  split at hcheck
  next => cases hcheck
  next hgood =>
    obtain ⟨_, rfl⟩ := Prod.mk.inj (Except.ok.inj hcheck)
    exact hgood

theorem Ends.bind (h : ∀ a, Ends (next a)) : Ends (sticky >>= next) := by
  intro cursor cursor' b hok
  obtain ⟨a, _, _, hlast⟩ := bind_ok.mp hok
  exact h a _ _ b hlast

theorem Fails.bind {cursor : ByteCursor} (h : Fails (sticky cursor))
    (hnext : ∀ a {between : ByteCursor}, between.status ≠ none → Fails (next a between)) :
    Fails ((sticky >>= next) cursor) := by
  intro b cursor' hok
  obtain ⟨a, between, hfirst, hsecond⟩ := bind_ok.mp hok
  exact hnext a (h a between hfirst) b cursor' hsecond

namespace Follows

theorem pure (a : α) : Follows (Pure.pure a) (Pure.pure a) := by
  constructor
  · intro data a' rest h
    obtain ⟨rfl, rfl⟩ := Prod.mk.inj (Except.ok.inj h)
    rfl
  · intro data status h
    cases h
  · intro cursor hfailed a' cursor' h
    obtain ⟨rfl, rfl⟩ := Prod.mk.inj (Except.ok.inj h)
    exact hfailed

theorem bind (h : Follows sticky reader) (hnext : ∀ a, Follows (next a) (next' a)) :
    Follows (sticky >>= next) (reader >>= next') := by
  constructor
  · intro data b rest hok
    cases hread : reader data with
    | error status =>
      have hfails : (reader >>= next') data = .error status := by
        simp [Bind.bind, StateT.bind, hread, Except.bind]
      rw [hfails] at hok
      cases hok
    | ok p =>
      rw [ByteReader.bind_append hread] at hok
      exact bind_ok.mpr ⟨p.1, _, h.success hread, (hnext p.1).success hok⟩
  · intro data status herror
    cases hread : reader data with
    | error status' => exact (h.failure hread).bind fun a _ hfailed => (hnext a).stays hfailed
    | ok p =>
      rw [ByteReader.bind_append hread] at herror
      intro b cursor hok
      obtain ⟨a, between, hfirst, hsecond⟩ := bind_ok.mp hok
      rw [h.success hread] at hfirst
      obtain ⟨rfl, rfl⟩ := Prod.mk.inj (Except.ok.inj hfirst)
      exact (hnext _).failure herror b cursor hsecond
  · intro cursor hfailed
    exact (h.stays hfailed).bind fun a _ hbetween => (hnext a).stays hbetween

/-- A look at the cursor changes nothing for a reader that has stopped already. -/
theorem checked (h : Follows sticky reader) : Follows (check >>= fun _ => sticky) reader := by
  constructor
  · intro data a rest hok
    exact bind_ok.mpr ⟨(), _, rfl, h.success hok⟩
  · intro data status herror a cursor hok
    obtain ⟨_, between, hfirst, hsecond⟩ := bind_ok.mp hok
    obtain ⟨rfl, rfl⟩ := Prod.mk.inj (Except.ok.inj hfirst)
    exact h.failure herror a cursor hsecond
  · intro cursor hfailed a cursor' hok
    obtain ⟨_, between, hfirst, _⟩ := bind_ok.mp hok
    unfold check at hfirst
    split at hfirst
    next => cases hfirst
    next hgood => exact absurd hgood hfailed

/-- Code that goes on only while the cursor is good, and leaves it as it is otherwise. -/
theorem whileGood {otherwise : α} (h : Follows sticky reader) :
    Follows (good >>= fun ok => if ok then sticky else Pure.pure otherwise) reader := by
  constructor
  · intro data a rest hok
    exact bind_ok.mpr ⟨true, _, rfl, h.success hok⟩
  · intro data status herror a cursor hok
    obtain ⟨_, between, hfirst, hsecond⟩ := bind_ok.mp hok
    obtain ⟨rfl, rfl⟩ := Prod.mk.inj (Except.ok.inj hfirst)
    exact h.failure herror a cursor hsecond
  · intro cursor hfailed a cursor' hok
    obtain ⟨_, between, hfirst, hsecond⟩ := bind_ok.mp hok
    obtain ⟨rfl, rfl⟩ := Prod.mk.inj (Except.ok.inj hfirst)
    cases hstatus : cursor.status with
    | none => exact absurd hstatus hfailed
    | some status =>
      rw [hstatus] at hsecond
      obtain ⟨rfl, rfl⟩ := Prod.mk.inj (Except.ok.inj hsecond)
      exact hfailed

theorem ofResult (result : Result α) :
    Follows (StickyReader.ofResult result) (fun data => result.map fun a => (a, data)) := by
  cases result with
  | ok a => exact Follows.pure a
  | error status =>
    constructor
    · exact fun h => nomatch h
    · exact fun _ a cursor h => nomatch h
    · exact fun _ a cursor h => nomatch h

theorem returnIf (bad : Prop) [Decidable bad] (code : ErrCode) (message : String) :
    Follows (StickyReader.returnIf bad code message) (ByteReader.require bad code message) := by
  unfold StickyReader.returnIf ByteReader.require
  split
  · exact Follows.ofResult (.error _)
  · exact Follows.pure ()

theorem number_good (width : Nat) (data : Bytes) (h : width ≤ data.length) :
    StickyReader.number width ⟨data, none⟩ =
      .ok (fromLittleEndian (data.take width), ⟨data.drop width, none⟩) := by
  induction width generalizing data with
  | zero => rfl
  | succ width ih =>
    cases data with
    | nil => exact absurd h (Nat.not_succ_le_zero _)
    | cons byte rest =>
      have hrest := ih rest (Nat.le_of_succ_le_succ h)
      exact bind_ok.mpr ⟨byte, ⟨rest, none⟩, rfl, bind_ok.mpr ⟨_, _, hrest, rfl⟩⟩

theorem u8_stays {cursor : ByteCursor} (h : cursor.status ≠ none) :
    Fails (StickyReader.u8 cursor) := by
  intro a cursor' hok
  cases hstatus : cursor.status with
  | none => exact absurd hstatus h
  | some status =>
    unfold StickyReader.u8 at hok
    rw [hstatus] at hok
    obtain ⟨_, rfl⟩ := Prod.mk.inj (Except.ok.inj hok)
    exact h

theorem number_stays (width : Nat) {cursor : ByteCursor} (h : cursor.status ≠ none) :
    Fails (StickyReader.number width cursor) := by
  induction width generalizing cursor with
  | zero => exact (Follows.pure 0).stays h
  | succ width ih =>
    refine (u8_stays h).bind fun low between hbetween => ?_
    exact (ih hbetween).bind fun high _ hlast => (Follows.pure _).stays hlast

theorem number_short (width : Nat) (data : Bytes) (h : data.length < width) :
    Fails (StickyReader.number width ⟨data, none⟩) := by
  induction width generalizing data with
  | zero => exact absurd h (Nat.not_lt_zero _)
  | succ width ih =>
    intro a cursor hok
    obtain ⟨low, between, hlow, hrest⟩ := bind_ok.mp hok
    obtain ⟨high, last, hhigh, hlast⟩ := bind_ok.mp hrest
    obtain ⟨_, rfl⟩ := Prod.mk.inj (Except.ok.inj hlast)
    cases data with
    | nil =>
      obtain ⟨_, rfl⟩ := Prod.mk.inj (Except.ok.inj hlow)
      exact number_stays width (by simp) high _ hhigh
    | cons byte rest =>
      obtain ⟨_, rfl⟩ := Prod.mk.inj (Except.ok.inj hlow)
      exact ih rest (Nat.lt_of_succ_lt_succ h) high _ hhigh

theorem number (width : Nat) : Follows (StickyReader.number width) (ByteReader.field width) := by
  constructor
  · intro data n rest h
    unfold ByteReader.field takeField at h
    split at h
    next found hfound =>
      split at hfound
      next => cases hfound
      next hlong =>
        obtain rfl := Option.some.inj hfound
        obtain ⟨rfl, rfl⟩ := Prod.mk.inj (Except.ok.inj h)
        exact number_good width data (not_lt.mp hlong)
    next => cases h
  · intro data status h
    unfold ByteReader.field takeField at h
    split at h
    next => cases h
    next hnone =>
      split at hnone
      next hshort => exact number_short width data hshort
      next => cases hnone
  · exact number_stays width

theorem u16 : Follows StickyReader.u16 ByteReader.u16 := (number 2).bind fun _ => .pure _

theorem u32 : Follows StickyReader.u32 ByteReader.u32 := (number 4).bind fun _ => .pure _

theorem u64 : Follows StickyReader.u64 ByteReader.u64 := (number 8).bind fun _ => .pure _

theorem id (tag : IdTag) : Follows (StickyReader.id tag) (ByteReader.id tag) :=
  u64.bind fun _ => .pure _

/-- Such code decodes what the reader decodes. -/
theorem decode_iff (h : Follows sticky reader) (hends : Ends sticky) {payload : Bytes} {a : α} :
    StickyReader.decode sticky payload = .ok a ↔ ByteReader.decode reader payload = .ok a := by
  unfold StickyReader.decode ByteReader.decode
  cases hread : reader payload with
  | ok p =>
    rw [h.success hread]
    rfl
  | error status =>
    cases hsticky : sticky ⟨payload, none⟩ with
    | error status' => exact iff_of_false nofun nofun
    | ok p => exact absurd (hends _ _ _ hsticky) (h.failure hread p.1 p.2 hsticky)

end Follows

end StickyReader

/-! ### Readers and the ends of their bytes -/

namespace ByteReader

/-- Bytes to come do not change what has been read. -/
def Steady {α : Type} (reader : ByteReader α) : Prop :=
  ∀ (data rest : Bytes) (a : α), reader data = .ok (a, rest) →
    ∀ extra, reader (data ++ extra) = .ok (a, rest ++ extra)

variable {α β : Type} {reader : ByteReader α} {next : α → ByteReader β}

theorem bind_eq_ok {data rest : Bytes} {b : β} :
    (reader >>= next) data = .ok (b, rest) ↔
      ∃ a between, reader data = .ok (a, between) ∧ next a between = .ok (b, rest) := by
  cases hread : reader data with
  | error status =>
    have hfails : (reader >>= next) data = .error status := by
      simp [bind, StateT.bind, hread, Except.bind]
    rw [hfails]
    exact iff_of_false nofun (by simp)
  | ok p =>
    obtain ⟨a, between⟩ := p
    rw [bind_append hread]
    simp

namespace Steady

theorem pure (a : α) : Steady (Pure.pure a) := by
  intro data rest a' h extra
  obtain ⟨rfl, rfl⟩ := Prod.mk.inj (Except.ok.inj h)
  rfl

theorem bind (h : Steady reader) (hnext : ∀ a, Steady (next a)) : Steady (reader >>= next) := by
  intro data rest b hok extra
  obtain ⟨a, between, hfirst, hsecond⟩ := bind_eq_ok.mp hok
  exact bind_eq_ok.mpr
    ⟨a, between ++ extra, h _ _ a hfirst extra, hnext a _ _ b hsecond extra⟩

theorem field (width : Nat) : Steady (ByteReader.field width) := by
  intro data rest n h extra
  unfold ByteReader.field takeField at h ⊢
  by_cases hshort : data.length < width
  · rw [if_pos hshort] at h
    cases h
  · rw [if_neg hshort] at h
    obtain ⟨rfl, rfl⟩ := Prod.mk.inj (Except.ok.inj h)
    have hlong : ¬(data ++ extra).length < width := by
      rw [List.length_append]
      omega
    rw [if_neg hlong, List.take_append_of_le_length (not_lt.mp hshort),
      List.drop_append_of_le_length (not_lt.mp hshort)]

theorem u16 : Steady ByteReader.u16 := (field 2).bind fun _ => .pure _

theorem u32 : Steady ByteReader.u32 := (field 4).bind fun _ => .pure _

theorem u64 : Steady ByteReader.u64 := (field 8).bind fun _ => .pure _

theorem id (tag : IdTag) : Steady (ByteReader.id tag) := u64.bind fun _ => .pure _

theorem require (bad : Prop) [Decidable bad] (code : ErrCode) (message : String) :
    Steady (ByteReader.require bad code message) := by
  unfold ByteReader.require
  split
  · exact fun _ _ _ h => nomatch h
  · exact pure ()

theorem times (h : Steady reader) (count : Nat) : Steady (ByteReader.times reader count) := by
  induction count with
  | zero => exact pure []
  | succ count ih => exact h.bind fun first => ih.bind fun rest => .pure _

theorem listOf (h : Steady reader) (bound : Nat) (message : String) :
    Steady (ByteReader.listOf bound message reader) :=
  u64.bind fun _ => (require _ _ _).bind fun _ => h.times _

/-- What a reader needs in full it does not find in a part. -/
theorem refuses_part (h : Steady reader) {bytes : Bytes} {a : α} (hall : reader bytes = .ok (a, []))
    {k : Nat} (hk : k < bytes.length) {b : α} : ByteReader.decode reader (bytes.take k) ≠ .ok b := by
  intro hok
  unfold ByteReader.decode at hok
  cases hpart : reader (bytes.take k) with
  | error status =>
    rw [hpart] at hok
    cases hok
  | ok p =>
    have hextended := h _ _ _ hpart (bytes.drop k)
    rw [List.take_append_drop, hall] at hextended
    have hrest := (Prod.mk.inj (Except.ok.inj hextended)).2
    have hnothing := congrArg List.length hrest
    rw [List.length_append, List.length_drop, List.length_nil] at hnothing
    omega

end Steady

end ByteReader

end CongestionFabric
