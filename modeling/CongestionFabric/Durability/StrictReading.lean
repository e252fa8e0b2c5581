import CongestionFabric.Durability.StickyReader
import CongestionFabric.Lib.Layout

namespace CongestionFabric

/-- A reader and a layout of the same bytes. Bytes of the layout are read as the one encoding of a
good value; and where a reader has read a good value from its encoding, the bytes are of the layout.
`known` is what holds of anything the reader returns. -/
structure Takes {α : Type} (reader : ByteReader α) (layout : Layout) (known good : α → Prop)
    (put : α → Bytes) : Prop where
  returns : ∀ {data rest : Bytes} {a : α}, reader data = .ok (a, rest) → known a
  complete : ∀ {data rest : Bytes}, layout data = some rest →
    ∃ a, reader data = .ok (a, rest) ∧ good a ∧ data = put a ++ rest
  sound : ∀ {rest rest' : Bytes} {a : α}, reader (put a ++ rest) = .ok (a, rest') → good a →
    layout (put a ++ rest) = some rest ∧ rest' = rest

namespace Takes

variable {α β : Type} {reader : ByteReader α} {next : α → ByteReader β} {layout : Layout}
  {layouts : List Layout} {known : β → Prop} {good : α → Prop} {good' : β → Prop} {put : α → Bytes}
  {put' : β → Bytes}

theorem bind_ok {data rest : Bytes} {b : β} {a : α} {between : Bytes}
    (h : reader data = .ok (a, between)) (h' : next a between = .ok (b, rest)) :
    (reader >>= next) data = .ok (b, rest) :=
  ByteReader.bind_eq_ok.mpr ⟨a, between, h, h'⟩

/-- A field that has to be good, with the rest of the record after it. -/
theorem checked (part : β → α) (h : Takes reader layout (fun _ => True) good put)
    (h' : ∀ a, Takes (next a) (Layout.all layouts) (fun b => known b ∧ part b = a) good' put') :
    Takes (reader >>= next) (Layout.all (layout :: layouts)) known
      (fun b => good (part b) ∧ good' b) (fun b => put (part b) ++ put' b) := by
  constructor
  · intro data rest b hread
    obtain ⟨a, between, _, hnext⟩ := ByteReader.bind_eq_ok.mp hread
    exact ((h' a).returns hnext).1
  · intro data rest hlayout
    rw [Layout.all_cons, Option.bind_eq_some_iff] at hlayout
    obtain ⟨between, hfirst, hrest⟩ := hlayout
    obtain ⟨a, hread, hgood, rfl⟩ := h.complete hfirst
    obtain ⟨b, hnext, hgood', rfl⟩ := (h' a).complete hrest
    obtain ⟨_, rfl⟩ := (h' a).returns hnext
    refine ⟨b, bind_ok hread hnext, ⟨hgood, hgood'⟩, ?_⟩
    rw [List.append_assoc]
  · intro rest rest' b hread hgood
    obtain ⟨a, between, hfirst, hnext⟩ := ByteReader.bind_eq_ok.mp hread
    obtain ⟨_, rfl⟩ := (h' a).returns hnext
    rw [List.append_assoc] at hfirst ⊢
    obtain ⟨hlayout, rfl⟩ := h.sound hfirst hgood.1
    obtain ⟨hlayouts, rfl⟩ := (h' _).sound hnext hgood.2
    rw [Layout.all_cons, hlayout]
    exact ⟨hlayouts, rfl⟩

theorem congr {put'' : β → Bytes} {good'' : β → Prop} {reader : ByteReader β}
    (h : Takes reader layout known good' put') (hgood : ∀ b, good'' b ↔ good' b)
    (hput : ∀ b, put'' b = put' b) : Takes reader layout known good'' put'' := by
  obtain rfl : put'' = put' := funext hput
  obtain rfl : good'' = good' := funext fun b => propext (hgood b)
  exact h

/-- A field without conditions, with the rest of the record after it. -/
theorem field (part : β → α) (h : Takes reader layout (fun _ => True) (fun _ => True) put)
    (h' : ∀ a, Takes (next a) (Layout.all layouts) (fun b => known b ∧ part b = a) good' put') :
    Takes (reader >>= next) (Layout.all (layout :: layouts)) known good'
      (fun b => put (part b) ++ put' b) :=
  (checked part h h').congr (fun _ => (iff_of_eq (true_and _)).symm) fun _ => rfl

/-- A value made of one field. -/
theorem map {make : α → β} {found : α → Prop} (part : β → α)
    (h : Takes reader layout found good put)
    (hmake : ∀ a, found a → known (make a) ∧ part (make a) = a) :
    Takes (reader >>= fun a => pure (make a)) layout known (fun b => good (part b))
      (fun b => put (part b)) := by
  constructor
  · intro data rest b hread
    obtain ⟨a, between, hfirst, hlast⟩ := ByteReader.bind_eq_ok.mp hread
    obtain ⟨rfl, rfl⟩ := Prod.mk.inj (Except.ok.inj hlast)
    exact (hmake a (h.returns hfirst)).1
  · intro data rest hlayout
    obtain ⟨a, hread, hgood, rfl⟩ := h.complete hlayout
    have hpart := (hmake a (h.returns hread)).2
    refine ⟨make a, bind_ok hread rfl, ?_, ?_⟩
    · rwa [hpart]
    · rw [hpart]
  · intro rest rest' b hread hgood
    obtain ⟨a, between, hfirst, hlast⟩ := ByteReader.bind_eq_ok.mp hread
    obtain ⟨rfl, rfl⟩ := Prod.mk.inj (Except.ok.inj hlast)
    have hpart := (hmake a (h.returns hfirst)).2
    rw [hpart] at hfirst hgood ⊢
    exact h.sound hfirst hgood

/-- The last field of a record. -/
theorem last {make : α → β} (part : β → α) (h : Takes reader layout (fun _ => True) good put)
    (hmake : ∀ a, known (make a) ∧ part (make a) = a) :
    Takes (reader >>= fun a => pure (make a)) (Layout.all [layout]) known
      (fun b => good (part b)) (fun b => put (part b)) := by
  rw [Layout.all_singleton]
  exact h.map part fun a _ => hmake a

/-! ### Numbers -/

theorem field_eq_ok {width n : Nat} {data rest : Bytes} :
    ByteReader.field width data = .ok (n, rest) ↔
      data = littleEndian width n ++ rest ∧ n < 256 ^ width := by
  rw [← Layout.takeField_eq_some]
  unfold ByteReader.field
  cases takeField width data with
  | none => exact iff_of_false nofun nofun
  | some found =>
    exact ⟨fun h => congrArg some (Except.ok.inj h), fun h => congrArg _ (Option.some.inj h)⟩

/-- A number below a bound. -/
theorem numberBelow (width bound : Nat) : Takes (ByteReader.field width) (Layout.below width bound)
    (fun n => n < 256 ^ width) (fun n => n < bound) (littleEndian width) := by
  constructor
  · exact fun hread => (field_eq_ok.mp hread).2
  · intro data rest hlayout
    obtain ⟨n, hdata, hwidth, hbound⟩ := Layout.below_eq_some.mp hlayout
    exact ⟨n, field_eq_ok.mpr ⟨hdata, hwidth⟩, hbound, hdata⟩
  · intro rest rest' n hread hbound
    obtain ⟨hdata, hwidth⟩ := field_eq_ok.mp hread
    exact ⟨Layout.below_eq_some.mpr ⟨n, rfl, hwidth, hbound⟩,
      (List.append_cancel_left hdata).symm⟩

theorem number (width : Nat) : Takes (ByteReader.field width) (Layout.fixed width)
    (fun n => n < 256 ^ width) (fun _ => True) (littleEndian width) := by
  constructor
  · exact fun hread => (field_eq_ok.mp hread).2
  · intro data rest hlayout
    obtain ⟨n, hdata, hwidth⟩ := Layout.fixed_eq_some.mp hlayout
    exact ⟨n, field_eq_ok.mpr ⟨hdata, hwidth⟩, trivial, hdata⟩
  · intro rest rest' n hread _
    obtain ⟨hdata, hwidth⟩ := field_eq_ok.mp hread
    exact ⟨Layout.fixed_eq_some.mpr ⟨n, rfl, hwidth⟩, (List.append_cancel_left hdata).symm⟩

theorem u8Below (bound : Nat) : Takes ByteReader.u8 (Layout.below 1 bound) (fun _ => True)
    (fun value => value.toNat < bound) ByteWriter.u8 :=
  ((numberBelow 1 bound).map UInt8.toNat fun n hn =>
    ⟨trivial, by rw [UInt8.toNat_ofNat']; exact Nat.mod_eq_of_lt hn⟩).congr (fun _ => Iff.rfl)
      fun value => by simp [ByteWriter.u8, littleEndian]

theorem u16Below (bound : Nat) : Takes ByteReader.u16 (Layout.below 2 bound) (fun _ => True)
    (fun value => value.toNat < bound) ByteWriter.u16 :=
  (numberBelow 2 bound).map UInt16.toNat fun n hn =>
    ⟨trivial, by rw [UInt16.toNat_ofNat']; exact Nat.mod_eq_of_lt hn⟩

theorem u32 : Takes ByteReader.u32 (Layout.fixed 4) (fun _ => True) (fun _ => True)
    ByteWriter.u32 :=
  (number 4).map UInt32.toNat fun n hn =>
    ⟨trivial, by rw [UInt32.toNat_ofNat']; exact Nat.mod_eq_of_lt hn⟩

theorem u64 : Takes ByteReader.u64 (Layout.fixed 8) (fun _ => True) (fun _ => True)
    ByteWriter.u64 :=
  (number 8).map UInt64.toNat fun n hn =>
    ⟨trivial, by rw [UInt64.toNat_ofNat']; exact Nat.mod_eq_of_lt hn⟩

theorem i64 : Takes ByteReader.i64 (Layout.fixed 8) (fun _ => True) (fun _ => True)
    ByteWriter.i64 :=
  u64.map Int64.toUInt64 fun _ _ => ⟨trivial, by simp⟩

theorem id (tag : IdTag) : Takes (ByteReader.id tag) (Layout.fixed 8) (fun _ => True)
    (fun _ => True) StrongId.put :=
  u64.map StrongId.value fun _ _ => ⟨trivial, rfl⟩

theorem hash : Takes ByteReader.hash (Layout.fixed 8) (fun _ => True) (fun _ => True)
    (fun hash => ByteWriter.u64 hash.value) :=
  u64.map Hash64.value fun _ _ => ⟨trivial, rfl⟩

/-- A boolean is the number zero or one, though a reader takes any other for one. -/
theorem boolean : Takes ByteReader.boolean Layout.boolean (fun _ => True) (fun _ => True)
    ByteWriter.boolean := by
  have hbyte := u8Below 2
  constructor
  · exact fun _ => trivial
  · intro data rest hlayout
    obtain ⟨value, hread, hbelow, rfl⟩ := hbyte.complete hlayout
    refine ⟨value ≠ 0, bind_ok hread rfl, trivial, ?_⟩
    have hcases : value = 0 ∨ value = 1 := by
      have hvalue : value.toNat = 0 ∨ value.toNat = 1 := by omega
      exact hvalue.imp UInt8.toNat_inj.mp UInt8.toNat_inj.mp
    rcases hcases with rfl | rfl <;> rfl
  · intro rest rest' flag hread _
    obtain ⟨value, between, hfirst, hlast⟩ := ByteReader.bind_eq_ok.mp hread
    obtain ⟨_, rfl⟩ := Prod.mk.inj (Except.ok.inj hlast)
    have hwritten := ByteReader.u8_append (if flag then 1 else 0) rest
    have hvalue : value = (if flag then 1 else 0) ∧ between = rest := by
      unfold ByteWriter.boolean at hfirst
      rw [hwritten] at hfirst
      obtain ⟨hvalue, hrest⟩ := Prod.mk.inj (Except.ok.inj hfirst)
      exact ⟨hvalue.symm, hrest.symm⟩
    obtain ⟨rfl, rfl⟩ := hvalue
    refine hbyte.sound hfirst ?_
    cases flag <;> decide

/-! ### Texts and lists -/

def putText (value : Bytes) : Bytes := ByteWriter.u32 (UInt32.ofNat value.length) ++ value

theorem length_toNat {value : Bytes} (h : value.length ≤ 0xFFFFFFFF) :
    (UInt32.ofNat value.length).toNat = value.length := by
  rw [UInt32.toNat_ofNat']
  exact Nat.mod_eq_of_lt (by omega)

theorem text_append {bound : Nat} {value : Bytes} (hbound : value.length ≤ bound)
    (hlength : value.length ≤ 0xFFFFFFFF) (rest : Bytes) :
    ByteReader.text bound (putText value ++ rest) = .ok (value, rest) := by
  have hfits : ¬(UInt32.ofNat value.length).toNat > bound := by
    rw [length_toNat hlength]
    omega
  rw [putText, List.append_assoc]
  refine bind_ok (ByteReader.u32_append _ _) (bind_ok (if_neg hfits) ?_)
  rw [length_toNat hlength]
  simp [ByteReader.raw]

theorem text (bound : Nat) : Takes (ByteReader.text bound) (Layout.text bound) (fun _ => True)
    (fun value => value.length ≤ bound ∧ value.length ≤ 0xFFFFFFFF) putText := by
  constructor
  · exact fun _ => trivial
  · intro data rest hlayout
    obtain ⟨value, rfl, hwidth, hbound⟩ := Layout.text_eq_some.mp hlayout
    have hlength : value.length ≤ 0xFFFFFFFF := by omega
    have hdata : littleEndian 4 value.length ++ (value ++ rest) = putText value ++ rest := by
      rw [putText, ByteWriter.u32, length_toNat hlength, List.append_assoc]
    rw [hdata]
    exact ⟨value, text_append hbound hlength rest, ⟨hbound, hlength⟩, rfl⟩
  · intro rest rest' value hok hgood
    obtain ⟨hbound, hlength⟩ := hgood
    rw [text_append hbound hlength rest] at hok
    have hrest := (Prod.mk.inj (Except.ok.inj hok)).2
    refine ⟨Layout.text_eq_some.mpr ⟨value, ?_, by omega, hbound⟩, hrest.symm⟩
    rw [putText, ByteWriter.u32, length_toNat hlength, List.append_assoc]

theorem times (h : Takes reader layout (fun _ => True) good put) (count : Nat) :
    Takes (ByteReader.times reader count) (Layout.times layout count)
      (fun values => values.length = count) (fun values => ∀ a ∈ values, good a)
      (fun values => values.flatMap put) := by
  induction count with
  | zero =>
    constructor
    · intro data rest values hread
      obtain ⟨rfl, rfl⟩ := Prod.mk.inj (Except.ok.inj hread)
      rfl
    · intro data rest hlayout
      obtain rfl := Option.some.inj hlayout
      exact ⟨[], rfl, by simp, rfl⟩
    · intro rest rest' values hread _
      obtain ⟨rfl, rfl⟩ := Prod.mk.inj (Except.ok.inj hread)
      exact ⟨rfl, rfl⟩
  | succ count ih =>
    constructor
    · intro data rest values hread
      obtain ⟨a, _, _, hread⟩ := ByteReader.bind_eq_ok.mp hread
      obtain ⟨later, _, hlater, hlast⟩ := ByteReader.bind_eq_ok.mp hread
      obtain ⟨rfl, rfl⟩ := Prod.mk.inj (Except.ok.inj hlast)
      rw [List.length_cons, ih.returns hlater]
    · intro data rest hlayout
      obtain ⟨between, hfirst, hrest⟩ := Option.bind_eq_some_iff.mp hlayout
      obtain ⟨a, hread, hgood, rfl⟩ := h.complete hfirst
      obtain ⟨later, hlater, hall, rfl⟩ := ih.complete hrest
      refine ⟨a :: later, bind_ok hread (bind_ok hlater rfl), ?_, ?_⟩
      · exact List.forall_mem_cons.mpr ⟨hgood, hall⟩
      · rw [List.flatMap_cons, List.append_assoc]
    · intro rest rest' values hread hgood
      obtain ⟨a, _, hfirst, hread⟩ := ByteReader.bind_eq_ok.mp hread
      obtain ⟨later, _, hlater, hlast⟩ := ByteReader.bind_eq_ok.mp hread
      obtain ⟨rfl, rfl⟩ := Prod.mk.inj (Except.ok.inj hlast)
      obtain ⟨ha, hall⟩ := List.forall_mem_cons.mp hgood
      rw [List.flatMap_cons, List.append_assoc] at hfirst ⊢
      obtain ⟨hlayout, rfl⟩ := h.sound hfirst ha
      obtain ⟨hlayouts, rfl⟩ := ih.sound hlater hall
      refine ⟨?_, rfl⟩
      show (layout _).bind _ = _
      rw [hlayout]
      exact hlayouts

def putList (put : α → Bytes) (values : List α) : Bytes :=
  ByteWriter.size values.length ++ values.flatMap put

theorem list {bound : Nat} {message : String} (h : Takes reader layout (fun _ => True) good put) :
    Takes (ByteReader.listOf bound message reader) (Layout.list bound layout) (fun _ => True)
      (fun values => ∀ a ∈ values, good a) (putList put) := by
  constructor
  · exact fun _ => trivial
  · intro data rest hlayout
    obtain ⟨n, after, rfl, hwidth, hbound, htimes⟩ := Layout.list_eq_some.mp hlayout
    obtain ⟨values, hread, hgood, rfl⟩ := (h.times n).complete htimes
    have hlength := (h.times n).returns hread
    have hn : (UInt64.ofNat n).toNat = n := by
      rw [UInt64.toNat_ofNat']
      exact Nat.mod_eq_of_lt hwidth
    have hcount : ByteReader.u64 (littleEndian 8 n ++ (values.flatMap put ++ rest)) =
        .ok (UInt64.ofNat n, values.flatMap put ++ rest) :=
      bind_ok (field_eq_ok.mpr ⟨rfl, hwidth⟩) rfl
    have hfits : ¬(UInt64.ofNat n).toNat > bound := by
      rw [hn]
      exact not_lt.mpr hbound
    refine ⟨values, bind_ok hcount (bind_ok (if_neg hfits) ?_), hgood, ?_⟩
    · rwa [hn]
    · rw [putList, ByteWriter.size, ByteWriter.u64, hlength, hn, List.append_assoc]
  · intro rest rest' values hread hgood
    obtain ⟨count, _, hcount, hread⟩ := ByteReader.bind_eq_ok.mp hread
    obtain ⟨_, _, hfits, htimes⟩ := ByteReader.bind_eq_ok.mp hread
    rw [putList, List.append_assoc] at hcount ⊢
    rw [ByteWriter.size, ByteReader.u64_append] at hcount
    obtain ⟨rfl, rfl⟩ := Prod.mk.inj (Except.ok.inj hcount)
    unfold ByteReader.require at hfits
    split at hfits
    next => cases hfits
    next hbound =>
      obtain ⟨_, rfl⟩ := Prod.mk.inj (Except.ok.inj hfits)
      obtain ⟨hlayout, rfl⟩ := (h.times _).sound htimes hgood
      refine ⟨Layout.list_eq_some.mpr ⟨_, _, rfl, ?_, not_lt.mp hbound, hlayout⟩, rfl⟩
      exact UInt64.toNat_lt _

theorem text_eq_ok {value bytes : Bytes} {bound : Nat} :
    ByteWriter.text value bound = .ok bytes ↔
      (value.length ≤ bound ∧ value.length ≤ 0xFFFFFFFF) ∧ bytes = putText value := by
  unfold ByteWriter.text
  constructor
  · intro h
    split at h
    next => cases h
    next hfits => exact ⟨by omega, (Except.ok.inj h).symm⟩
  · rintro ⟨hfits, rfl⟩
    exact if_neg (by omega)

theorem pure_eq_ok {bytes payload : Bytes} :
    (pure bytes : Result Bytes) = .ok payload ↔ payload = bytes :=
  ⟨fun h => (Except.ok.inj h).symm, fun h => congrArg Except.ok h.symm⟩

theorem decode_read {payload : Bytes} {a : α} (h : ByteReader.decode reader payload = .ok a) :
    ∃ rest, reader payload = .ok (a, rest) := by
  unfold ByteReader.decode at h
  cases hread : reader payload with
  | error status =>
    rw [hread] at h
    cases h
  | ok p =>
    obtain ⟨found, rest⟩ := p
    rw [hread] at h
    obtain rfl : found = a := Except.ok.inj h
    exact ⟨rest, rfl⟩

/-- What has been decoded from a payload is good and has the payload for its encoding exactly when
the payload is of the layout from its first byte to its last. -/
theorem strict {payload : Bytes} {a : α} {encoded : α → Prop}
    (hread : ByteReader.decode reader payload = .ok a)
    (h : Takes reader layout (fun _ => True) good put)
    (hencode : ∀ a, encoded a ↔ good a ∧ payload = put a) :
    encoded a ↔ layout payload = some [] := by
  obtain ⟨rest, hread⟩ := decode_read hread
  rw [hencode]
  constructor
  · rintro ⟨hgood, rfl⟩
    rw [← List.append_nil (put a)] at hread
    have hsound := h.sound hread hgood
    rw [List.append_nil] at hsound
    exact hsound.1
  · intro hlayout
    obtain ⟨a', hread', hgood, hdata⟩ := h.complete hlayout
    rw [hread'] at hread
    obtain ⟨rfl, _⟩ := Prod.mk.inj (Except.ok.inj hread)
    exact ⟨hgood, by rwa [List.append_nil] at hdata⟩

end Takes

end CongestionFabric
