import CongestionFabric.Lib.SortedMap
import Mathlib.Data.List.Chain
import Mathlib.Data.List.Nodup

/-! Tables addressed by slots that a map hands out to keys, and lists kept sorted. -/

namespace SlotTable

variable {κ α β : Type}

/-! ### Slots -/

section Slots

variable [LinearOrder κ]

/-- A key that has a slot keeps it. -/
def emplace (m : SortedMap κ Nat) (k : κ) (slot : Nat) : SortedMap κ Nat :=
  if m.contains k then m else m.insert k slot

/-- Slots for keys in their order, from a first slot on. -/
def slotsFrom (slot : Nat) (m : SortedMap κ Nat) : List κ → SortedMap κ Nat
  | [] => m
  | k :: ks => slotsFrom (slot + 1) (emplace m k slot) ks

theorem find?_emplace (m : SortedMap κ Nat) (k k' : κ) (slot : Nat) :
    (emplace m k slot).find? k' = (m.find? k').or (if k' = k then some slot else none) := by
  unfold emplace SortedMap.contains
  by_cases hk : k' = k
  · rw [hk, if_pos rfl]
    cases hm : m.find? k with
    | none => simp
    | some s => simpa using hm
  · rw [if_neg hk, Option.or_none]
    split
    · rfl
    · exact SortedMap.find?_insert_ne m slot hk

theorem find?_slotsFrom (keys : List κ) (slot : Nat) (m : SortedMap κ Nat) {k : κ} {i : Nat}
    (hkeys : keys.Nodup) (hnew : ∀ k ∈ keys, m.find? k = none) :
    (slotsFrom slot m keys).find? k = some i ↔
      m.find? k = some i ∨ ∃ j, i = slot + j ∧ keys[j]? = some k := by
  induction keys generalizing slot m with
  | nil => simp [slotsFrom]
  | cons first rest ih =>
    obtain ⟨hfirst, hrest⟩ := List.nodup_cons.mp hkeys
    have hnone : m.find? first = none := hnew first List.mem_cons_self
    have hnew' : ∀ k ∈ rest, (emplace m first slot).find? k = none := by
      intro k hk
      have hne : k ≠ first := fun heq => hfirst (heq ▸ hk)
      rw [find?_emplace, hnew k (List.mem_cons_of_mem _ hk), if_neg hne]
      rfl
    rw [slotsFrom, ih (slot + 1) _ hrest hnew', find?_emplace]
    by_cases hk : k = first
    · subst hk
      rw [hnone, if_pos rfl]
      constructor
      · rintro (hslot | ⟨j, _, hj⟩)
        · exact .inr ⟨0, by simpa using hslot.symm, rfl⟩
        · exact absurd (List.mem_of_getElem? hj) hfirst
      · rintro (hm | ⟨j, rfl, hj⟩)
        · cases hm
        · cases j with
          | zero => exact .inl rfl
          | succ j =>
            rw [List.getElem?_cons_succ] at hj
            exact absurd (List.mem_of_getElem? hj) hfirst
    · rw [if_neg hk, Option.or_none]
      refine or_congr_right ?_
      constructor
      · rintro ⟨j, rfl, hj⟩
        exact ⟨j + 1, by omega, hj⟩
      · rintro ⟨j, rfl, hj⟩
        cases j with
        | zero => exact absurd (Option.some.inj hj).symm hk
        | succ j => exact ⟨j, by omega, hj⟩

/-- Keys without repetition have their positions as slots. -/
theorem find?_slots {keys : List κ} (hkeys : keys.Nodup) {k : κ} {i : Nat} :
    (slotsFrom 0 ∅ keys).find? k = some i ↔ keys[i]? = some k := by
  rw [find?_slotsFrom keys 0 ∅ hkeys (fun k _ => SortedMap.find?_empty k), SortedMap.find?_empty]
  simp

/-- The record of a key in the table that its slot points into. -/
def recordAt (slots : SortedMap κ Nat) (records : List α) (k : κ) : Option α :=
  match slots.find? k with
  | some slot => records[slot]?
  | none => none

/-- Records at the slots of their keys are found exactly under these. -/
theorem recordAt_slots {records : List α} (key : α → κ) (hkeys : (records.map key).Nodup) {k : κ}
    {record : α} :
    recordAt (slotsFrom 0 ∅ (records.map key)) records k = some record ↔
      record ∈ records ∧ key record = k := by
  unfold recordAt
  constructor
  · intro h
    cases hslot : (slotsFrom 0 ∅ (records.map key)).find? k with
    | none =>
      rw [hslot] at h
      cases h
    | some slot =>
      rw [hslot] at h
      dsimp only at h
      have hkey := (find?_slots hkeys).mp hslot
      rw [List.getElem?_map, h] at hkey
      exact ⟨List.mem_of_getElem? h, Option.some.inj hkey⟩
  · rintro ⟨hrecord, rfl⟩
    obtain ⟨slot, hslot⟩ := List.mem_iff_getElem?.mp hrecord
    have hkey : (records.map key)[slot]? = some (key record) := by
      rw [List.getElem?_map, hslot]
      rfl
    rw [(find?_slots hkeys).mpr hkey]
    exact hslot

end Slots

/-! ### Lists at slots -/

/-- One more element in the list at a slot. -/
def pushAt (table : List (List α)) (slot : Nat) (a : α) : List (List α) :=
  table.modify slot (· ++ [a])

theorem length_pushAt (table : List (List α)) (slot : Nat) (a : α) :
    (pushAt table slot a).length = table.length := List.length_modify ..

/-- A list with one more at its end. -/
theorem getElem?_concat_iff {l : List α} {x y : α} {i : Nat} :
    (l ++ [x])[i]? = some y ↔ l[i]? = some y ∨ i = l.length ∧ y = x := by
  rcases Nat.lt_trichotomy i l.length with hlt | rfl | hgt
  · rw [List.getElem?_append_left hlt]
    exact (or_iff_left fun hlast => absurd hlast.1 hlt.ne).symm
  · rw [List.getElem?_concat_length, List.getElem?_eq_none (le_refl _)]
    simp [eq_comm]
  · have hlong : (l ++ [x]).length ≤ i := by
      rw [List.length_append, List.length_singleton]
      exact hgt
    rw [List.getElem?_eq_none hlong, List.getElem?_eq_none hgt.le]
    simp [hgt.ne']

theorem getElem?_pushAt (table : List (List α)) (slot i : Nat) (a : α) :
    (pushAt table slot a)[i]? =
      table[i]?.map fun l => if slot = i then l ++ [a] else l := by
  unfold pushAt
  rw [List.getElem?_modify]
  by_cases hi : slot = i
  · simp only [if_pos hi]
    rfl
  · simp only [if_neg hi]
    rfl

section Known

variable [LinearOrder κ]

/-- One more element in the list of a key, where the key has a slot. -/
def pushKnown (slots : SortedMap κ Nat) (table : List (List α)) (k : κ) (a : α) : List (List α) :=
  match slots.find? k with
  | some slot => pushAt table slot a
  | none => table

/-- The list of a key, empty where it has no slot. -/
def listAt (slots : SortedMap κ Nat) (table : List (List α)) (k : κ) : List α :=
  match slots.find? k with
  | some slot => table[slot]?.getD []
  | none => []

theorem getElem?_pushKnown (slots : SortedMap κ Nat) (table : List (List α)) (k : κ) (a : α)
    (i : Nat) : (pushKnown slots table k a)[i]? =
      table[i]?.map fun l => if slots.find? k = some i then l ++ [a] else l := by
  unfold pushKnown
  cases slots.find? k with
  | some slot => simp only [getElem?_pushAt, Option.some.injEq]
  | none => simp

/-- What many pushes leave in the list at a slot. -/
theorem getElem?_foldl_pushKnown (slots : SortedMap κ Nat) (key : β → κ) (value : β → α)
    (l : List β) (table : List (List α)) (i : Nat) :
    (l.foldl (fun t b => pushKnown slots t (key b) (value b)) table)[i]? =
      table[i]?.map (· ++ (l.filter fun b => slots.find? (key b) = some i).map value) := by
  induction l generalizing table with
  | nil => simp
  | cons b rest ih =>
    rw [List.foldl_cons, ih, getElem?_pushKnown, Option.map_map]
    congr 1
    funext held
    by_cases hi : slots.find? (key b) = some i
    · simp [hi]
    · simp [hi]

/-- The list of a key holds what was pushed under it, once every list has been finished. -/
theorem listAt_pushed {slots : SortedMap κ Nat} {keys : List κ}
    (hslots : ∀ (k : κ) (i : Nat), slots.find? k = some i ↔ keys[i]? = some k) (key : β → κ)
    (value : β → α) {l : List β} (hknown : ∀ b ∈ l, key b ∈ keys) {finish : List α → List α}
    (hfinish : finish [] = []) (k : κ) :
    listAt slots ((l.foldl (fun t b => pushKnown slots t (key b) (value b))
      (List.replicate keys.length [])).map finish) k =
      finish ((l.filter fun b => key b = k).map value) := by
  unfold listAt
  cases hk : slots.find? k with
  | some i =>
    have hi := (hslots k i).mp hk
    obtain ⟨hlt, _⟩ := List.getElem?_eq_some_iff.mp hi
    have hsame : (fun b => decide (slots.find? (key b) = some i)) =
        fun b => decide (key b = k) := by
      funext b
      refine decide_eq_decide.mpr ?_
      rw [hslots, hi, Option.some.injEq]
      exact eq_comm
    dsimp only
    rw [List.getElem?_map, getElem?_foldl_pushKnown, hsame, List.getElem?_replicate, if_pos hlt]
    rfl
  | none =>
    have hnone : l.filter (fun b => key b = k) = [] := by
      rw [List.filter_eq_nil_iff]
      intro b hb heq
      obtain ⟨i, hi⟩ := List.mem_iff_getElem?.mp (hknown b hb)
      rw [of_decide_eq_true heq, ← hslots, hk] at hi
      cases hi
    rw [hnone]
    exact hfinish.symm

end Known

/-! ### Sorting -/

section Sorting

variable [LinearOrder α]

def sort (l : List α) : List α := l.mergeSort fun a b => decide (a ≤ b)

/-- Of each run of equal neighbours, one. -/
def unique : List α → List α
  | [] => []
  | [a] => [a]
  | a :: b :: rest => if a = b then unique (b :: rest) else a :: unique (b :: rest)

theorem sort_nil : sort ([] : List α) = [] := List.mergeSort_nil

theorem unique_sort_nil : unique (sort ([] : List α)) = [] := by
  rw [sort_nil]
  rfl

theorem mem_sort {l : List α} {a : α} : a ∈ sort l ↔ a ∈ l := List.mem_mergeSort

theorem sort_sorted (l : List α) : (sort l).Pairwise (· ≤ ·) := by
  have hsorted := @List.pairwise_mergeSort α (fun a b => decide (a ≤ b))
    (fun a b c hab hbc => by simpa using le_trans (by simpa using hab) (by simpa using hbc))
    (fun a b => by simpa using le_total a b) l
  simpa only [sort, decide_eq_true_eq] using hsorted

/-- Sorting elements without repetition orders them strictly. -/
theorem sort_strict {l : List α} (h : l.Nodup) : (sort l).Pairwise (· < ·) := by
  have hnodup : (sort l).Nodup := (List.mergeSort_perm l _).nodup_iff.mpr h
  exact (List.pairwise_and_iff.mpr ⟨sort_sorted l, hnodup⟩).imp fun h => lt_of_le_of_ne h.1 h.2

theorem mem_unique {l : List α} {a : α} : a ∈ unique l ↔ a ∈ l := by
  induction l using unique.induct with
  | case1 => rfl
  | case2 b => rfl
  | case3 b rest ih =>
    rw [unique, if_pos rfl, ih]
    simp
  | case4 b c rest hne ih =>
    rw [unique, if_neg hne, List.mem_cons, ih, ← List.mem_cons]

theorem unique_strict {l : List α} (h : l.Pairwise (· ≤ ·)) : (unique l).Pairwise (· < ·) := by
  induction l using unique.induct with
  | case1 => exact .nil
  | case2 b => exact List.pairwise_singleton _ _
  | case3 b rest ih =>
    rw [unique, if_pos rfl]
    exact ih (List.pairwise_cons.mp h).2
  | case4 b c rest hne ih =>
    obtain ⟨hfirst, hrest⟩ := List.pairwise_cons.mp h
    rw [unique, if_neg hne, List.pairwise_cons]
    refine ⟨?_, ih hrest⟩
    intro d hd
    have hbc : b < c := lt_of_le_of_ne (hfirst c List.mem_cons_self) hne
    rcases List.mem_cons.mp (mem_unique.mp hd) with rfl | hd
    · exact hbc
    · exact lt_of_lt_of_le hbc ((List.pairwise_cons.mp hrest).1 d hd)

/-- A sorted list is its elements. -/
theorem strict_ext {l l' : List α} (h : l.Pairwise (· < ·)) (h' : l'.Pairwise (· < ·))
    (hmem : ∀ a, a ∈ l ↔ a ∈ l') : l = l' := by
  have hperm : l.Perm l' :=
    (List.perm_ext_iff_of_nodup (h.imp ne_of_lt) (h'.imp ne_of_lt)).mpr hmem
  exact hperm.eq_of_pairwise (fun a b _ _ hab hba => absurd (hab.trans hba) (lt_irrefl a)) h h'

theorem unique_sort_strict (l : List α) : (unique (sort l)).Pairwise (· < ·) :=
  unique_strict (sort_sorted l)

theorem mem_unique_sort {l : List α} {a : α} : a ∈ unique (sort l) ↔ a ∈ l :=
  mem_unique.trans mem_sort

theorem sortedSet_eq (l : List α) : SortedMap.sortedSet l = unique (sort l) := by
  apply strict_ext
  · exact (l.foldl (fun (m : SortedMap α Unit) a => m.insert a ()) ∅).sorted
  · exact unique_sort_strict l
  · intro a
    rw [SortedMap.mem_sortedSet, mem_unique_sort]

end Sorting

/-! ### Groups -/

section Groups

variable [LinearOrder κ]

/-- Keys with a slot each, in the order they came, and the elements of each. -/
structure Groups (κ α : Type) [LinearOrder κ] where
  slots : SortedMap κ Nat := ∅
  keys : List κ := []
  members : List (List α) := []

/-- A key that is new gets the next slot and an empty list before its element is added. -/
def Groups.add (g : Groups κ α) (k : κ) (a : α) : Groups κ α :=
  match g.slots.find? k with
  | some slot => { g with members := pushAt g.members slot a }
  | none =>
    { slots := g.slots.insert k g.keys.length
      keys := g.keys ++ [k]
      members := pushAt (g.members ++ [[]]) g.keys.length a }

/-- The groups of these elements. -/
structure Groups.Of (g : Groups κ α) (l : List (κ × α)) : Prop where
  distinct : g.keys.Nodup
  length : g.members.length = g.keys.length
  slots : ∀ (k : κ) (i : Nat), g.slots.find? k = some i ↔ g.keys[i]? = some k
  keys : ∀ k : κ, k ∈ g.keys ↔ ∃ a, (k, a) ∈ l
  members : ∀ (i : Nat) (k : κ), g.keys[i]? = some k →
    g.members[i]? = some ((l.filter fun e => e.1 = k).map Prod.snd)

theorem Groups.of_empty : Groups.Of ({} : Groups κ α) [] :=
  ⟨.nil, rfl, fun k i => by simp, by simp, fun i k => by simp⟩

variable {g : Groups κ α} {l : List (κ × α)}

theorem Groups.Of.unslotted (h : g.Of l) {k : κ} (hslot : g.slots.find? k = none) : k ∉ g.keys := by
  intro hmem
  obtain ⟨i, hi⟩ := List.mem_iff_getElem?.mp hmem
  rw [(h.slots k i).mpr hi] at hslot
  cases hslot

/-- A key without a slot has no elements. -/
theorem Groups.Of.filter_unslotted (h : g.Of l) {k : κ} (hslot : g.slots.find? k = none) :
    l.filter (fun e => e.1 = k) = [] := by
  rw [List.filter_eq_nil_iff]
  intro e he hkey
  exact h.unslotted hslot ((h.keys k).mpr ⟨e.2, (of_decide_eq_true hkey) ▸ he⟩)

theorem Groups.Of.keys_concat (h : g.Of l) (k : κ) (a : α) (k' : κ) :
    (∃ b, (k', b) ∈ l ++ [(k, a)]) ↔ k' ∈ g.keys ∨ k' = k := by
  rw [h.keys]
  constructor
  · rintro ⟨b, hb⟩
    rcases List.mem_append.mp hb with hb | hb
    · exact .inl ⟨b, hb⟩
    · exact .inr (congrArg Prod.fst (List.mem_singleton.mp hb))
  · rintro (⟨b, hb⟩ | rfl)
    · exact ⟨b, List.mem_append_left _ hb⟩
    · exact ⟨a, List.mem_append_right _ List.mem_cons_self⟩

theorem values_concat_self (l : List (κ × α)) (k : κ) (a : α) :
    ((l ++ [(k, a)]).filter fun e => e.1 = k).map Prod.snd =
      (l.filter fun e => e.1 = k).map Prod.snd ++ [a] := by simp

theorem values_concat_of_ne (l : List (κ × α)) {k k' : κ} (hne : k' ≠ k) (a : α) :
    ((l ++ [(k, a)]).filter fun e => e.1 = k').map Prod.snd =
      (l.filter fun e => e.1 = k').map Prod.snd := by
  simp [Ne.symm hne]

/-- An element of a key that has a slot goes to the list there. -/
theorem Groups.Of.add_known (h : g.Of l) {k : κ} {slot : Nat} (hslot : g.slots.find? k = some slot)
    (a : α) :
    ({ g with members := pushAt g.members slot a } : Groups κ α).Of (l ++ [(k, a)]) := by
  have hat := (h.slots k slot).mp hslot
  refine ⟨h.distinct, ?_, h.slots, ?_, ?_⟩
  · rw [length_pushAt, h.length]
  · intro k'
    rw [h.keys_concat]
    refine (or_iff_left_of_imp ?_).symm
    rintro rfl
    exact List.mem_of_getElem? hat
  · intro i k' hi
    rw [getElem?_pushAt, h.members i k' hi]
    by_cases hsame : slot = i
    · obtain rfl : k = k' := Option.some.inj (hat.symm.trans (hsame ▸ hi))
      rw [values_concat_self, Option.map_some, if_pos hsame]
    · have hne : k' ≠ k := by
        rintro rfl
        have hi' := (h.slots k' i).mpr hi
        exact hsame (Option.some.inj (hslot.symm.trans hi'))
      rw [values_concat_of_ne l hne, Option.map_some, if_neg hsame]

/-- The slots with one for the new key. -/
theorem Groups.Of.slots_new (h : g.Of l) {k : κ} (hslot : g.slots.find? k = none) (k' : κ) (i : Nat) :
    (g.slots.insert k g.keys.length).find? k' = some i ↔ (g.keys ++ [k])[i]? = some k' := by
  rw [SortedMap.find?_insert, getElem?_concat_iff]
  split_ifs with hk
  · subst hk
    rw [or_iff_right fun hi => h.unslotted hslot (List.mem_of_getElem? hi), and_iff_left rfl,
      Option.some_inj, eq_comm]
  · rw [h.slots, or_iff_left fun hlast => hk hlast.2]

/-- The lists with one for the new key. -/
theorem Groups.Of.members_new (h : g.Of l) {k : κ} (hslot : g.slots.find? k = none) (a : α) {i : Nat}
    {k' : κ} (hi : (g.keys ++ [k])[i]? = some k') :
    (pushAt (g.members ++ [[]]) g.keys.length a)[i]? =
      some (((l ++ [(k, a)]).filter fun e => e.1 = k').map Prod.snd) := by
  rw [getElem?_pushAt]
  rcases getElem?_concat_iff.mp hi with hold | ⟨rfl, rfl⟩
  · obtain ⟨hlt, _⟩ := List.getElem?_eq_some_iff.mp hold
    have hne : k' ≠ k := by
      rintro rfl
      exact h.unslotted hslot (List.mem_of_getElem? hold)
    rw [List.getElem?_append_left (h.length ▸ hlt), h.members i k' hold, values_concat_of_ne l hne,
      Option.map_some, if_neg hlt.ne']
  · rw [← h.length, List.getElem?_concat_length, values_concat_self, h.filter_unslotted hslot]
    simp

theorem Groups.Of.add_new (h : g.Of l) {k : κ} (hslot : g.slots.find? k = none) (a : α) :
    ({ slots := g.slots.insert k g.keys.length, keys := g.keys ++ [k]
       members := pushAt (g.members ++ [[]]) g.keys.length a } : Groups κ α).Of
        (l ++ [(k, a)]) := by
  refine ⟨?_, ?_, h.slots_new hslot, ?_, fun _ _ => h.members_new hslot a⟩
  · rw [List.nodup_append]
    refine ⟨h.distinct, List.nodup_singleton k, ?_⟩
    rintro k' hk' _ hlast rfl
    exact h.unslotted hslot (List.mem_singleton.mp hlast ▸ hk')
  · simp [length_pushAt, h.length]
  · intro k'
    rw [h.keys_concat, List.mem_append, List.mem_singleton]

theorem Groups.Of.add (h : g.Of l) (k : κ) (a : α) : (g.add k a).Of (l ++ [(k, a)]) := by
  unfold Groups.add
  cases hslot : g.slots.find? k with
  | some slot => exact h.add_known hslot a
  | none => exact h.add_new hslot a

/-- The list of any key holds its elements, once every list has been finished. -/
theorem Groups.Of.listAt_finished (h : g.Of l) {finish : List α → List α}
    (hfinish : finish [] = []) (k : κ) :
    listAt g.slots (g.members.map finish) k =
      finish ((l.filter fun e => e.1 = k).map Prod.snd) := by
  unfold listAt
  cases hk : g.slots.find? k with
  | some i =>
    dsimp only
    rw [List.getElem?_map, h.members i k ((h.slots k i).mp hk)]
    rfl
  | none =>
    rw [h.filter_unslotted hk]
    exact hfinish.symm

theorem Groups.of_foldl (key : β → κ) (value : β → α) (l : List β) :
    Groups.Of (l.foldl (fun g b => g.add (key b) (value b)) ({} : Groups κ α))
      (l.map fun b => (key b, value b)) := by
  induction l using List.reverseRecOn with
  | nil => exact Groups.of_empty
  | append_singleton rest b ih =>
    rw [List.foldl_append, List.map_append]
    exact ih.add (key b) (value b)

end Groups

end SlotTable
