import Mathlib.Order.Lattice
import Mathlib.Data.List.Basic
import Mathlib.Data.List.Forall2
import Mathlib.Data.List.Pairwise

/-- A finite map, kept as its entries in strictly increasing key order. -/
structure SortedMap (κ : Type) (α : Type) [LinearOrder κ] where
  entries : List (κ × α)
  sorted : (entries.map Prod.fst).Pairwise (· < ·)

namespace SortedMap

variable {κ α β : Type} [LinearOrder κ]

def lookup (k : κ) : List (κ × α) → Option α
  | [] => none
  | (k', a) :: rest => if k = k' then some a else lookup k rest

def insertEntry (k : κ) (a : α) : List (κ × α) → List (κ × α)
  | [] => [(k, a)]
  | (k', b) :: rest =>
    if k < k' then (k, a) :: (k', b) :: rest
    else if k = k' then (k, a) :: rest
    else (k', b) :: insertEntry k a rest

theorem mem_insertEntry {k : κ} {a : α} {e : κ × α} {l : List (κ × α)}
    (h : e ∈ insertEntry k a l) : e = (k, a) ∨ e ∈ l := by
  induction l with
  | nil => simpa [insertEntry] using h
  | cons head rest ih =>
    obtain ⟨k', b⟩ := head
    unfold insertEntry at h
    split_ifs at h with hlt heq
    · simpa using h
    · rcases List.mem_cons.mp h with h | h
      · exact .inl h
      · exact .inr (List.mem_cons_of_mem _ h)
    · rcases List.mem_cons.mp h with h | h
      · exact .inr (h ▸ List.mem_cons_self)
      · exact (ih h).imp_right (List.mem_cons_of_mem _)

/-- A key beyond all others goes to the end. -/
theorem insertEntry_last {e : κ × α} {l : List (κ × α)} (h : ∀ found ∈ l, found.1 < e.1) :
    insertEntry e.1 e.2 l = l ++ [e] := by
  induction l with
  | nil => rfl
  | cons head rest ih =>
    have hhead := h head List.mem_cons_self
    unfold insertEntry
    rw [if_neg hhead.not_gt, if_neg hhead.ne', ih fun found hfound =>
      h found (List.mem_cons_of_mem _ hfound)]
    rfl

theorem insertEntry_sorted (k : κ) (a : α) {l : List (κ × α)}
    (hs : (l.map Prod.fst).Pairwise (· < ·)) :
    ((insertEntry k a l).map Prod.fst).Pairwise (· < ·) := by
  induction l with
  | nil => simp [insertEntry]
  | cons head rest ih =>
    obtain ⟨k', b⟩ := head
    simp only [List.map_cons, List.pairwise_cons] at hs
    unfold insertEntry
    split_ifs with hlt heq
    · simp only [List.map_cons, List.pairwise_cons, List.mem_cons, forall_eq_or_imp]
      exact ⟨⟨hlt, fun c hc => hlt.trans (hs.1 c hc)⟩, hs⟩
    · subst heq
      simpa using hs
    · simp only [List.map_cons, List.pairwise_cons]
      refine ⟨?_, ih hs.2⟩
      intro c hc
      obtain ⟨e, he, rfl⟩ := List.mem_map.mp hc
      rcases mem_insertEntry he with rfl | he
      · exact lt_of_le_of_ne (not_lt.mp hlt) (Ne.symm heq)
      · exact hs.1 _ (List.mem_map_of_mem he)

def empty : SortedMap κ α := ⟨[], by simp⟩

instance : EmptyCollection (SortedMap κ α) := ⟨empty⟩
instance : Inhabited (SortedMap κ α) := ⟨empty⟩

instance [DecidableEq α] : DecidableEq (SortedMap κ α) := fun m m' =>
  decidable_of_iff (m.entries = m'.entries)
    ⟨fun h => by cases m; cases m'; simpa using h, fun h => by rw [h]⟩

def find? (m : SortedMap κ α) (k : κ) : Option α := lookup k m.entries
def contains (m : SortedMap κ α) (k : κ) : Bool := (m.find? k).isSome
def size (m : SortedMap κ α) : Nat := m.entries.length
def keys (m : SortedMap κ α) : List κ := m.entries.map Prod.fst
def values (m : SortedMap κ α) : List α := m.entries.map Prod.snd

def insert (m : SortedMap κ α) (k : κ) (a : α) : SortedMap κ α :=
  ⟨insertEntry k a m.entries, insertEntry_sorted k a m.sorted⟩

def filter (p : κ → α → Bool) (m : SortedMap κ α) : SortedMap κ α :=
  ⟨m.entries.filter fun e => p e.1 e.2, m.sorted.sublist (List.filter_sublist.map _)⟩

def erase (m : SortedMap κ α) (k : κ) : SortedMap κ α := m.filter fun k' _ => k' ≠ k

/-- Drop the entry of the smallest key. -/
def eraseFirst (m : SortedMap κ α) : SortedMap κ α :=
  ⟨m.entries.tail, m.sorted.sublist ((List.tail_sublist _).map _)⟩

def mapVal (f : κ → α → β) (m : SortedMap κ α) : SortedMap κ β :=
  ⟨m.entries.map fun e => (e.1, f e.1 e.2), by simpa [Function.comp_def] using m.sorted⟩

/-- Read the entry of `k`, or the default a first access would create. -/
def findD (m : SortedMap κ α) (k : κ) (default : α) : α := (m.find? k).getD default

/-- Append to the list kept under a key. -/
def push (m : SortedMap κ (List α)) (k : κ) (a : α) : SortedMap κ (List α) :=
  m.insert k (m.findD k [] ++ [a])

/-- The distinct elements of a list in increasing order. -/
def sortedSet (xs : List κ) : List κ :=
  (xs.foldl (fun (m : SortedMap κ Unit) x => m.insert x ()) ∅).keys

theorem lookup_eq_none {k : κ} {l : List (κ × α)} (h : ∀ e ∈ l, e.1 ≠ k) :
    lookup k l = none := by
  induction l with
  | nil => rfl
  | cons head rest ih =>
    have hk : k ≠ head.1 := fun hk => h head List.mem_cons_self hk.symm
    simp [lookup, hk, ih fun e he => h e (List.mem_cons_of_mem _ he)]

theorem mem_of_lookup {k : κ} {a : α} {l : List (κ × α)} (h : lookup k l = some a) :
    (k, a) ∈ l := by
  induction l with
  | nil => simp [lookup] at h
  | cons head rest ih =>
    obtain ⟨k', b⟩ := head
    unfold lookup at h
    split_ifs at h with hk
    · cases Option.some.inj h
      subst hk
      exact List.mem_cons_self
    · exact List.mem_cons_of_mem _ (ih h)

/-- The head key of a sorted entry list does not occur again. -/
theorem ne_head_of_sorted {k' : κ} {b : α} {rest : List (κ × α)}
    (hs : (((k', b) :: rest).map Prod.fst).Pairwise (· < ·)) {e : κ × α} (he : e ∈ rest) :
    e.1 ≠ k' :=
  ((List.pairwise_cons.mp hs).1 e.1 (List.mem_map_of_mem he)).ne'

theorem lookup_of_mem {k : κ} {a : α} {l : List (κ × α)}
    (hs : (l.map Prod.fst).Pairwise (· < ·)) (h : (k, a) ∈ l) : lookup k l = some a := by
  induction l with
  | nil => simp at h
  | cons head rest ih =>
    obtain ⟨k', b⟩ := head
    rcases List.mem_cons.mp h with h | h
    · cases h
      simp [lookup]
    · have hne : k ≠ k' := ne_head_of_sorted hs h
      simpa [lookup, hne] using ih (List.pairwise_cons.mp hs).2 h

theorem mem_entries_iff {m : SortedMap κ α} {k : κ} {a : α} :
    (k, a) ∈ m.entries ↔ m.find? k = some a :=
  ⟨lookup_of_mem m.sorted, mem_of_lookup⟩

theorem mem_values_iff {m : SortedMap κ α} {a : α} :
    a ∈ m.values ↔ ∃ k, m.find? k = some a := by
  simp only [values, List.mem_map, Prod.exists, ← mem_entries_iff]
  exact ⟨fun ⟨k, _, h, hb⟩ => ⟨k, hb ▸ h⟩, fun ⟨k, h⟩ => ⟨k, a, h, rfl⟩⟩

@[simp] theorem find?_empty (k : κ) : (∅ : SortedMap κ α).find? k = none := rfl

theorem lookup_insertEntry_self (k : κ) (a : α) (l : List (κ × α)) :
    lookup k (insertEntry k a l) = some a := by
  induction l with
  | nil => simp [insertEntry, lookup]
  | cons head rest ih =>
    obtain ⟨k', b⟩ := head
    unfold insertEntry
    split_ifs with hlt heq
    · simp [lookup]
    · simp [lookup]
    · simpa [lookup, heq] using ih

theorem lookup_insertEntry_ne {k k' : κ} (a : α) (h : k' ≠ k) (l : List (κ × α)) :
    lookup k' (insertEntry k a l) = lookup k' l := by
  induction l with
  | nil => simp [insertEntry, lookup, h]
  | cons head rest ih =>
    obtain ⟨k'', b⟩ := head
    unfold insertEntry
    split_ifs with hlt heq
    · simp [lookup, h]
    · subst heq
      simp [lookup, h]
    · simp [lookup, ih]

@[simp] theorem find?_insert_self (m : SortedMap κ α) (k : κ) (a : α) :
    (m.insert k a).find? k = some a :=
  lookup_insertEntry_self k a m.entries

theorem find?_insert_ne (m : SortedMap κ α) {k k' : κ} (a : α) (h : k' ≠ k) :
    (m.insert k a).find? k' = m.find? k' :=
  lookup_insertEntry_ne a h m.entries

theorem find?_insert (m : SortedMap κ α) (k k' : κ) (a : α) :
    (m.insert k a).find? k' = if k' = k then some a else m.find? k' := by
  split_ifs with h
  · rw [h, find?_insert_self]
  · exact find?_insert_ne m a h

theorem find?_foldl_insert (xs : List κ) (m : SortedMap κ Unit) (k : κ) :
    (xs.foldl (fun (m : SortedMap κ Unit) x => m.insert x ()) m).find? k =
      if k ∈ xs then some () else m.find? k := by
  induction xs generalizing m with
  | nil => simp
  | cons x rest ih =>
    rw [List.foldl_cons, ih, find?_insert]
    by_cases hr : k ∈ rest <;> by_cases hx : k = x <;> simp [hr, hx]

/-- Values inserted under their own keys leave the other keys alone. -/
theorem find?_foldl_insert_ne (key : β → κ) (value : β → α) {l : List β} {m : SortedMap κ α}
    {k : κ} (h : ∀ b ∈ l, key b ≠ k) :
    (l.foldl (fun m b => m.insert (key b) (value b)) m).find? k = m.find? k := by
  induction l generalizing m with
  | nil => rfl
  | cons b rest ih =>
    rw [List.foldl_cons, ih fun b hb => h b (List.mem_cons_of_mem _ hb),
      find?_insert_ne _ _ (h b List.mem_cons_self).symm]

/-- The value inserted under a key that no other value has. -/
theorem find?_foldl_insert_mem (key : β → κ) (value : β → α) {l : List β} {m : SortedMap κ α}
    {b : β} (hb : b ∈ l) (honly : ∀ b' ∈ l, key b' = key b → b' = b) :
    (l.foldl (fun m b => m.insert (key b) (value b)) m).find? (key b) = some (value b) := by
  induction l generalizing m with
  | nil => cases hb
  | cons b' rest ih =>
    rw [List.foldl_cons]
    by_cases hrest : b ∈ rest
    · exact ih hrest fun b' hb' => honly b' (List.mem_cons_of_mem _ hb')
    · obtain rfl : b = b' := (List.mem_cons.mp hb).resolve_right hrest
      rw [find?_foldl_insert_ne key value, find?_insert_self]
      intro b' hb' heq
      exact hrest (honly b' (List.mem_cons_of_mem _ hb') heq ▸ hb')

/-- The values of a map, each of which knows its key, inserted into another map. -/
theorem find?_foldl_values (key : β → κ) (value : β → α) {source : SortedMap κ β}
    (hkey : ∀ k b, source.find? k = some b → key b = k) (m : SortedMap κ α) (k : κ) :
    (source.values.foldl (fun m b => m.insert (key b) (value b)) m).find? k =
      ((source.find? k).map value).or (m.find? k) := by
  cases hf : source.find? k with
  | none =>
    rw [find?_foldl_insert_ne key value]
    · rfl
    · intro b hb heq
      obtain ⟨k', hk'⟩ := mem_values_iff.mp hb
      rw [← heq, hkey k' b hk', hk'] at hf
      cases hf
  | some b =>
    obtain rfl := hkey k b hf
    rw [find?_foldl_insert_mem key value (mem_values_iff.mpr ⟨_, hf⟩)]
    · rfl
    · intro b' hb' heq
      obtain ⟨k', hk'⟩ := mem_values_iff.mp hb'
      rw [← heq, hkey k' b' hk', hk'] at hf
      exact Option.some.inj hf

theorem mem_keys_iff {m : SortedMap κ α} {k : κ} : k ∈ m.keys ↔ ∃ a, m.find? k = some a := by
  simp only [keys, List.mem_map, Prod.exists, ← mem_entries_iff]
  exact ⟨fun ⟨k', a, h, hk⟩ => ⟨a, hk ▸ h⟩, fun ⟨a, h⟩ => ⟨k, a, h, rfl⟩⟩

@[simp] theorem mem_sortedSet {xs : List κ} {k : κ} : k ∈ sortedSet xs ↔ k ∈ xs := by
  rw [sortedSet, mem_keys_iff, find?_foldl_insert]
  by_cases h : k ∈ xs <;> simp [h]

theorem sortedSet_nodup (xs : List κ) : (sortedSet xs).Nodup := by
  have hsorted : (sortedSet xs).Pairwise (· < ·) := SortedMap.sorted _
  exact hsorted.imp fun hlt => hlt.ne

theorem lookup_filter {p : κ → α → Bool} (k : κ) {l : List (κ × α)}
    (hs : (l.map Prod.fst).Pairwise (· < ·)) :
    lookup k (l.filter fun e => p e.1 e.2) = (lookup k l).filter (p k) := by
  induction l with
  | nil => rfl
  | cons head rest ih =>
    obtain ⟨k', b⟩ := head
    have ih' := ih (List.pairwise_cons.mp hs).2
    by_cases hk : k = k'
    · subst hk
      have hrest : lookup k (rest.filter fun e => p e.1 e.2) = none :=
        lookup_eq_none fun e he => ne_head_of_sorted hs (List.mem_of_mem_filter he)
      by_cases hp : p k b = true <;> simp [lookup, hp, hrest, Option.filter_some]
    · by_cases hp : p k' b = true <;> simpa [lookup, hk, hp] using ih'

@[simp] theorem find?_filter (m : SortedMap κ α) (p : κ → α → Bool) (k : κ) :
    (m.filter p).find? k = (m.find? k).filter (p k) :=
  lookup_filter k m.sorted

theorem find?_filter_some {m : SortedMap κ α} {p : κ → α → Bool} {k : κ} {a : α} :
    (m.filter p).find? k = some a ↔ m.find? k = some a ∧ p k a = true := by
  rw [find?_filter, Option.filter_eq_some_iff]

theorem find?_erase (m : SortedMap κ α) (k k' : κ) :
    (m.erase k).find? k' = if k' = k then none else m.find? k' := by
  unfold erase
  rw [find?_filter]
  split_ifs with h
  · cases m.find? k' <;> simp [h]
  · cases m.find? k' <;> simp [h]

@[simp] theorem find?_erase_self (m : SortedMap κ α) (k : κ) : (m.erase k).find? k = none := by
  simp [find?_erase]

theorem find?_erase_ne (m : SortedMap κ α) {k k' : κ} (h : k' ≠ k) :
    (m.erase k).find? k' = m.find? k' := by
  simp [find?_erase, h]

@[simp] theorem find?_mapVal (m : SortedMap κ α) (f : κ → α → β) (k : κ) :
    (m.mapVal f).find? k = (m.find? k).map (f k) := by
  have h : ∀ l : List (κ × α),
      lookup k (l.map fun e => (e.1, f e.1 e.2)) = (lookup k l).map (f k) := by
    intro l
    induction l with
    | nil => rfl
    | cons head rest ih =>
      obtain ⟨k', b⟩ := head
      by_cases hk : k = k'
      · subst hk
        simp [lookup]
      · simpa [lookup, hk] using ih
  exact h m.entries

/-- Two strictly sorted entry lists with the same lookups are the same list. -/
theorem entries_ext {l l' : List (κ × α)} (hs : (l.map Prod.fst).Pairwise (· < ·))
    (hs' : (l'.map Prod.fst).Pairwise (· < ·)) (h : ∀ e, e ∈ l ↔ e ∈ l') : l = l' := by
  have hp : l.Pairwise fun a b => a.1 < b.1 := List.pairwise_map.mp hs
  have hp' : l'.Pairwise fun a b => a.1 < b.1 := List.pairwise_map.mp hs'
  have hn : l.Nodup := hp.imp fun hlt heq => (heq ▸ hlt).false
  have hn' : l'.Nodup := hp'.imp fun hlt heq => (heq ▸ hlt).false
  have hperm : l.Perm l' := (List.perm_ext_iff_of_nodup hn hn').mpr h
  exact hperm.eq_of_pairwise (fun a b _ _ hab hba => absurd (hab.trans hba) (lt_irrefl _)) hp hp'

@[ext] theorem ext {m m' : SortedMap κ α} (h : ∀ k, m.find? k = m'.find? k) : m = m' := by
  have he : m.entries = m'.entries := entries_ext m.sorted m'.sorted fun e => by
    rw [show e = (e.1, e.2) from rfl, mem_entries_iff, mem_entries_iff, h]
  cases m; cases m'; simpa using he

theorem findD_push (m : SortedMap κ (List α)) (k k' : κ) (a : α) :
    (m.push k a).findD k' [] = if k' = k then m.findD k [] ++ [a] else m.findD k' [] := by
  unfold push
  rw [findD, find?_insert]
  split_ifs <;> rfl

theorem length_insertEntry {k : κ} (a : α) {l : List (κ × α)}
    (hs : (l.map Prod.fst).Pairwise (· < ·)) :
    (insertEntry k a l).length = if (lookup k l).isSome then l.length else l.length + 1 := by
  induction l with
  | nil => rfl
  | cons head rest ih =>
    obtain ⟨k', b⟩ := head
    have ih := ih (List.pairwise_cons.mp hs).2
    unfold insertEntry
    by_cases hlt : k < k'
    · have hnone : lookup k ((k', b) :: rest) = none := lookup_eq_none fun e he => by
        rcases List.mem_cons.mp he with rfl | he
        · exact ne_of_gt hlt
        · exact ne_of_gt (hlt.trans ((List.pairwise_cons.mp hs).1 e.1 (List.mem_map_of_mem he)))
      rw [if_pos hlt, hnone]
      rfl
    · by_cases heq : k = k'
      · simp [heq, lookup]
      · rw [if_neg hlt, if_neg heq, List.length_cons, ih, lookup, if_neg heq]
        split <;> rfl

/-- Only a new key makes a map larger. -/
theorem size_insert (m : SortedMap κ α) (k : κ) (a : α) :
    (m.insert k a).size = if m.contains k then m.size else m.size + 1 :=
  length_insertEntry a m.sorted

theorem size_filter_le (m : SortedMap κ α) (p : κ → α → Bool) : (m.filter p).size ≤ m.size :=
  List.length_filter_le _ _

theorem size_erase_le (m : SortedMap κ α) (k : κ) : (m.erase k).size ≤ m.size :=
  m.size_filter_le _

@[simp] theorem size_mapVal (m : SortedMap κ α) (f : κ → α → β) : (m.mapVal f).size = m.size :=
  List.length_map _

/-- Writing back the value an entry already has changes nothing. -/
theorem insert_eq_self {m : SortedMap κ α} {k : κ} {a : α} (h : m.find? k = some a) :
    m.insert k a = m := by
  ext k' : 1
  rw [find?_insert]
  split_ifs with hk
  · rw [hk, h]
  · rfl

theorem insert_eq_self_iff {m : SortedMap κ α} {k : κ} {a : α} :
    m.insert k a = m ↔ m.find? k = some a :=
  ⟨fun h => by rw [← h]; exact find?_insert_self m k a, insert_eq_self⟩

theorem filter_eq_self_iff {m : SortedMap κ α} {p : κ → α → Bool} :
    m.filter p = m ↔ ∀ k a, m.find? k = some a → p k a = true := by
  constructor
  · intro h k a hf
    rw [← h] at hf
    exact (find?_filter_some.mp hf).2
  · intro h
    ext k : 1
    cases hf : m.find? k with
    | none =>
      cases hf' : (m.filter p).find? k with
      | none => rfl
      | some a =>
        rw [(find?_filter_some.mp hf').1] at hf
        cases hf
    | some a => exact find?_filter_some.mpr ⟨hf, h k a hf⟩

/-- The entries of a map that has at most one key. -/
theorem entries_of_single {m : SortedMap κ α} {k : κ} (h : ∀ k' a, m.find? k' = some a → k' = k) :
    m.entries = (m.find? k).toList.map (k, ·) := by
  have hm : m = match m.find? k with
      | none => ∅
      | some a => (∅ : SortedMap κ α).insert k a := by
    ext k' : 1
    cases hk : m.find? k with
    | none =>
      cases hk' : m.find? k' with
      | none => rfl
      | some a =>
        rw [h k' a hk', hk] at hk'
        cases hk'
    | some a =>
      rw [find?_insert]
      split_ifs with he
      · rw [he, hk]
      · cases hk' : m.find? k' with
        | none => rfl
        | some a' => exact absurd (h k' a' hk') he
  cases hk : m.find? k with
  | none =>
    rw [hk] at hm
    rw [hm]
    rfl
  | some a =>
    rw [hk] at hm
    rw [hm]
    rfl

theorem sortedSet_congr {xs ys : List κ} (h : ∀ x, x ∈ xs ↔ x ∈ ys) :
    sortedSet xs = sortedSet ys := by
  have hmap : xs.foldl (fun (m : SortedMap κ Unit) x => m.insert x ()) ∅ =
      ys.foldl (fun (m : SortedMap κ Unit) x => m.insert x ()) ∅ := by
    ext k : 1
    rw [find?_foldl_insert, find?_foldl_insert]
    simp only [h]
  exact congrArg keys hmap

theorem mapVal_insert (m : SortedMap κ α) (f : κ → α → β) (k : κ) (a : α) :
    (m.insert k a).mapVal f = (m.mapVal f).insert k (f k a) := by
  ext k' : 1
  rw [find?_mapVal, find?_insert, find?_insert, find?_mapVal]
  split_ifs with h
  · rw [h, Option.map_some]
  · rfl

theorem lookup_of_lt_head {k : κ} {l : List (κ × α)} (hs : (l.map Prod.fst).Pairwise (· < ·))
    (h : ∀ e ∈ l.head?, k < e.1) : lookup k l = none := by
  cases l with
  | nil => rfl
  | cons head rest =>
    have hlt : k < head.1 := h head rfl
    refine lookup_eq_none fun e he => ?_
    rcases List.mem_cons.mp he with rfl | he
    · exact hlt.ne'
    · exact (hlt.trans ((List.pairwise_cons.mp hs).1 e.1 (List.mem_map_of_mem he))).ne'

/-- Sorted entries whose lookups are related are related one by one. -/
theorem forall₂_of_lookup {R : κ → α → β → Prop} {l : List (κ × α)} {l' : List (κ × β)}
    (hs : (l.map Prod.fst).Pairwise (· < ·)) (hs' : (l'.map Prod.fst).Pairwise (· < ·))
    (h : ∀ k, Option.Rel (R k) (lookup k l) (lookup k l')) :
    List.Forall₂ (fun e e' => e.1 = e'.1 ∧ R e.1 e.2 e'.2) l l' := by
  induction l generalizing l' with
  | nil =>
    cases l' with
    | nil => exact .nil
    | cons head rest =>
      have hk := h head.1
      simp only [lookup, if_pos] at hk
      cases hk
  | cons head rest ih =>
    cases l' with
    | nil =>
      have hk := h head.1
      simp only [lookup, if_pos] at hk
      cases hk
    | cons head' rest' =>
      have hself : lookup head.1 (head :: rest) = some head.2 := if_pos rfl
      have hself' : lookup head'.1 (head' :: rest') = some head'.2 := if_pos rfl
      have hkey : head.1 = head'.1 := by
        rcases lt_trichotomy head.1 head'.1 with hlt | heq | hlt
        · have hk := h head.1
          rw [hself, lookup_of_lt_head hs' (by simpa using hlt)] at hk
          cases hk
        · exact heq
        · have hk := h head'.1
          rw [hself', lookup_of_lt_head hs (by simpa using hlt)] at hk
          cases hk
      have hvalue : R head.1 head.2 head'.2 := by
        have hk := h head.1
        rw [hself, hkey, hself'] at hk
        cases hk with
        | some hr => rw [hkey]; exact hr
      refine .cons ⟨hkey, hvalue⟩ (ih (List.pairwise_cons.mp hs).2 (List.pairwise_cons.mp hs').2 ?_)
      intro k
      by_cases hk : k = head.1
      · have hnone : lookup k rest = none :=
          lookup_eq_none fun e he => hk ▸ ne_head_of_sorted hs he
        have hnone' : lookup k rest' = none :=
          lookup_eq_none fun e he => (hk.trans hkey) ▸ ne_head_of_sorted hs' he
        rw [hnone, hnone']
        exact .none
      · have hrest := h k
        rwa [lookup, if_neg hk, lookup, if_neg (hkey ▸ hk)] at hrest

/-- Maps whose values are related key by key have related entries. -/
theorem forall₂_entries {R : κ → α → β → Prop} {m : SortedMap κ α} {m' : SortedMap κ β}
    (h : ∀ k, Option.Rel (R k) (m.find? k) (m'.find? k)) :
    List.Forall₂ (fun e e' => e.1 = e'.1 ∧ R e.1 e.2 e'.2) m.entries m'.entries :=
  forall₂_of_lookup m.sorted m'.sorted h

end SortedMap
