import CongestionFabric.Lib.SortedMap
import Mathlib.Data.List.Dedup

namespace List.Forall₂

variable {α γ : Type} {R : α → γ → Prop} {l : List α} {l' : List γ}

theorem exists_right (h : List.Forall₂ R l l') {x : α} (hx : x ∈ l) : ∃ y ∈ l', R x y := by
  induction h with
  | nil => cases hx
  | cons hab _ ih =>
    rcases List.mem_cons.mp hx with rfl | hx
    · exact ⟨_, List.mem_cons_self, hab⟩
    · obtain ⟨y, hy, hxy⟩ := ih hx
      exact ⟨y, List.mem_cons_of_mem _ hy, hxy⟩

theorem exists_left (h : List.Forall₂ R l l') {y : γ} (hy : y ∈ l') : ∃ x ∈ l, R x y :=
  h.flip.exists_right hy

theorem append_inv {before rest : List α} (h : List.Forall₂ R (before ++ rest) l') :
    ∃ before' rest', l' = before' ++ rest' ∧ List.Forall₂ R before before' ∧
      List.Forall₂ R rest rest' := by
  induction before generalizing l' with
  | nil => exact ⟨[], l', rfl, .nil, h⟩
  | cons x before ih =>
    obtain ⟨y, tail, hxy, htail, rfl⟩ := List.forall₂_cons_left_iff.mp h
    obtain ⟨before', rest', rfl, hb, hr⟩ := ih htail
    exact ⟨y :: before', rest', rfl, .cons hxy hb, hr⟩

end List.Forall₂

variable {α β κ : Type} [LinearOrder β] {rank : α → β} {l : List α} {r r' x : α}

/-- The earliest among the elements of highest rank. -/
def IsFirstBest (rank : α → β) (l : List α) (r : α) : Prop :=
  ∃ before after, l = before ++ r :: after ∧ (∀ x ∈ before, rank x < rank r) ∧
    ∀ x ∈ after, rank x ≤ rank r

/-- Keep the incumbent unless the candidate outranks it. -/
def better (rank : α → β) (incumbent candidate : α) : α :=
  if rank incumbent < rank candidate then candidate else incumbent

namespace IsFirstBest

theorem single (rank : α → β) (x : α) : IsFirstBest rank [x] x := ⟨[], [], rfl, by simp, by simp⟩

theorem mem (h : IsFirstBest rank l r) : r ∈ l := by
  obtain ⟨before, after, rfl, _⟩ := h
  exact List.mem_append_right _ List.mem_cons_self

theorem le (h : IsFirstBest rank l r) (hx : x ∈ l) : rank x ≤ rank r := by
  obtain ⟨before, after, rfl, hbefore, hafter⟩ := h
  rcases List.mem_append.mp hx with hx | hx
  · exact (hbefore x hx).le
  · rcases List.mem_cons.mp hx with rfl | hx
    · exact le_refl _
    · exact hafter x hx

theorem snoc (h : IsFirstBest rank l r) (x : α) :
    IsFirstBest rank (l ++ [x]) (better rank r x) := by
  unfold better
  split
  next hlt => exact ⟨l, [], rfl, fun y hy => (h.le hy).trans_lt hlt, by simp⟩
  next hnot =>
    obtain ⟨before, after, rfl, hbefore, hafter⟩ := h
    refine ⟨before, after ++ [x], by simp, hbefore, fun y hy => ?_⟩
    rcases List.mem_append.mp hy with hy | hy
    · exact hafter y hy
    · rw [List.mem_singleton.mp hy]
      exact not_lt.mp hnot

theorem foldl (h : IsFirstBest rank l r) (xs : List α) :
    IsFirstBest rank (l ++ xs) (xs.foldl (better rank) r) := by
  induction xs generalizing l r with
  | nil => simpa using h
  | cons x rest ih =>
    have hrest := ih (h.snoc x)
    rwa [List.append_assoc, List.singleton_append] at hrest

/-- Of two elements of highest rank at most one is first. -/
theorem unique (h : IsFirstBest rank l r) (h' : IsFirstBest rank l r') : r = r' := by
  obtain ⟨before, after, rfl, hbefore, hafter⟩ := h
  obtain ⟨before', after', heq, hbefore', hafter'⟩ := h'
  rcases List.append_eq_append_iff.mp heq with ⟨mid, hmid, hrest⟩ | ⟨mid, hmid, hrest⟩
  · cases mid with
    | nil => exact (List.cons.inj hrest).1
    | cons y mid =>
      obtain ⟨rfl, hafter_eq⟩ := List.cons.inj hrest
      have hlt : rank r < rank r' := hbefore' r (by simp [hmid])
      have hle : rank r' ≤ rank r := hafter r' (by simp [hafter_eq])
      exact absurd hlt (not_lt.mpr hle)
  · cases mid with
    | nil => exact (List.cons.inj hrest).1.symm
    | cons y mid =>
      obtain ⟨rfl, hafter_eq⟩ := List.cons.inj hrest
      have hlt : rank r' < rank r := hbefore r' (by simp [hmid])
      have hle : rank r ≤ rank r' := hafter' r (by simp [hafter_eq])
      exact absurd hlt (not_lt.mpr hle)

/-- The first best of two orders of the same elements have the same rank. -/
theorem rank_eq {l' : List α} (hperm : l.Perm l') (h : IsFirstBest rank l r)
    (h' : IsFirstBest rank l' r') : rank r = rank r' :=
  le_antisymm (h'.le (hperm.subset h.mem)) (h.le (hperm.symm.subset h'.mem))

/-- Lists related element by element, rank for rank, have related first bests. -/
theorem rel {γ : Type} {R : α → γ → Prop} {rank' : γ → β} {l' : List γ}
    (hrank : ∀ x y, R x y → rank' y = rank x) (hl : List.Forall₂ R l l')
    (h : IsFirstBest rank l r) : ∃ r', IsFirstBest rank' l' r' ∧ R r r' := by
  obtain ⟨before, after, rfl, hbefore, hafter⟩ := h
  obtain ⟨before', tail, rfl, hb, htail⟩ := hl.append_inv
  obtain ⟨r', after', hr, ha, rfl⟩ := List.forall₂_cons_left_iff.mp htail
  refine ⟨r', ⟨before', after', rfl, fun y hy => ?_, fun y hy => ?_⟩, hr⟩
  · obtain ⟨x, hx, hxy⟩ := hb.exists_left hy
    rw [hrank x y hxy, hrank r r' hr]
    exact hbefore x hx
  · obtain ⟨x, hx, hxy⟩ := ha.exists_left hy
    rw [hrank x y hxy, hrank r r' hr]
    exact hafter x hx

end IsFirstBest

namespace SortedMap

variable [LinearOrder κ]

/-- The first best element of each key. -/
def keepBest (key : α → κ) (rank : α → β) (m : SortedMap κ α) (x : α) : SortedMap κ α :=
  match m.find? (key x) with
  | some found => if rank found < rank x then m.insert (key x) x else m
  | none => m.insert (key x) x

def bestByKey (key : α → κ) (rank : α → β) (l : List α) : SortedMap κ α :=
  l.foldl (keepBest key rank) ∅

/-- What the map holds of a key is the first best of the elements with it. -/
def HoldsBest (key : α → κ) (rank : α → β) (l : List α) (m : SortedMap κ α) : Prop :=
  ∀ k, match m.find? k with
    | some r => IsFirstBest rank (l.filter fun x => key x = k) r
    | none => l.filter (fun x => key x = k) = []

variable {key : α → κ}

theorem HoldsBest.snoc {m : SortedMap κ α} (h : HoldsBest key rank l m) (x : α) :
    HoldsBest key rank (l ++ [x]) (keepBest key rank m x) := by
  intro k
  have hk := h k
  rw [List.filter_append]
  by_cases hkey : key x = k
  · subst hkey
    have hself : [x].filter (fun y => key y = key x) = [x] := by simp
    rw [hself]
    unfold keepBest
    cases hf : m.find? (key x) with
    | none =>
      rw [hf] at hk
      simp only [find?_insert_self]
      rw [hk]
      exact .single rank x
    | some found =>
      rw [hf] at hk
      have hsnoc := IsFirstBest.snoc hk x
      unfold better at hsnoc
      by_cases hlt : rank found < rank x
      · simpa only [if_pos hlt, find?_insert_self] using hsnoc
      · simpa only [if_neg hlt, hf] using hsnoc
  · have hother : [x].filter (fun y => key y = k) = [] := by simp [hkey]
    have hfind : (keepBest key rank m x).find? k = m.find? k := by
      unfold keepBest
      have hinsert : (m.insert (key x) x).find? k = m.find? k := find?_insert_ne m x (Ne.symm hkey)
      cases m.find? (key x) with
      | none => exact hinsert
      | some found =>
        dsimp only
        split
        · exact hinsert
        · rfl
    rw [hother, List.append_nil, hfind]
    exact hk

theorem bestByKey_holds (key : α → κ) (rank : α → β) (l : List α) :
    HoldsBest key rank l (bestByKey key rank l) := by
  have hfold : ∀ (rest before : List α) (m : SortedMap κ α), HoldsBest key rank before m →
      HoldsBest key rank (before ++ rest) (rest.foldl (keepBest key rank) m) := by
    intro rest
    induction rest with
    | nil => exact fun before m h => by simpa using h
    | cons x rest ih =>
      intro before m h
      have hrest := ih (before ++ [x]) _ (h.snoc x)
      rwa [List.append_assoc, List.singleton_append] at hrest
  exact hfold l [] ∅ fun k => rfl

theorem find?_bestByKey {k : κ} : (bestByKey key rank l).find? k = some r ↔
    IsFirstBest rank (l.filter fun x => key x = k) r := by
  have h := bestByKey_holds key rank l k
  cases hf : (bestByKey key rank l).find? k with
  | none =>
    rw [hf] at h
    simp only [reduceCtorEq, false_iff]
    intro hbest
    have hmem := hbest.mem
    rw [h] at hmem
    exact absurd hmem List.not_mem_nil
  | some found =>
    rw [hf] at h
    exact ⟨fun heq => Option.some.inj heq ▸ h, fun hbest => congrArg some (IsFirstBest.unique h hbest)⟩

theorem find?_bestByKey_none {k : κ} :
    (bestByKey key rank l).find? k = none ↔ l.filter (fun x => key x = k) = [] := by
  have h := bestByKey_holds key rank l k
  cases hf : (bestByKey key rank l).find? k with
  | none =>
    rw [hf] at h
    exact iff_of_true rfl h
  | some r =>
    rw [hf] at h
    refine iff_of_false (by simp) fun hnil => ?_
    have hmem := IsFirstBest.mem h
    rw [hnil] at hmem
    exact absurd hmem List.not_mem_nil

/-- The best of each key are as many as the keys. -/
theorem length_bestByKey (key : α → κ) (rank : α → β) (l : List α) :
    (bestByKey key rank l).values.length = (l.map key).dedup.length := by
  have hlength : (bestByKey key rank l).values.length = (bestByKey key rank l).keys.length := by
    simp [values, keys]
  have hnodup : (bestByKey key rank l).keys.Nodup :=
    (bestByKey key rank l).sorted.imp fun hlt heq => (heq ▸ hlt).false
  rw [hlength]
  apply List.Perm.length_eq
  rw [List.perm_ext_iff_of_nodup hnodup (List.nodup_dedup _)]
  intro k
  rw [mem_keys_iff, List.mem_dedup, List.mem_map]
  have h := bestByKey_holds key rank l k
  constructor
  · rintro ⟨r, hr⟩
    rw [hr] at h
    have hmem := List.mem_filter.mp (IsFirstBest.mem h)
    exact ⟨r, hmem.1, by simpa using hmem.2⟩
  · rintro ⟨x, hx, hkey⟩
    cases hf : (bestByKey key rank l).find? k with
    | none =>
      rw [hf] at h
      have hmem : x ∈ l.filter fun y => key y = k := List.mem_filter.mpr ⟨hx, by simpa using hkey⟩
      rw [h] at hmem
      exact absurd hmem List.not_mem_nil
    | some r => exact ⟨r, rfl⟩

end SortedMap
