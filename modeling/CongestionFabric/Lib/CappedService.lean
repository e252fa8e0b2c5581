import Mathlib.Algebra.GroupWithZero.Nat
import Mathlib.Data.List.Basic
import Mathlib.Tactic.Common

variable {ρ γ : Type} {cap : Nat} {grant grant' : ρ → List γ} {rules : List ρ} {acc : List γ}

/-- Claimants are served in order, each in full, until what was given out reaches the cap. -/
def serve (cap : Nat) (grant : ρ → List γ) (rules : List ρ) (acc : List γ) : List γ :=
  rules.foldl (fun acc rule => if acc.length ≥ cap then acc else acc ++ grant rule) acc

/-- What the claimants before this one are granted leaves room for it. -/
def Reached (cap : Nat) (grant : ρ → List γ) (acc : List γ) (before : List ρ) : Prop :=
  acc.length + (before.map fun rule => (grant rule).length).sum < cap

theorem mem_serve_of_mem {c : γ} (h : c ∈ acc) : c ∈ serve cap grant rules acc := by
  induction rules generalizing acc with
  | nil => exact h
  | cons rule rest ih =>
    apply ih
    dsimp only
    split
    · exact h
    · exact List.mem_append_left _ h

theorem mem_serve {c : γ} (h : c ∈ serve cap grant rules acc) :
    c ∈ acc ∨ ∃ rule ∈ rules, c ∈ grant rule := by
  induction rules generalizing acc with
  | nil => exact .inl h
  | cons rule rest ih =>
    rcases ih h with h | ⟨later, hlater, hc⟩
    · dsimp only at h
      split at h
      · exact .inl h
      · rcases List.mem_append.mp h with h | h
        · exact .inl h
        · exact .inr ⟨rule, List.mem_cons_self, h⟩
    · exact .inr ⟨later, List.mem_cons_of_mem _ hlater, hc⟩

/-- Two grants that differ only in items outside a set serve the same items exactly when no claimant
that is reached is granted an item outside it. -/
theorem serve_same_iff {P : γ → Prop} [DecidablePred P] (hacc : ∀ c ∈ acc, P c)
    (hkept : ∀ rule, grant rule = (grant' rule).filter P) :
    (∀ c, c ∈ serve cap grant' rules acc ↔ c ∈ serve cap grant rules acc) ↔
      ∀ before rule after, rules = before ++ rule :: after → Reached cap grant acc before →
        ∀ c ∈ grant' rule, P c := by
  induction rules generalizing acc with
  | nil =>
    refine iff_of_true (fun c => Iff.rfl) ?_
    intro before rule after h
    exact absurd h (by simp)
  | cons rule rest ih =>
    by_cases hfull : acc.length ≥ cap
    · have hserve : ∀ g : ρ → List γ, serve cap g (rule :: rest) acc = serve cap g rest acc := by
        intro g
        unfold serve
        rw [List.foldl_cons, if_pos hfull]
      have hunreached : ∀ before, ¬Reached cap grant acc before := by
        intro before h
        unfold Reached at h
        omega
      rw [hserve, hserve, ih hacc]
      exact iff_of_true (fun before _ _ _ h => absurd h (hunreached before))
        fun before _ _ _ h => absurd h (hunreached before)
    · have hserve : ∀ g : ρ → List γ,
          serve cap g (rule :: rest) acc = serve cap g rest (acc ++ g rule) := by
        intro g
        unfold serve
        rw [List.foldl_cons, if_neg hfull]
      have hfirst : Reached cap grant acc [] := by
        unfold Reached
        simp only [List.map_nil, List.sum_nil]
        omega
      have hgranted : ∀ c ∈ grant rule, P c := by
        intro c hc
        rw [hkept] at hc
        exact of_decide_eq_true (List.mem_filter.mp hc).2
      by_cases hwithin : ∀ c ∈ grant' rule, P c
      · have hequal : grant' rule = grant rule := by
          rw [hkept, List.filter_eq_self.mpr fun c hc => decide_eq_true (hwithin c hc)]
        have hacc' : ∀ c ∈ acc ++ grant rule, P c := by
          intro c hc
          rcases List.mem_append.mp hc with hc | hc
          · exact hacc c hc
          · exact hgranted c hc
        have hreached : ∀ before, Reached cap grant (acc ++ grant rule) before ↔
            Reached cap grant acc (rule :: before) := by
          intro before
          unfold Reached
          rw [List.length_append, List.map_cons, List.sum_cons]
          omega
        rw [hserve, hserve, hequal, ih hacc']
        constructor
        · intro h before later after hsplit hroom
          cases before with
          | nil =>
            obtain ⟨rfl, _⟩ := List.cons.inj hsplit
            exact hwithin
          | cons first before =>
            obtain ⟨rfl, hrest⟩ := List.cons.inj hsplit
            exact h before later after hrest ((hreached before).mpr hroom)
        · intro h before later after hsplit hroom
          exact h (rule :: before) later after (congrArg (rule :: ·) hsplit)
            ((hreached before).mp hroom)
      · refine iff_of_false (fun hsame => hwithin fun c hc => ?_)
          fun h => hwithin (h [] rule rest rfl hfirst)
        have hserved : c ∈ serve cap grant' (rule :: rest) acc := by
          rw [hserve]
          exact mem_serve_of_mem (List.mem_append_right _ hc)
        rcases mem_serve ((hsame c).mp hserved) with hold | ⟨giver, _, hgiven⟩
        · exact hacc c hold
        · rw [hkept] at hgiven
          exact of_decide_eq_true (List.mem_filter.mp hgiven).2

/-- A cap that is reached serves no one. -/
theorem serve_full (h : cap ≤ acc.length) : serve cap grant rules acc = acc := by
  induction rules with
  | nil => rfl
  | cons rule rest ih =>
    unfold serve at ih ⊢
    rw [List.foldl_cons, if_pos h]
    exact ih

/-- What is served stays within the cap exactly when every claimant that is reached is granted no
more than what is left. -/
theorem serve_le_iff (hacc : acc.length ≤ cap) : (serve cap grant rules acc).length ≤ cap ↔
    ∀ before rule after, rules = before ++ rule :: after → Reached cap grant acc before →
      acc.length + (before.map fun rule => (grant rule).length).sum + (grant rule).length ≤ cap := by
  induction rules generalizing acc with
  | nil =>
    refine iff_of_true hacc ?_
    intro before rule after h
    exact absurd h (by simp)
  | cons rule rest ih =>
    by_cases hfull : cap ≤ acc.length
    · rw [serve_full hfull]
      refine iff_of_true hacc ?_
      intro before _ _ _ hreached
      unfold Reached at hreached
      omega
    · have hserve : serve cap grant (rule :: rest) acc = serve cap grant rest (acc ++ grant rule) := by
        unfold serve
        rw [List.foldl_cons, if_neg hfull]
      have hfirst : Reached cap grant acc [] := by
        unfold Reached
        simp only [List.map_nil, List.sum_nil]
        omega
      have hlength : (acc ++ grant rule).length = acc.length + (grant rule).length :=
        List.length_append
      rw [hserve]
      by_cases hroom : acc.length + (grant rule).length ≤ cap
      · rw [ih (by omega)]
        constructor
        · intro h before later after hsplit hreached
          cases before with
          | nil =>
            obtain ⟨rfl, _⟩ := List.cons.inj hsplit
            simp only [List.map_nil, List.sum_nil]
            omega
          | cons first before =>
            obtain ⟨rfl, hrest⟩ := List.cons.inj hsplit
            unfold Reached at h hreached
            rw [List.map_cons, List.sum_cons] at hreached ⊢
            have := h before later after hrest (by omega)
            omega
        · intro h before later after hsplit hreached
          unfold Reached at h hreached
          have := h (rule :: before) later after (congrArg (rule :: ·) hsplit)
            (by rw [List.map_cons, List.sum_cons]; omega)
          rw [List.map_cons, List.sum_cons] at this
          omega
      · rw [serve_full (by omega)]
        refine iff_of_false (by omega) fun h => hroom ?_
        have := h [] rule rest rfl hfirst
        simp only [List.map_nil, List.sum_nil] at this
        omega

/-- The claimants that are reached before the cap, when so much was given out already. -/
def served (cap : Nat) (grant : ρ → List γ) : Nat → List ρ → List ρ
  | _, [] => []
  | given, rule :: rest =>
    if given ≥ cap then [] else rule :: served cap grant (given + (grant rule).length) rest

theorem served_sublist (cap : Nat) (grant : ρ → List γ) (given : Nat) (rules : List ρ) :
    (served cap grant given rules).Sublist rules := by
  induction rules generalizing given with
  | nil => exact List.Sublist.slnil
  | cons rule rest ih =>
    unfold served
    split
    · exact List.nil_sublist _
    · exact (ih _).cons_cons rule

/-- Who is reached depends on the amounts alone. -/
theorem served_map {δ : Type} (f : ρ → γ → δ) (given : Nat) (rules : List ρ) :
    served cap (fun rule => (grant rule).map (f rule)) given rules = served cap grant given rules := by
  induction rules generalizing given with
  | nil => rfl
  | cons rule rest ih =>
    unfold served
    rw [List.length_map, ih]

/-- What is served is what those that are reached are granted. -/
theorem serve_eq : serve cap grant rules acc =
    acc ++ (served cap grant acc.length rules).flatMap grant := by
  induction rules generalizing acc with
  | nil => exact (List.append_nil acc).symm
  | cons rule rest ih =>
    unfold served
    split
    next hfull => rw [serve_full hfull, List.flatMap_nil, List.append_nil]
    next hroom =>
      have hserve : serve cap grant (rule :: rest) acc = serve cap grant rest (acc ++ grant rule) := by
        unfold serve
        rw [List.foldl_cons, if_neg hroom]
      rw [hserve, ih, List.length_append, List.flatMap_cons, List.append_assoc]
