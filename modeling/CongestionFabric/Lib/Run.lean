import Mathlib.Tactic.Common
import Mathlib.Data.List.Induction
import Mathlib.Order.Lattice

/-- One recorded step of a transition system. -/
structure Event (σ ι : Type) where
  before : σ
  input : ι
  after : σ

/-- The runs of a step relation from a start state, with the events they record. -/
inductive Run {σ ι : Type} (step : σ → ι → σ → Prop) (s₀ : σ) : List (Event σ ι) → σ → Prop where
  | start : Run step s₀ [] s₀
  | next {es : List (Event σ ι)} {s s' : σ} {i : ι} (run : Run step s₀ es s)
      (hstep : step s i s') : Run step s₀ (es ++ [⟨s, i, s'⟩]) s'

/-- The events a step function records on a list of inputs. -/
def events {σ ι : Type} (f : σ → ι → σ) : σ → List ι → List (Event σ ι)
  | _, [] => []
  | s, i :: rest => ⟨s, i, f s i⟩ :: events f (f s i) rest

namespace Run

variable {σ ι : Type} {step : σ → ι → σ → Prop} {s₀ s : σ} {es es' : List (Event σ ι)}

theorem invariant {P : σ → Prop} (h : Run step s₀ es s) (h₀ : P s₀)
    (hstep : ∀ s i s', P s → step s i s' → P s') : P s := by
  induction h with
  | start => exact h₀
  | next _ hs ih => exact hstep _ _ _ ih hs

theorem append {m : σ} (h : Run step s₀ es m) (h' : Run step m es' s) :
    Run step s₀ (es ++ es') s := by
  induction h' with
  | start => simpa using h
  | next _ hs ih => simpa [← List.append_assoc] using ih.next hs

theorem nil_eq (h : Run step s₀ [] s) : s = s₀ := by
  generalize hn : ([] : List (Event σ ι)) = l at h
  cases h with
  | start => rfl
  | next => simp at hn

theorem of_events (f : σ → ι → σ) (s₀ : σ) (is : List ι) :
    Run (fun s i s' => f s i = s') s₀ (events f s₀ is) (is.foldl f s₀) := by
  induction is generalizing s₀ with
  | nil => exact .start
  | cons i rest ih => exact (Run.start.next rfl).append (ih (f s₀ i))

/-- The last event of a run ends in its last state. -/
theorem snoc_inv {e : Event σ ι} (h : Run step s₀ (es ++ [e]) s) :
    Run step s₀ es e.before ∧ step e.before e.input e.after ∧ e.after = s := by
  generalize hl : es ++ [e] = l at h
  cases h with
  | start => simp at hl
  | next run hs =>
    obtain ⟨rfl, rfl⟩ := List.append_singleton_inj.mp hl
    exact ⟨run, hs, rfl⟩

theorem split (h : Run step s₀ (es ++ es') s) :
    ∃ m, Run step s₀ es m ∧ Run step m es' s := by
  induction es' using List.reverseRecOn generalizing s with
  | nil => exact ⟨s, by simpa using h, .start⟩
  | append_singleton es' e ih =>
    rw [← List.append_assoc] at h
    obtain ⟨run, hs, rfl⟩ := snoc_inv h
    obtain ⟨m, h₁, h₂⟩ := ih run
    exact ⟨m, h₁, h₂.next hs⟩

/-- The first event of a run starts in its first state. -/
theorem cons_inv {e : Event σ ι} (h : Run step s₀ (e :: es) s) :
    e.before = s₀ ∧ step s₀ e.input e.after ∧ Run step e.after es s := by
  have happend : Run step s₀ ([e] ++ es) s := h
  obtain ⟨m, hfirst, hrest⟩ := split happend
  have hfirst : Run step s₀ ([] ++ [e]) m := hfirst
  obtain ⟨hstart, hs, rfl⟩ := snoc_inv hfirst
  obtain rfl := (nil_eq hstart).symm
  exact ⟨rfl, hs, hrest⟩

theorem mem_step {e : Event σ ι} (h : Run step s₀ es s) (he : e ∈ es) :
    step e.before e.input e.after := by
  induction h with
  | start => simp at he
  | next _ hs ih =>
    rcases List.mem_append.mp he with he | he
    · exact ih he
    · cases List.mem_singleton.mp he
      exact hs

/-- A run whose inputs all meet a condition is a run of the steps that meet it. -/
theorem guarded {P : σ → ι → Prop} (h : Run step s₀ es s) (hP : ∀ e ∈ es, P e.before e.input) :
    Run (fun s i s' => step s i s' ∧ P s i) s₀ es s := by
  induction h with
  | start => exact .start
  | next _ hs ih =>
    have hlast := hP _ (List.mem_append_right _ List.mem_cons_self)
    exact (ih fun e he => hP e (List.mem_append_left _ he)).next ⟨hs, hlast⟩

theorem mono {step' : σ → ι → σ → Prop} (h : Run step s₀ es s)
    (hmono : ∀ s i s', step s i s' → step' s i s') : Run step' s₀ es s := by
  induction h with
  | start => exact .start
  | next _ hs ih => exact ih.next (hmono _ _ _ hs)

/-- What no event lowers is at its highest at the end. -/
theorem rank_le {β : Type} [Preorder β] (rank : σ → β) (h : Run step s₀ es s)
    (hle : ∀ e ∈ es, rank e.before ≤ rank e.after) :
    ∀ e ∈ es, rank e.before ≤ rank s ∧ rank e.after ≤ rank s := by
  induction h with
  | start => exact fun _ he => absurd he List.not_mem_nil
  | @next es s s' i run _ ih =>
    have hlast : rank s ≤ rank s' := hle ⟨s, i, s'⟩ (List.mem_append_right _ List.mem_cons_self)
    intro e he
    rcases List.mem_append.mp he with he | he
    · obtain ⟨hbefore, hafter⟩ := ih (fun e he => hle e (List.mem_append_left _ he)) e he
      exact ⟨hbefore.trans hlast, hafter.trans hlast⟩
    · rw [List.mem_singleton.mp he]
      exact ⟨hlast, le_refl _⟩

/-- What every step keeps is true before and after every event of a run. -/
theorem invariant_at {P : σ → Prop} (h : Run step s₀ es s) (h₀ : P s₀)
    (hstep : ∀ s i s', P s → step s i s' → P s') {e : Event σ ι} (he : e ∈ es) :
    P e.before ∧ P e.after := by
  obtain ⟨pre, post, rfl⟩ := List.append_of_mem he
  rw [show pre ++ e :: post = (pre ++ [e]) ++ post by simp] at h
  obtain ⟨m, h, _⟩ := split h
  obtain ⟨run, hs, rfl⟩ := snoc_inv h
  have hb := run.invariant h₀ hstep
  exact ⟨hb, hstep _ _ _ hb hs⟩

/-- A step keeps what it shows of the state, or shows something of lower rank. -/
def Descends {κ : Type} (key : σ → κ) (rank : κ → Nat) (e : Event σ ι) : Prop :=
  key e.after = key e.before ∨ rank (key e.after) < rank (key e.before)

theorem Descends.rank_le {κ : Type} {key : σ → κ} {rank : κ → Nat} {e : Event σ ι}
    (h : Descends key rank e) : rank (key e.after) ≤ rank (key e.before) := by
  rcases h with h | h
  · exact Nat.le_of_eq (congrArg rank h)
  · exact Nat.le_of_lt h

/-- Every change spends rank: there are no more changes than rank to spend. -/
theorem changes_le {κ : Type} [DecidableEq κ] {key : σ → κ} {rank : κ → Nat}
    (h : Run step s₀ es s) (hdown : ∀ e ∈ es, Descends key rank e) :
    (es.countP fun e => decide (key e.after ≠ key e.before)) + rank (key s) ≤ rank (key s₀) := by
  induction h with
  | start => simp
  | @next es s s' i _ hs ih =>
    have hbefore := ih fun e he => hdown e (List.mem_append_left _ he)
    have hlast : Descends key rank ⟨s, i, s'⟩ :=
      hdown _ (List.mem_append_right _ List.mem_cons_self)
    rw [List.countP_append, List.countP_singleton]
    by_cases hsame : key s' = key s
    · rw [if_neg (by simpa using hsame), hsame]
      omega
    · have hlower : rank (key s') < rank (key s) := hlast.resolve_left hsame
      rw [if_pos (decide_eq_true hsame)]
      omega

theorem rank_after_le {κ : Type} {key : σ → κ} {rank : κ → Nat} (h : Run step s₀ es s)
    (hdown : ∀ e ∈ es, Descends key rank e) :
    rank (key s) ≤ rank (key s₀) ∧ ∀ e ∈ es, rank (key e.after) ≤ rank (key s₀) := by
  induction h with
  | start => exact ⟨Nat.le_refl _, fun e he => absurd he List.not_mem_nil⟩
  | @next es s s' i _ hs ih =>
    obtain ⟨hend, hafter⟩ := ih fun e he => hdown e (List.mem_append_left _ he)
    have hlast : rank (key s') ≤ rank (key s) :=
      (hdown ⟨s, i, s'⟩ (List.mem_append_right _ List.mem_cons_self)).rank_le
    refine ⟨Nat.le_trans hlast hend, fun e he => ?_⟩
    rcases List.mem_append.mp he with he | he
    · exact hafter e he
    · rw [List.mem_singleton.mp he]
      exact Nat.le_trans hlast hend

/-- What a change leaves is never shown again. -/
theorem never_again {κ : Type} {key : σ → κ} {rank : κ → Nat} (h : Run step s₀ es s)
    (hdown : ∀ e ∈ es, Descends key rank e) {pre post : List (Event σ ι)} {e : Event σ ι}
    (hes : es = pre ++ e :: post) (hchange : key e.after ≠ key e.before) :
    ∀ later ∈ post, key later.after ≠ key e.before := by
  intro later hlater hback
  rw [hes] at h hdown
  obtain ⟨m, _, hrest⟩ := h.split
  obtain ⟨_, _, hpost⟩ := hrest.cons_inv
  have hlower : rank (key e.after) < rank (key e.before) :=
    (hdown e (List.mem_append_right _ List.mem_cons_self)).resolve_left hchange
  have hle := (hpost.rank_after_le fun x hx =>
    hdown x (List.mem_append_right _ (List.mem_cons_of_mem _ hx))).2 later hlater
  rw [hback] at hle
  omega

end Run

/-- The last `n` elements of a list satisfy a predicate. -/
def Trailing {ε : Type} (p : ε → Prop) (n : Nat) (l : List ε) : Prop :=
  ∃ pre window, l = pre ++ window ∧ window.length = n ∧ ∀ e ∈ window, p e

namespace Trailing

variable {ε : Type} {p q : ε → Prop} {n : Nat} {l : List ε}

theorem zero (l : List ε) : Trailing p 0 l := ⟨l, [], by simp, rfl, by simp⟩

theorem snoc {e : ε} (h : Trailing p n l) (he : p e) : Trailing p (n + 1) (l ++ [e]) := by
  obtain ⟨pre, window, rfl, hlen, hall⟩ := h
  refine ⟨pre, window ++ [e], by simp, by simp [hlen], ?_⟩
  intro e' he'
  rcases List.mem_append.mp he' with h | h
  · exact hall e' h
  · exact List.mem_singleton.mp h ▸ he

theorem of_le {m : Nat} (h : Trailing p n l) (hm : m ≤ n) : Trailing p m l := by
  obtain ⟨pre, window, rfl, hlen, hall⟩ := h
  refine ⟨pre ++ window.take (n - m), window.drop (n - m), ?_, ?_, ?_⟩
  · rw [List.append_assoc, List.take_append_drop]
  · rw [List.length_drop]; omega
  · exact fun e he => hall e (List.mem_of_mem_drop he)

/-- A window that cannot contain an element lies after it. -/
theorem after {x : ε} {l' : List ε} (h : Trailing p n (l ++ x :: l')) (hx : ¬p x) :
    Trailing p n l' := by
  obtain ⟨pre, window, heq, hlen, hall⟩ := h
  have hw : window <:+ l ++ x :: l' := ⟨pre, heq.symm⟩
  have hx' : x :: l' <:+ l ++ x :: l' := List.suffix_append _ _
  rcases List.suffix_or_suffix_of_suffix hw hx' with hsub | hsub
  · rcases List.suffix_cons_iff.mp hsub with rfl | ⟨pre', hpre⟩
    · exact absurd (hall x List.mem_cons_self) hx
    · exact ⟨pre', window, hpre.symm, hlen, hall⟩
  · exact absurd (hall x (hsub.subset List.mem_cons_self)) hx

theorem imp (h : Trailing p n l) (hpq : ∀ e ∈ l, p e → q e) : Trailing q n l := by
  obtain ⟨pre, window, rfl, hlen, hall⟩ := h
  exact ⟨pre, window, rfl, hlen, fun e he => hpq e (List.mem_append_right _ he) (hall e he)⟩

theorem snoc_inv {e : ε} (h : Trailing p (n + 1) (l ++ [e])) : p e ∧ Trailing p n l := by
  obtain ⟨pre, window, heq, hlen, hall⟩ := h
  rcases List.eq_nil_or_concat window with rfl | ⟨window, last, rfl⟩
  · cases hlen
  · rw [List.concat_eq_append] at heq hlen hall
    rw [← List.append_assoc] at heq
    obtain ⟨rfl, rfl⟩ := List.append_singleton_inj.mp heq
    refine ⟨hall e (by simp), pre, window, rfl, by simpa using hlen, fun e' he' => ?_⟩
    exact hall e' (List.mem_append_left _ he')

end Trailing

/-- The last `n` elements satisfy a predicate; where all do, those carried in count as well. -/
def Streak {ε : Type} (p : ε → Prop) (carry n : Nat) (l : List ε) : Prop :=
  Trailing p n l ∨ (∀ e ∈ l, p e) ∧ n ≤ carry + l.length

namespace Streak

variable {ε : Type} {p : ε → Prop} {carry n : Nat} {l : List ε} {e : ε}

theorem zero (l : List ε) : Streak p carry 0 l := .inl (.zero l)

theorem nil_iff : Streak p carry n [] ↔ n ≤ carry := by
  constructor
  · rintro (⟨pre, window, heq, rfl, _⟩ | ⟨_, hle⟩)
    · obtain ⟨_, rfl⟩ := List.append_eq_nil_iff.mp heq.symm
      exact Nat.zero_le _
    · exact hle
  · exact fun hle => .inr ⟨by simp, hle⟩

theorem snoc_iff : Streak p carry (n + 1) (l ++ [e]) ↔ p e ∧ Streak p carry n l := by
  constructor
  · rintro (htrailing | ⟨hall, hle⟩)
    · obtain ⟨he, hbefore⟩ := htrailing.snoc_inv
      exact ⟨he, .inl hbefore⟩
    · rw [List.length_append, List.length_singleton] at hle
      refine ⟨hall e (by simp), .inr ⟨fun e' he' => hall e' (List.mem_append_left _ he'), ?_⟩⟩
      omega
  · rintro ⟨he, htrailing | ⟨hall, hle⟩⟩
    · exact .inl (htrailing.snoc he)
    · refine .inr ⟨fun e' he' => ?_, ?_⟩
      · rcases List.mem_append.mp he' with he' | he'
        · exact hall e' he'
        · rwa [List.mem_singleton.mp he']
      · rw [List.length_append, List.length_singleton]
        omega

end Streak
