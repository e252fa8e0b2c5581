import CongestionFabric.Core.Checked
import CongestionFabric.Lib.Run
import Mathlib.Algebra.GroupWithZero.Nat
import Mathlib.Data.List.Chain

namespace CongestionFabric

def limits.kMaxSequenceGap : UInt64 := 1048576
def limits.kReplayWindow : UInt64 := 4096

/-- What a window answers to a number. -/
inductive Verdict where
  | accept | duplicate | regressed | tooFarAhead
  deriving DecidableEq

/-- Duplicate and reorder suppression for frames that carry a sequence number. -/
structure SequenceWindow where
  window : UInt64 := limits.kReplayWindow
  highest : UInt64 := 0
  started : Bool := false
  recent : List UInt64 := []

namespace SequenceWindow

def ofSize (window : UInt64) : SequenceWindow where
  window := if window ≠ 0 then window else 1

/-- The last numbers of a list, at most as many as the window holds. -/
def newest (window : UInt64) (recent : List UInt64) : List UInt64 :=
  if recent.length > window.toNat then recent.drop (recent.length - window.toNat) else recent

def observe (w : SequenceWindow) (sequence : UInt64) : SequenceWindow × Verdict :=
  if w.started = false then
    ({ w with started := true, highest := sequence, recent := [sequence] }, .accept)
  else if sequence ≤ w.highest then
    -- the sum is taken modulo 2 ^ 64
    if sequence + w.window < w.highest then (w, .regressed)
    else (w, if sequence ∈ w.recent then .duplicate else .regressed)
  else if sequence - w.highest > limits.kMaxSequenceGap then (w, .tooFarAhead)
  else ({ w with highest := sequence, recent := newest w.window (w.recent ++ [sequence]) }, .accept)

/-- The observations of a list of numbers by a window of a size. -/
def observations (size : UInt64) (numbers : List UInt64) : List (Event SequenceWindow UInt64) :=
  events (fun w sequence => (w.observe sequence).1) (ofSize size) numbers

def verdict (e : Event SequenceWindow UInt64) : Verdict := (e.before.observe e.input).2

/-- The numbers that were accepted, in order. -/
def accepted (es : List (Event SequenceWindow UInt64)) : List UInt64 :=
  (es.filter fun e => verdict e = .accept).map (·.input)

/-- The next number accepted after another. -/
def Follows (last next : UInt64) : Prop := last < next ∧ next - last ≤ limits.kMaxSequenceGap

/-- What a window should answer to a sequence of observations. -/
structure Answers (es : List (Event SequenceWindow UInt64)) : Prop where
  increasing : (accepted es).IsChain Follows
  inWindow : ∀ before e after, es = before ++ e :: after → e.before.started = true →
    e.input ≤ e.before.highest → e.before.highest - e.input < e.before.window →
    verdict e = if e.input ∈ accepted before then .duplicate else .regressed
  unchanged : ∀ e ∈ es, verdict e ≠ .accept → e.after = e.before

/-- A number that is remembered, and whose sum with the window leaves the 64 bits. -/
def Wraps (w : SequenceWindow) (sequence : UInt64) : Prop :=
  sequence ∈ w.recent ∧ 2 ^ 64 ≤ sequence.toNat + w.window.toNat

instance (w : SequenceWindow) (sequence : UInt64) : Decidable (Wraps w sequence) :=
  inferInstanceAs (Decidable (_ ∧ _))

/-- What a window remembers of the numbers it has accepted. -/
structure Remembers (past : List UInt64) (w : SequenceWindow) : Prop where
  started : w.started = true ↔ past ≠ []
  chained : past.IsChain Follows
  last : w.started = true → past.getLast? = some w.highest
  recent : w.recent = past.drop (past.length - w.window.toNat)
  room : 0 < w.window.toNat

variable {w : SequenceWindow} {past : List UInt64} {sequence : UInt64}

theorem ofSize_remembers (size : UInt64) : Remembers [] (ofSize size) := by
  have hroom : 0 < (ofSize size).window.toNat := by
    unfold ofSize
    dsimp only
    split_ifs with hzero
    · have hne : size.toNat ≠ 0 := fun h => hzero (UInt64.toNat_inj.mp h)
      omega
    · exact Nat.one_pos
  have hempty : (ofSize size).recent = [] := rfl
  refine ⟨?_, .nil, ?_, ?_, hroom⟩
  · simp [ofSize]
  · intro hstarted
    cases hstarted
  · rw [hempty, List.drop_nil]

/-- All that an observation can do. -/
theorem observe_cases (w : SequenceWindow) (sequence : UInt64) :
    (w.started = false ∧ w.observe sequence =
      ({ w with started := true, highest := sequence, recent := [sequence] }, .accept)) ∨
    (w.started = true ∧ sequence ≤ w.highest ∧ w.observe sequence =
      (w, if sequence + w.window < w.highest then .regressed
        else if sequence ∈ w.recent then .duplicate else .regressed)) ∨
    (w.started = true ∧ w.highest < sequence ∧ w.observe sequence = (w, .tooFarAhead)) ∨
    (w.started = true ∧ Follows w.highest sequence ∧ w.observe sequence =
      ({ w with highest := sequence, recent := newest w.window (w.recent ++ [sequence]) },
        .accept)) := by
  unfold observe
  by_cases hstart : w.started = false
  · exact .inl ⟨hstart, if_pos hstart⟩
  · have hstarted : w.started = true := by simpa using hstart
    rw [if_neg hstart]
    by_cases hle : sequence ≤ w.highest
    · refine .inr (.inl ⟨hstarted, hle, ?_⟩)
      rw [if_pos hle]
      split_ifs <;> rfl
    · have hlt := UInt64.not_le.mp hle
      rw [if_neg hle]
      by_cases hgap : sequence - w.highest > limits.kMaxSequenceGap
      · exact .inr (.inr (.inl ⟨hstarted, hlt, if_pos hgap⟩))
      · exact .inr (.inr (.inr ⟨hstarted, ⟨hlt, UInt64.not_lt.mp hgap⟩, if_neg hgap⟩))

/-- What is left of a bounded list after one more is what is left of the whole list after it. -/
theorem newest_snoc (xs : List UInt64) (x : UInt64) {window : UInt64} (hn : 0 < window.toNat) :
    newest window (xs.drop (xs.length - window.toNat) ++ [x]) =
      (xs ++ [x]).drop ((xs ++ [x]).length - window.toNat) := by
  unfold newest
  rw [List.length_append, List.length_append, List.length_singleton, List.length_drop]
  by_cases hfull : window.toNat ≤ xs.length
  · have hkept : xs.length - (xs.length - window.toNat) = window.toNat := by omega
    have hone : window.toNat + 1 - window.toNat = 1 := by omega
    have hdrop : xs.length + 1 - window.toNat = xs.length - window.toNat + 1 := by omega
    rw [hkept, if_pos (by omega), hone, hdrop, ← List.drop_append_of_le_length (by omega),
      List.drop_drop]
  · have hzero : xs.length - window.toNat = 0 := by omega
    have hzero' : xs.length + 1 - window.toNat = 0 := by omega
    rw [hzero, hzero', if_neg (by omega), List.drop_zero, List.drop_zero]

/-- The number that an observation adds to the accepted ones. -/
def gained (w : SequenceWindow) (sequence : UInt64) : List UInt64 :=
  if (w.observe sequence).2 = .accept then [sequence] else []

/-- Every answer but one leaves the window as it was. -/
theorem observe_unchanged (h : (w.observe sequence).2 ≠ .accept) : (w.observe sequence).1 = w := by
  rcases w.observe_cases sequence with ⟨_, hobserve⟩ | ⟨_, _, hobserve⟩ | ⟨_, _, hobserve⟩ |
    ⟨_, _, hobserve⟩
  · rw [hobserve] at h
    exact absurd rfl h
  · rw [hobserve]
  · rw [hobserve]
  · rw [hobserve] at h
    exact absurd rfl h

theorem Remembers.observe (h : Remembers past w) (sequence : UInt64) :
    Remembers (past ++ w.gained sequence) (w.observe sequence).1 := by
  have hsame : ∀ answer, answer ≠ Verdict.accept → w.observe sequence = (w, answer) →
      Remembers (past ++ w.gained sequence) (w.observe sequence).1 := by
    intro answer hanswer hobserve
    have hnone : w.gained sequence = [] := by
      unfold gained
      rw [hobserve, if_neg hanswer]
    rw [hnone, hobserve, List.append_nil]
    exact h
  rcases w.observe_cases sequence with ⟨hstart, hobserve⟩ | ⟨_, _, hobserve⟩ | ⟨_, _, hobserve⟩ |
    ⟨hstart, hfollows, hobserve⟩
  · have hnil : past = [] := by
      by_contra hne
      have hstarted := h.started.mpr hne
      rw [hstart] at hstarted
      cases hstarted
    have hgained : w.gained sequence = [sequence] := by
      unfold gained
      rw [hobserve, if_pos rfl]
    have hroom := h.room
    have hone : 1 - w.window.toNat = 0 := by omega
    rw [hgained, hobserve, hnil, List.nil_append]
    refine ⟨by simp, .singleton _, fun _ => rfl, ?_, hroom⟩
    show [sequence] = [sequence].drop (1 - w.window.toNat)
    rw [hone, List.drop_zero]
  · apply hsame _ _ hobserve
    split_ifs <;> simp
  · exact hsame _ (by simp) hobserve
  · have hgained : w.gained sequence = [sequence] := by
      unfold gained
      rw [hobserve, if_pos rfl]
    rw [hgained, hobserve]
    refine ⟨by simp [hstart], ?_, fun _ => by simp, ?_, h.room⟩
    · rw [List.isChain_append]
      refine ⟨h.chained, .singleton _, ?_⟩
      intro x hx y hy
      rw [h.last hstart] at hx
      obtain rfl := Option.some.inj hx
      obtain rfl := Option.some.inj hy
      exact hfollows
    · show newest w.window (w.recent ++ [sequence]) = _
      rw [h.recent]
      exact newest_snoc past sequence h.room

def Observed (w : SequenceWindow) (sequence : UInt64) (w' : SequenceWindow) : Prop :=
  (w.observe sequence).1 = w'

variable {size : UInt64} {numbers : List UInt64} {es before after : List (Event SequenceWindow UInt64)}
  {e : Event SequenceWindow UInt64}

theorem accepted_snoc (es : List (Event SequenceWindow UInt64)) (w w' : SequenceWindow)
    (sequence : UInt64) :
    accepted (es ++ [⟨w, sequence, w'⟩]) = accepted es ++ w.gained sequence := by
  unfold accepted gained verdict
  rw [List.filter_append, List.map_append]
  by_cases haccept : (w.observe sequence).2 = .accept
  · simp [haccept]
  · simp [haccept]

theorem remembers_run (run : Run Observed (ofSize size) es w) : Remembers (accepted es) w := by
  induction run with
  | start => exact ofSize_remembers size
  | @next es w w' sequence _ hstep ih =>
    obtain rfl : _ = w' := hstep
    rw [accepted_snoc]
    exact ih.observe sequence

theorem run_observations (size : UInt64) (numbers : List UInt64) :
    ∃ w, Run Observed (ofSize size) (observations size numbers) w := by
  refine ⟨numbers.foldl (fun w sequence => (w.observe sequence).1) (ofSize size), ?_⟩
  exact Run.of_events (fun w sequence => (w.observe sequence).1) (ofSize size) numbers

/-- What was accepted before an observation is what its window remembers. -/
theorem observations_remember (h : observations size numbers = before ++ e :: after) :
    Remembers (accepted before) e.before := by
  obtain ⟨w, run⟩ := run_observations size numbers
  rw [h] at run
  obtain ⟨mid, hbefore, hafter⟩ := run.split
  obtain ⟨hstart, _, _⟩ := hafter.cons_inv
  rw [hstart]
  exact remembers_run hbefore

/-- Accepted numbers grow by one at least. -/
theorem chain_spread {first last : UInt64} {later : List UInt64}
    (h : (first :: later).IsChain Follows) (hlast : (first :: later).getLast? = some last) :
    first.toNat + later.length ≤ last.toNat := by
  induction later generalizing first with
  | nil =>
    obtain rfl : first = last := Option.some.inj hlast
    exact Nat.le_refl _
  | cons next later ih =>
    have hfollows := List.IsChain.rel h
    have hlt := UInt64.lt_iff_toNat_lt.mp hfollows.1
    have hrest := ih h.tail hlast
    rw [List.length_cons]
    omega

/-- A number that was accepted less than a window ago is still remembered. -/
theorem Remembers.in_recent (h : Remembers past w) (hstart : w.started = true)
    (hmember : sequence ∈ past) (hle : sequence ≤ w.highest)
    (hwindow : w.highest - sequence < w.window) : sequence ∈ w.recent := by
  obtain ⟨front, back, rfl⟩ := List.append_of_mem hmember
  have hlast := h.last hstart
  rw [List.getLast?_append_of_ne_nil _ (List.cons_ne_nil _ _)] at hlast
  have hspread := chain_spread h.chained.right_of_append hlast
  have hdistance := UInt64.lt_iff_toNat_lt.mp hwindow
  rw [UInt64.toNat_sub_of_le _ _ hle] at hdistance
  rw [h.recent, List.drop_append_of_le_length]
  · exact List.mem_append_right _ List.mem_cons_self
  · rw [List.length_append, List.length_cons]
    omega

/-- The sum with the window passes below the highest number just when it leaves the 64 bits, for a
number that is no more than a window behind. -/
theorem wraps_iff (hle : sequence ≤ w.highest) (hwindow : w.highest - sequence < w.window) :
    sequence + w.window < w.highest ↔ 2 ^ 64 ≤ sequence.toNat + w.window.toNat := by
  have hdistance := UInt64.lt_iff_toNat_lt.mp hwindow
  rw [UInt64.toNat_sub_of_le _ _ hle] at hdistance
  have hbelow := UInt64.le_iff_toNat_le.mp hle
  have hhighest := w.highest.toNat_lt
  have hroom := w.window.toNat_lt
  rw [UInt64.lt_iff_toNat_lt, UInt64.toNat_add]
  by_cases hwrap : 2 ^ 64 ≤ sequence.toNat + w.window.toNat
  · have hmod : (sequence.toNat + w.window.toNat) % 2 ^ 64 =
        sequence.toNat + w.window.toNat - 2 ^ 64 := by
      rw [Nat.mod_eq_sub_mod hwrap, Nat.mod_eq_of_lt (by omega)]
    rw [hmod]
    omega
  · rw [Nat.mod_eq_of_lt (not_le.mp hwrap)]
    omega

/-- The answer to a number that is no more than a window behind. -/
theorem Remembers.answer (h : Remembers past w) (hstart : w.started = true)
    (hle : sequence ≤ w.highest) (hwindow : w.highest - sequence < w.window) :
    (w.observe sequence).2 = (if sequence ∈ past then .duplicate else .regressed) ↔
      ¬Wraps w sequence := by
  have hmember : sequence ∈ w.recent ↔ sequence ∈ past := by
    constructor
    · intro hrecent
      rw [h.recent] at hrecent
      exact List.mem_of_mem_drop hrecent
    · exact fun hpast => h.in_recent hstart hpast hle hwindow
  have hanswer : (w.observe sequence).2 = if sequence + w.window < w.highest then .regressed
      else if sequence ∈ w.recent then .duplicate else .regressed := by
    unfold SequenceWindow.observe
    rw [if_neg (by simp [hstart]), if_pos hle]
    split_ifs <;> rfl
  have hwraps : Wraps w sequence ↔ sequence ∈ past ∧ sequence + w.window < w.highest :=
    and_congr hmember (wraps_iff hle hwindow).symm
  rw [hanswer, hwraps]
  by_cases hpast : sequence ∈ past
  · rw [if_pos hpast, if_pos (hmember.mpr hpast)]
    split_ifs with hwrap
    · simp [hpast, hwrap]
    · simp [hwrap]
  · rw [if_neg hpast, if_neg fun hrecent => hpast (hmember.mp hrecent), ite_self]
    simp [hpast]

/-- A window of any size answers any observations as it should just when no observation is of a
remembered number whose sum with the window leaves the 64 bits. -/
theorem window_answers_iff (size : UInt64) (numbers : List UInt64) :
    Answers (observations size numbers) ↔
      ∀ e ∈ observations size numbers, ¬Wraps e.before e.input := by
  constructor
  · intro h e he hwraps
    obtain ⟨before, after, hsplit⟩ := List.append_of_mem he
    have hremembers := observations_remember hsplit
    obtain ⟨hrecent, hsum⟩ := hwraps
    have hpast : e.input ∈ accepted before := by
      rw [hremembers.recent] at hrecent
      exact List.mem_of_mem_drop hrecent
    have hstart : e.before.started = true :=
      hremembers.started.mpr (List.ne_nil_of_mem hpast)
    have hle : e.input ≤ e.before.highest := by
      obtain ⟨front, back, hfront⟩ := List.append_of_mem hpast
      have hchain := hremembers.chained
      have hlast := hremembers.last hstart
      rw [hfront] at hchain hlast
      rw [List.getLast?_append_of_ne_nil _ (List.cons_ne_nil _ _)] at hlast
      have hspread := chain_spread hchain.right_of_append hlast
      rw [UInt64.le_iff_toNat_le]
      omega
    have hwindow : e.before.highest - e.input < e.before.window := by
      have hhighest := e.before.highest.toNat_lt
      have hbelow := UInt64.le_iff_toNat_le.mp hle
      rw [UInt64.lt_iff_toNat_lt, UInt64.toNat_sub_of_le _ _ hle]
      omega
    have hanswer := h.inWindow before e after hsplit hstart hle hwindow
    exact (hremembers.answer hstart hle hwindow).mp hanswer ⟨hrecent, hsum⟩
  · intro h
    obtain ⟨w, run⟩ := run_observations size numbers
    refine ⟨(remembers_run run).chained, ?_, ?_⟩
    · intro before e after hsplit hstart hle hwindow
      have he : e ∈ observations size numbers := by
        rw [hsplit]
        exact List.mem_append_right _ List.mem_cons_self
      exact ((observations_remember hsplit).answer hstart hle hwindow).mpr (h e he)
    · intro e he hanswer
      have hstep : (e.before.observe e.input).1 = e.after := run.mem_step he
      rw [← hstep]
      exact observe_unchanged hanswer

/-- The last number there is, twice: it was accepted, and is not found a duplicate. -/
theorem last_number_regresses : ¬Answers (observations 8 [limits.kMaxU64, limits.kMaxU64]) := by
  intro h
  have hanswer := h.inWindow [⟨ofSize 8, limits.kMaxU64, _⟩] ⟨_, limits.kMaxU64, _⟩ [] rfl rfl
    (by decide) (by decide)
  revert hanswer
  decide

end SequenceWindow

end CongestionFabric
