import Mathlib.Data.List.Lex
import Mathlib.Data.Nat.Digits.Lemmas

/-! Numerals, most significant digit first, and their order as texts. -/

namespace Numerals

variable {b : Nat} {xs ys : List Nat}

def numberOf (b : Nat) (digits : List Nat) : Nat := Nat.ofDigits b digits.reverse

@[simp] theorem numberOf_nil : numberOf b [] = 0 := rfl

theorem numberOf_cons (x : Nat) (xs : List Nat) :
    numberOf b (x :: xs) = numberOf b xs + b ^ xs.length * x :=
  Nat.ofDigits_reverse_cons xs x

theorem numberOf_lt_pow (hb : 1 < b) (hxs : ∀ x ∈ xs, x < b) :
    numberOf b xs < b ^ xs.length := by
  have h := @Nat.ofDigits_lt_base_pow_length b xs.reverse hb
    fun x hx => hxs x (List.mem_reverse.mp hx)
  rwa [List.length_reverse] at h

/-- The leading digits are the whole quotient by the place of the last of them. -/
theorem numberOf_take (hb : 1 < b) (hxs : ∀ x ∈ xs, x < b) (k : Nat) :
    numberOf b (xs.take k) = numberOf b xs / b ^ (xs.length - k) := by
  unfold numberOf
  rw [Nat.ofDigits_div_pow_eq_ofDigits_drop _ (by omega) _
    fun x hx => hxs x (List.mem_reverse.mp hx), List.reverse_take]

/-- A smaller leading digit outweighs all the digits after it. -/
theorem numberOf_lt_of_head {x y : Nat} (hb : 1 < b) (hxs : ∀ x ∈ xs, x < b)
    (hlength : xs.length = ys.length) (h : x < y) :
    numberOf b (x :: xs) < numberOf b (y :: ys) := by
  have htail := numberOf_lt_pow hb hxs
  rw [numberOf_cons, numberOf_cons, ← hlength]
  calc numberOf b xs + b ^ xs.length * x < b ^ xs.length + b ^ xs.length * x :=
        Nat.add_lt_add_right htail _
    _ = b ^ xs.length * (x + 1) := by rw [Nat.mul_add, Nat.mul_one, Nat.add_comm]
    _ ≤ b ^ xs.length * y := Nat.mul_le_mul_left _ h
    _ ≤ numberOf b ys + b ^ xs.length * y := Nat.le_add_left _ _

/-- Numerals of one length are ordered as their numbers are. -/
theorem lt_iff_numberOf_lt (hb : 1 < b) (hxs : ∀ x ∈ xs, x < b) (hys : ∀ y ∈ ys, y < b)
    (hlength : xs.length = ys.length) : xs < ys ↔ numberOf b xs < numberOf b ys := by
  induction xs generalizing ys with
  | nil =>
    have hnil : ys = [] := List.eq_nil_of_length_eq_zero hlength.symm
    subst hnil
    simp
  | cons x xs ih =>
    cases ys with
    | nil => simp at hlength
    | cons y ys =>
      have hlength' : xs.length = ys.length := by simpa using hlength
      have hxs' : ∀ z ∈ xs, z < b := fun z hz => hxs z (List.mem_cons_of_mem _ hz)
      have hys' : ∀ z ∈ ys, z < b := fun z hz => hys z (List.mem_cons_of_mem _ hz)
      rw [List.cons_lt_cons_iff]
      rcases Nat.lt_trichotomy x y with hlt | heq | hgt
      · have hnumber := numberOf_lt_of_head hb hxs' hlength' hlt
        simp [hlt, hnumber]
      · subst heq
        rw [numberOf_cons, numberOf_cons, hlength', ih hxs' hys' hlength']
        simp
      · have hnumber := numberOf_lt_of_head hb hys' hlength'.symm hgt
        have hnot : ¬ (x < y ∨ x = y ∧ xs < ys) := by omega
        simp only [hnot, false_iff]
        omega

/-! ### Texts of different lengths -/

section Prefixes

variable {α : Type*} [LinearOrder α] {ws vs : List α}

/-- A longer word precedes a shorter one when its beginning does. -/
theorem lt_iff_take_lt (h : ws.length < vs.length) : vs < ws ↔ vs.take ws.length < ws := by
  induction ws generalizing vs with
  | nil => simp
  | cons w ws ih =>
    cases vs with
    | nil => simp at h
    | cons v vs =>
      have htail : ws.length < vs.length := by simpa using h
      rw [List.length_cons, List.take_succ_cons, List.cons_lt_cons_iff, List.cons_lt_cons_iff,
        ih htail]

/-- A shorter word precedes a longer one unless the beginning of the longer precedes it. -/
theorem lt_iff_not_take_lt (h : ws.length < vs.length) :
    ws < vs ↔ ¬ vs.take ws.length < ws := by
  have hne : ws ≠ vs := by
    intro heq
    rw [heq] at h
    exact Nat.lt_irrefl _ h
  rw [← lt_iff_take_lt h, not_lt]
  exact ⟨le_of_lt, fun hle => lt_of_le_of_ne hle hne⟩

end Prefixes

/-- Renaming the letters keeps the order of words when it keeps the order of the letters. -/
theorem map_lt_map_iff {α β : Type*} [LT α] [LT β] {f : α → β} {s : α → Prop} {ws vs : List α}
    (hf : ∀ w v, s w → s v → (f w < f v ↔ w < v)) (hinj : ∀ w v, s w → s v → (f w = f v ↔ w = v))
    (hws : ∀ w ∈ ws, s w) (hvs : ∀ v ∈ vs, s v) : ws.map f < vs.map f ↔ ws < vs := by
  induction ws generalizing vs with
  | nil => cases vs <;> simp
  | cons w ws ih =>
    cases vs with
    | nil => simp
    | cons v vs =>
      have hw := hws w List.mem_cons_self
      have hv := hvs v List.mem_cons_self
      have htail := ih (fun z hz => hws z (List.mem_cons_of_mem _ hz))
        fun z hz => hvs z (List.mem_cons_of_mem _ hz)
      rw [List.map_cons, List.map_cons, List.cons_lt_cons_iff, List.cons_lt_cons_iff,
        hf w v hw hv, hinj w v hw hv, htail]

/-! ### Numerals without leading zeros -/

def numeral (b n : Nat) : List Nat := (Nat.digits b n).reverse

theorem numberOf_numeral (b n : Nat) : numberOf b (numeral b n) = n := by
  unfold numberOf numeral
  rw [List.reverse_reverse, Nat.ofDigits_digits]

theorem numeral_digit_lt (hb : 1 < b) {n d : Nat} (hd : d ∈ numeral b n) : d < b :=
  Nat.digits_lt_base hb (List.mem_reverse.mp hd)

theorem length_numeral (hb : 1 < b) {n : Nat} (hn : n ≠ 0) :
    (numeral b n).length = Nat.log b n + 1 := by
  rw [numeral, List.length_reverse, Nat.length_digits b n hb hn]

/-- The numeral with fewer digits is not above as many leading digits of the other. -/
def Leads (b m n : Nat) : Prop :=
  Nat.log b m < Nat.log b n → m ≤ n / b ^ (Nat.log b n - Nat.log b m)

instance (b m n : Nat) : Decidable (Leads b m n) := inferInstanceAs (Decidable (_ → _))

theorem leads_zero (b n : Nat) : Leads b 0 n := fun _ => Nat.zero_le _

theorem zero_leads (b n : Nat) : Leads b n 0 := fun h => by
  rw [Nat.log_zero_right] at h
  exact absurd h (Nat.not_lt_zero _)

variable {m n : Nat}

theorem lt_of_log_lt (h : Nat.log b m < Nat.log b n) : m < n := by
  apply Nat.lt_of_not_le
  intro hle
  have hlog := Nat.log_mono_right (b := b) hle
  omega

theorem take_numeral_lt_iff (hb : 1 < b) (hm : m ≠ 0) (hn : n ≠ 0)
    (h : Nat.log b m < Nat.log b n) :
    (numeral b n).take (numeral b m).length < numeral b m ↔
      n / b ^ (Nat.log b n - Nat.log b m) < m := by
  have hlengthm := length_numeral hb hm
  have hlengthn := length_numeral hb hn
  have hplace : (numeral b n).length - (numeral b m).length = Nat.log b n - Nat.log b m := by
    omega
  have hdigits : ∀ d ∈ (numeral b n).take (numeral b m).length, d < b :=
    fun d hd => numeral_digit_lt hb (List.mem_of_mem_take hd)
  rw [lt_iff_numberOf_lt hb hdigits (fun d => numeral_digit_lt hb)
    (by rw [List.length_take]; omega), numberOf_take hb fun d => numeral_digit_lt hb,
    numberOf_numeral, numberOf_numeral, hplace]

theorem numeral_lt_shorter (hb : 1 < b) (hm : m ≠ 0) (hn : n ≠ 0)
    (h : Nat.log b m < Nat.log b n) : numeral b m < numeral b n ↔ Leads b m n := by
  have hlonger : (numeral b m).length < (numeral b n).length := by
    rw [length_numeral hb hm, length_numeral hb hn]
    omega
  rw [lt_iff_not_take_lt hlonger, take_numeral_lt_iff hb hm hn h, Nat.not_lt]
  exact ⟨fun hle _ => hle, fun hleads => hleads h⟩

theorem numeral_lt_longer (hb : 1 < b) (hm : m ≠ 0) (hn : n ≠ 0)
    (h : Nat.log b n < Nat.log b m) : numeral b m < numeral b n ↔ ¬ Leads b n m := by
  have hlonger : (numeral b n).length < (numeral b m).length := by
    rw [length_numeral hb hm, length_numeral hb hn]
    omega
  rw [← numeral_lt_shorter hb hn hm h, lt_iff_take_lt hlonger, lt_iff_not_take_lt hlonger,
    not_not]

theorem numeral_lt_same (hb : 1 < b) (hm : m ≠ 0) (hn : n ≠ 0)
    (h : Nat.log b m = Nat.log b n) : numeral b m < numeral b n ↔ m < n := by
  rw [lt_iff_numberOf_lt hb (fun d => numeral_digit_lt hb) (fun d => numeral_digit_lt hb)
    (by rw [length_numeral hb hm, length_numeral hb hn, h]), numberOf_numeral, numberOf_numeral]

/-- Texts and numbers are ordered alike exactly when the shorter numeral leads. -/
theorem numeral_lt_agrees_iff (hb : 1 < b) (hm : m ≠ 0) (hn : n ≠ 0) :
    (numeral b m < numeral b n ↔ m < n) ↔ Leads b m n ∧ Leads b n m := by
  rcases Nat.lt_trichotomy (Nat.log b m) (Nat.log b n) with hlt | heq | hgt
  · have hsmaller : m < n := lt_of_log_lt hlt
    have hother : Leads b n m := fun h => absurd h (by omega)
    rw [numeral_lt_shorter hb hm hn hlt]
    simp [hsmaller, hother]
  · have hleads : Leads b m n ∧ Leads b n m :=
      ⟨fun h => absurd h (by omega), fun h => absurd h (by omega)⟩
    rw [numeral_lt_same hb hm hn heq]
    simp [hleads]
  · have hlarger : ¬ m < n := Nat.not_lt.mpr (Nat.le_of_lt (lt_of_log_lt hgt))
    have hother : Leads b m n := fun h => absurd h (by omega)
    rw [numeral_lt_longer hb hm hn hgt]
    simp [hlarger, hother]

end Numerals
