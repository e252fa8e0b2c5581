import Mathlib.Tactic.Common
import Mathlib.Data.List.Basic
import Mathlib.Data.List.Infix

/-- What the front of an unread byte string holds: a whole record and the bytes after it, too few
bytes for one, or bytes that are none. -/
inductive Head (ρ ε : Type) where
  | record (r : ρ) (rest : List UInt8)
  | short (why : ε)
  | bad (why : ε)

/-- Why a scan stopped. -/
inductive ScanStop (ε : Type) where
  | done
  | short (why : ε)
  | bad (why : ε)

/-- The records a scan read, the bytes it did not, and why it stopped. -/
structure Scan (ρ ε : Type) where
  records : List ρ
  tail : List UInt8
  stop : ScanStop ε

namespace Scan

variable {ρ ε : Type}

/-- Read records off the front until the bytes are used up or none is found. -/
def go (head : List UInt8 → Head ρ ε) : Nat → List UInt8 → Scan ρ ε
  | 0, data => ⟨[], data, .done⟩
  | fuel + 1, data =>
    if data = [] then ⟨[], [], .done⟩
    else match head data with
      | .record r rest =>
        let s := go head fuel rest
        { s with records := r :: s.records }
      | .short why => ⟨[], data, .short why⟩
      | .bad why => ⟨[], data, .bad why⟩

/-- Every record takes at least one byte, so the length of the data is fuel enough. -/
def run (head : List UInt8 → Head ρ ε) (data : List UInt8) : Scan ρ ε := go head data.length data

end Scan

/-- How records lie in a log: a record is read back in front of anything, and a proper part of one
is found too short. -/
structure Framing {ρ ε : Type} (head : List UInt8 → Head ρ ε) (encode : ρ → List UInt8)
    (ok : ρ → Prop) : Prop where
  shrinks : ∀ data r rest, head data = .record r rest → rest.length < data.length
  nonempty : ∀ r, encode r ≠ []
  whole : ∀ r rest, ok r → head (encode r ++ rest) = .record r rest
  torn : ∀ r part, ok r → part <+: encode r → part ≠ encode r → part ≠ [] →
    ∃ why, head part = .short why

/-- A framing whose reader finds a record only where the record's own bytes stand. -/
structure Exact {ρ ε : Type} (head : List UInt8 → Head ρ ε) (encode : ρ → List UInt8)
    (ok : ρ → Prop) : Prop extends Framing head encode ok where
  found : ∀ data r rest, head data = .record r rest → ok r ∧ data = encode r ++ rest

/-- The bytes of a list of records. -/
def logOf {ρ : Type} (encode : ρ → List UInt8) (records : List ρ) : List UInt8 :=
  records.flatMap encode

@[simp] theorem logOf_nil {ρ : Type} (encode : ρ → List UInt8) : logOf encode [] = [] := rfl

@[simp] theorem logOf_cons {ρ : Type} (encode : ρ → List UInt8) (r : ρ) (rs : List ρ) :
    logOf encode (r :: rs) = encode r ++ logOf encode rs := List.flatMap_cons

@[simp] theorem logOf_append {ρ : Type} (encode : ρ → List UInt8) (rs rs' : List ρ) :
    logOf encode (rs ++ rs') = logOf encode rs ++ logOf encode rs' := List.flatMap_append

theorem length_le_logOf {ρ : Type} {encode : ρ → List UInt8} (hne : ∀ r, encode r ≠ [])
    (records : List ρ) : records.length ≤ (logOf encode records).length := by
  induction records with
  | nil => exact le_refl 0
  | cons r rs ih =>
    have hpos := List.length_pos_iff.mpr (hne r)
    rw [logOf_cons, List.length_append, List.length_cons]
    omega

/-- What is left of a record that was not written whole: nothing, or a proper part of it. -/
def TornTail {ρ : Type} (encode : ρ → List UInt8) (ok : ρ → Prop) (part : List UInt8) : Prop :=
  part = [] ∨ ∃ r, ok r ∧ part <+: encode r ∧ part ≠ encode r

/-- How many whole records the first `n` bytes of a log hold. -/
def wholeRecords {ρ : Type} (encode : ρ → List UInt8) : List ρ → Nat → Nat
  | [], _ => 0
  | r :: rs, n =>
    if (encode r).length ≤ n then wholeRecords encode rs (n - (encode r).length) + 1 else 0

theorem wholeRecords_le {ρ : Type} (encode : ρ → List UInt8) (records : List ρ) (n : Nat) :
    wholeRecords encode records n ≤ records.length := by
  induction records generalizing n with
  | nil => exact le_refl 0
  | cons r rs ih =>
    unfold wholeRecords
    split
    · simpa using ih (n - (encode r).length)
    · exact Nat.zero_le _

/-- The whole records are those that end within the first `n` bytes. -/
theorem le_wholeRecords {ρ : Type} {encode : ρ → List UInt8} {records : List ρ} {k n : Nat}
    (hk : k ≤ records.length) :
    k ≤ wholeRecords encode records n ↔ (logOf encode (records.take k)).length ≤ n := by
  induction records generalizing k n with
  | nil =>
    have hz : k = 0 := Nat.le_zero.mp hk
    simp [hz]
  | cons r rs ih =>
    cases k with
    | zero => simp
    | succ k =>
      have hk : k ≤ rs.length := Nat.le_of_succ_le_succ hk
      unfold wholeRecords
      rw [List.take_succ_cons, logOf_cons, List.length_append]
      split
      next hle =>
        rw [Nat.succ_le_succ_iff, ih hk]
        omega
      next hlt =>
        constructor
        · intro habsurd
          omega
        · intro hfits
          omega

/-- A prefix of a log is the log of its whole records and what is left of the next one. -/
theorem logOf_take {ρ : Type} {encode : ρ → List UInt8} {ok : ρ → Prop} {records : List ρ}
    (hok : ∀ r ∈ records, ok r) (n : Nat) :
    ∃ part, (logOf encode records).take n =
        logOf encode (records.take (wholeRecords encode records n)) ++ part ∧
      TornTail encode ok part := by
  induction records generalizing n with
  | nil => exact ⟨[], by simp, .inl rfl⟩
  | cons r rs ih =>
    unfold wholeRecords
    split
    next hle =>
      obtain ⟨part, heq, ht⟩ := ih (fun r' hr => hok r' (List.mem_cons_of_mem _ hr))
        (n - (encode r).length)
      refine ⟨part, ?_, ht⟩
      rw [logOf_cons, List.take_append, List.take_of_length_le hle, heq]
      simp
    next hlt =>
      have hshort : (encode r).take n ≠ encode r := fun h => by
        have hlen := congrArg List.length h
        rw [List.length_take] at hlen
        omega
      refine ⟨(encode r).take n, ?_, .inr ⟨r, hok r List.mem_cons_self, List.take_prefix _ _,
        hshort⟩⟩
      rw [logOf_cons, List.take_append_of_le_length (by omega)]
      simp

namespace Scan

variable {ρ ε : Type} {head : List UInt8 → Head ρ ε} {encode : ρ → List UInt8} {ok : ρ → Prop}

theorem go_fuel (hshrink : ∀ data r rest, head data = .record r rest → rest.length < data.length)
    {fuel fuel' : Nat} {data : List UInt8} (h : data.length ≤ fuel) (h' : data.length ≤ fuel') :
    go head fuel data = go head fuel' data := by
  induction fuel generalizing fuel' data with
  | zero =>
    have hz : data = [] := List.length_eq_zero_iff.mp (Nat.le_zero.mp h)
    subst hz
    cases fuel' <;> simp [go]
  | succ fuel ih =>
    cases fuel' with
    | zero =>
      have hz : data = [] := List.length_eq_zero_iff.mp (Nat.le_zero.mp h')
      simp [go, hz]
    | succ fuel' =>
      unfold go
      split
      next => rfl
      next =>
        split
        next r rest hd =>
          have hlt := hshrink data r rest hd
          rw [ih (by omega) (by omega : rest.length ≤ fuel')]
        next => rfl
        next => rfl

@[simp] theorem run_nil : run head [] = ⟨[], [], .done⟩ := rfl

theorem run_record (hf : Framing head encode ok) {data rest : List UInt8} {r : ρ}
    (hd : head data = .record r rest) (hne : data ≠ []) :
    run head data = { run head rest with records := r :: (run head rest).records } := by
  have hlt := hf.shrinks data r rest hd
  obtain ⟨n, hn⟩ : ∃ n, data.length = n + 1 := ⟨data.length - 1, by omega⟩
  unfold run
  rw [hn, go, if_neg hne, hd]
  dsimp only
  rw [go_fuel hf.shrinks (by omega) (le_refl rest.length)]

theorem run_short {data : List UInt8} {why : ε} (hd : head data = .short why) (hne : data ≠ []) :
    run head data = ⟨[], data, .short why⟩ := by
  obtain ⟨n, hn⟩ : ∃ n, data.length = n + 1 :=
    ⟨data.length - 1, by have := List.length_pos_iff.mpr hne; omega⟩
  unfold run
  rw [hn, go, if_neg hne, hd]

/-- A scan reads the records a log begins with. -/
theorem run_logOf_append (hf : Framing head encode ok) {records : List ρ} (rest : List UInt8)
    (hok : ∀ r ∈ records, ok r) :
    run head (logOf encode records ++ rest) =
      { run head rest with records := records ++ (run head rest).records } := by
  induction records with
  | nil => simp
  | cons r rs ih =>
    have hd : head (encode r ++ (logOf encode rs ++ rest)) = .record r (logOf encode rs ++ rest) :=
      hf.whole r _ (hok r List.mem_cons_self)
    have hne : encode r ++ (logOf encode rs ++ rest) ≠ [] := by simp [hf.nonempty r]
    rw [logOf_cons, List.append_assoc, run_record hf hd hne,
      ih fun r' hr => hok r' (List.mem_cons_of_mem _ hr)]
    simp

theorem run_logOf (hf : Framing head encode ok) {records : List ρ} (hok : ∀ r ∈ records, ok r) :
    run head (logOf encode records) = ⟨records, [], .done⟩ := by
  have h := run_logOf_append hf [] hok
  simpa using h

theorem run_torn (hf : Framing head encode ok) {part : List UInt8}
    (h : TornTail encode ok part) (hne : part ≠ []) :
    ∃ why, run head part = ⟨[], part, .short why⟩ := by
  rcases h with h | ⟨r, hok, hp, hn⟩
  · exact absurd h hne
  · obtain ⟨why, hw⟩ := hf.torn r part hok hp hn hne
    exact ⟨why, run_short hw hne⟩

/-- A scan of a log with a torn tail reads every whole record and stops at the tear. -/
theorem run_logOf_torn (hf : Framing head encode ok) {records : List ρ} {part : List UInt8}
    (hok : ∀ r ∈ records, ok r) (h : TornTail encode ok part) (hne : part ≠ []) :
    ∃ why, run head (logOf encode records ++ part) = ⟨records, part, .short why⟩ := by
  obtain ⟨why, hw⟩ := run_torn hf h hne
  refine ⟨why, ?_⟩
  rw [run_logOf_append hf _ hok, hw]
  simp

theorem run_bad {data : List UInt8} {why : ε} (hd : head data = .bad why) (hne : data ≠ []) :
    run head data = ⟨[], data, .bad why⟩ := by
  obtain ⟨n, hn⟩ : ∃ n, data.length = n + 1 :=
    ⟨data.length - 1, by have := List.length_pos_iff.mpr hne; omega⟩
  unfold run
  rw [hn, go, if_neg hne, hd]

/-- Whatever the bytes are, a scan takes them apart into the records it read and the tail it did not;
it ends with a reason where it could not read on. -/
theorem run_found (hf : Exact head encode ok) (data : List UInt8) :
    (∀ r ∈ (run head data).records, ok r) ∧
      data = logOf encode (run head data).records ++ (run head data).tail ∧
      ((run head data).tail = [] ∧ (run head data).stop = .done ∨
        (run head data).tail ≠ [] ∧
          ((∃ why, head (run head data).tail = .short why ∧ (run head data).stop = .short why) ∨
            ∃ why, head (run head data).tail = .bad why ∧ (run head data).stop = .bad why)) := by
  induction hn : data.length using Nat.strong_induction_on generalizing data with
  | _ n ih =>
    subst hn
    by_cases hne : data = []
    · subst hne
      simp
    · cases hd : head data with
      | record r rest =>
        obtain ⟨hok, hdata⟩ := hf.found data r rest hd
        obtain ⟨hrest, hbytes, hstop⟩ := ih rest.length (hf.shrinks data r rest hd) rest rfl
        rw [run_record hf.toFraming hd hne]
        refine ⟨fun r' hr' => ?_, ?_, hstop⟩
        · rcases List.mem_cons.mp hr' with rfl | hr'
          · exact hok
          · exact hrest r' hr'
        · rw [logOf_cons, List.append_assoc, ← hbytes]
          exact hdata
      | short why =>
        rw [run_short hd hne]
        exact ⟨by simp, by simp, .inr ⟨hne, .inl ⟨why, hd, rfl⟩⟩⟩
      | bad why =>
        rw [run_bad hd hne]
        exact ⟨by simp, by simp, .inr ⟨hne, .inr ⟨why, hd, rfl⟩⟩⟩

/-- The records a scan read are all that another scan of their bytes finds. -/
theorem run_again (hf : Exact head encode ok) (data : List UInt8) :
    run head (logOf encode (run head data).records) = ⟨(run head data).records, [], .done⟩ :=
  run_logOf hf.toFraming (run_found hf data).1

end Scan
