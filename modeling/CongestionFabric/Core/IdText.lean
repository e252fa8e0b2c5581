import CongestionFabric.Core.StrongId
import CongestionFabric.Core.Words
import CongestionFabric.Lib.Numerals

namespace CongestionFabric

/-! ### Parsing identity text -/

namespace detail

def hexDigitValue (c : Char) : Option UInt32 :=
  if '0' ≤ c ∧ c ≤ '9' then some (c.val - '0'.val)
  else if 'a' ≤ c ∧ c ≤ 'f' then some (c.val - 'a'.val + 10)
  else if 'A' ≤ c ∧ c ≤ 'F' then some (c.val - 'A'.val + 10)
  else none

end detail

/-- The text without a leading tag of the space. -/
def removeTag (name view : List Char) : List Char :=
  if view.length > name.length + 1 ∧ view.take name.length = name ∧
      view[name.length]? = some ':' then
    view.drop (name.length + 1)
  else view

def remove0x (view : List Char) : List Char :=
  if view.length > 2 ∧ view[0]? = some '0' ∧ (view[1]? = some 'x' ∨ view[1]? = some 'X') then
    view.drop 2
  else view

def pushDigit (value : UInt64) (c : Char) : Option UInt64 := do
  let digit ← detail.hexDigitValue c
  return (value <<< 4) ||| digit.toUInt64

def readHex (view : List Char) : Option UInt64 := view.foldlM pushDigit 0

/-- No character outside ASCII is a digit, so counting characters refuses what counting bytes
does. -/
def parseId (tag : IdTag) (text : String) : Option (StrongId tag) := do
  let view := remove0x (removeTag tag.name.toList text.toList)
  if view = [] ∨ view.length > 16 then none
  else
    let value ← readHex view
    if value > limits.kMaxU64 then none else return StrongId.fromValue value

/-! ### Digits -/

theorem hexDigitValue_hexDigit {n : Nat} (h : n < 16) :
    detail.hexDigitValue (hexDigit n) = some (UInt32.ofNat n) := by
  have hall : ∀ d : Fin 16, detail.hexDigitValue (hexDigit d) = some (UInt32.ofNat d) := by decide
  exact hall ⟨n, h⟩

theorem hexDigit_lt_iff {m n : Nat} (hm : m < 16) (hn : n < 16) :
    hexDigit m < hexDigit n ↔ m < n := by
  have hall : ∀ d e : Fin 16, hexDigit d < hexDigit e ↔ d.val < e.val := by decide
  exact hall ⟨m, hm⟩ ⟨n, hn⟩

theorem hexDigit_inj {m n : Nat} (hm : m < 16) (hn : n < 16) :
    hexDigit m = hexDigit n ↔ m = n := by
  have hall : ∀ d e : Fin 16, hexDigit d = hexDigit e ↔ d.val = e.val := by decide
  exact hall ⟨m, hm⟩ ⟨n, hn⟩

/-- The rendered digits are the numeral in base sixteen. -/
theorem hexDigits_eq_numeral (fuel : Nat) {n : Nat} (h : n < 16 ^ fuel) :
    hexDigits fuel n = (Numerals.numeral 16 n).map hexDigit := by
  induction fuel generalizing n with
  | zero =>
    have hzero : n = 0 := by omega
    subst hzero
    rfl
  | succ fuel ih =>
    unfold hexDigits
    by_cases hzero : n = 0
    · subst hzero
      rfl
    · have hrest : n / 16 < 16 ^ fuel := by
        rw [Nat.pow_succ] at h
        omega
      rw [if_neg hzero, ih hrest]
      unfold Numerals.numeral
      rw [Nat.digits_def' (show 1 < 16 by omega) (Nat.pos_of_ne_zero hzero), List.reverse_cons,
        List.map_append, List.map_singleton]

theorem toHex_toList {value : UInt64} (h : value ≠ 0) :
    (toHex value).toList = (Numerals.numeral 16 value.toNat).map hexDigit := by
  have hvalue := value.toNat_lt
  unfold toHex
  rw [if_neg h, String.toList_ofList, hexDigits_eq_numeral 16 (by omega)]

theorem toNat_ne_zero {value : UInt64} (h : value ≠ 0) : value.toNat ≠ 0 :=
  fun hzero => h (UInt64.toNat_inj.mp hzero)

/-! ### Round trip -/

/-- Shifting in a digit multiplies by sixteen and adds it. -/
theorem shift_digit {n d : Nat} (hn : n < 2 ^ 60) (hd : d < 16) :
    (UInt64.ofNat n <<< 4) ||| (UInt32.ofNat d).toUInt64 = UInt64.ofNat (n * 16 + d) := by
  apply UInt64.toNat_inj.mp
  have hor := Nat.shiftLeft_add_eq_or_of_lt (show d < 2 ^ 4 by omega) n
  have hshift : n <<< 4 = n * 16 := Nat.shiftLeft_eq n 4
  have hword : (UInt64.ofNat n).toNat = n := by
    rw [UInt64.toNat_ofNat', Nat.mod_eq_of_lt (by omega)]
  have hdigit : (UInt32.ofNat d).toNat = d := by
    rw [UInt32.toNat_ofNat', Nat.mod_eq_of_lt (by omega)]
  have hsum : (UInt64.ofNat (n * 16 + d)).toNat = n * 16 + d := by
    rw [UInt64.toNat_ofNat', Nat.mod_eq_of_lt (by omega)]
  have hwhole : (UInt64.ofNat n <<< 4).toNat = n * 16 := by
    rw [UInt64.toNat_shiftLeft, hword]
    show n <<< 4 % 2 ^ 64 = n * 16
    omega
  rw [UInt64.toNat_or, hwhole, UInt32.toNat_toUInt64, hdigit, hsum, ← hshift, hor]

theorem pushDigit_hexDigit {n d : Nat} (hn : n < 2 ^ 60) (hd : d < 16) :
    pushDigit (UInt64.ofNat n) (hexDigit d) = some (UInt64.ofNat (n * 16 + d)) := by
  unfold pushDigit
  rw [hexDigitValue_hexDigit hd, Option.bind_eq_bind, Option.bind_some, shift_digit hn hd]
  rfl

theorem readHex_append (view : List Char) (c : Char) :
    readHex (view ++ [c]) = (readHex view).bind fun value => pushDigit value c := by
  unfold readHex
  rw [List.foldlM_append]
  simp

theorem readHex_hexDigits (fuel : Nat) {n : Nat} (h : n < 16 ^ fuel) (hword : n < 2 ^ 64) :
    readHex (hexDigits fuel n) = some (UInt64.ofNat n) := by
  induction fuel generalizing n with
  | zero =>
    have hzero : n = 0 := by omega
    subst hzero
    rfl
  | succ fuel ih =>
    unfold hexDigits
    by_cases hzero : n = 0
    · subst hzero
      rfl
    · have hrest : n / 16 < 16 ^ fuel := by
        rw [Nat.pow_succ] at h
        omega
      have hdigit := Nat.mod_lt n (show 0 < 16 by omega)
      have hsplit : n / 16 * 16 + n % 16 = n := Nat.div_add_mod' n 16
      rw [if_neg hzero, readHex_append, ih hrest (by omega), Option.bind_some,
        pushDigit_hexDigit (by omega) hdigit, hsplit]

theorem length_hexDigits (fuel n : Nat) : (hexDigits fuel n).length ≤ fuel := by
  induction fuel generalizing n with
  | zero => exact Nat.le_refl 0
  | succ fuel ih =>
    have hrest := ih (n / 16)
    unfold hexDigits
    split
    · exact Nat.zero_le _
    · rw [List.length_append, List.length_singleton]
      omega

theorem hexDigits_ne_nil (fuel : Nat) {n : Nat} (h : n ≠ 0) : hexDigits (fuel + 1) n ≠ [] := by
  unfold hexDigits
  rw [if_neg h]
  exact List.append_ne_nil_of_right_ne_nil _ (List.cons_ne_nil _ _)

/-- What a rendered value looks like to the parser. -/
structure Rendered (view : List Char) (value : UInt64) : Prop where
  nonempty : view ≠ []
  short : view.length ≤ 16
  read : readHex view = some value

theorem toHex_rendered (value : UInt64) : Rendered (toHex value).toList value := by
  unfold toHex
  by_cases hzero : value = 0
  · subst hzero
    exact ⟨by decide, by decide, by decide⟩
  · have hvalue := value.toNat_lt
    rw [if_neg hzero, String.toList_ofList]
    constructor
    · exact hexDigits_ne_nil 15 (toNat_ne_zero hzero)
    · exact length_hexDigits 16 value.toNat
    · rw [readHex_hexDigits 16 (by omega) hvalue, UInt64.ofNat_toNat]

theorem removeTag_tagged (name : List Char) {view : List Char} (h : view ≠ []) :
    removeTag name (name ++ ':' :: view) = view := by
  have hlength := List.length_pos_of_ne_nil h
  have hcond : (name ++ ':' :: view).length > name.length + 1 ∧
      (name ++ ':' :: view).take name.length = name ∧
      (name ++ ':' :: view)[name.length]? = some ':' := by
    refine ⟨?_, List.take_left, ?_⟩
    · rw [List.length_append, List.length_cons]
      omega
    · rw [List.getElem?_append_right (Nat.le_refl _), Nat.sub_self]
      rfl
  unfold removeTag
  rw [if_pos hcond, List.drop_append, List.drop_of_length_le (by omega),
    show name.length + 1 - name.length = 1 by omega]
  rfl

theorem pushDigit_marker (value : UInt64) {c : Char} (h : c = 'x' ∨ c = 'X') :
    pushDigit value c = none := by
  have hnone : detail.hexDigitValue c = none := by
    rcases h with rfl | rfl
    · decide
    · decide
  unfold pushDigit
  rw [hnone]
  rfl

/-- Text that reads as digits has no marker to remove. -/
theorem remove0x_of_read {view : List Char} {value : UInt64} (h : readHex view = some value) :
    remove0x view = view := by
  unfold remove0x
  split_ifs with hmarked
  · exfalso
    obtain ⟨hlength, hfirst, hsecond⟩ := hmarked
    match view, hlength, hfirst, hsecond with
    | zero :: mark :: rest, _, hfirst, hsecond =>
      have hzero : zero = '0' := Option.some.inj hfirst
      have hmark : mark = 'x' ∨ mark = 'X' := hsecond.imp Option.some.inj Option.some.inj
      have hpush : pushDigit 0 '0' = some 0 := by decide
      subst hzero
      unfold readHex at h
      rw [List.foldlM_cons, hpush, Option.bind_eq_bind, Option.bind_some, List.foldlM_cons,
        pushDigit_marker 0 hmark] at h
      cases h
  · rfl

/-- Parsing the text of an identity returns the identity. -/
theorem parseId_toText {tag : IdTag} (id : StrongId tag) : parseId tag id.toText = some id := by
  obtain ⟨hnonempty, hshort, hread⟩ := toHex_rendered id.value
  have htext : id.toText.toList = tag.name.toList ++ ':' :: (toHex id.value).toList := by
    unfold StrongId.toText
    rw [String.toList_append, String.toList_append, List.append_assoc]
    rfl
  have hrefused : ¬ ((toHex id.value).toList = [] ∨ (toHex id.value).toList.length > 16) :=
    not_or.mpr ⟨hnonempty, Nat.not_lt.mpr hshort⟩
  have hfits : ¬ id.value > limits.kMaxU64 := UInt64.not_lt.mpr (le_kMaxU64 _)
  unfold parseId
  rw [htext, removeTag_tagged _ hnonempty, remove0x_of_read hread]
  dsimp only
  rw [if_neg hrefused, hread, Option.bind_eq_bind, Option.bind_some, if_neg hfits]
  rfl

/-! ### Order -/

/-- Two values of one number of digits are aligned, and so are two of which the one with fewer
digits is not above as many leading digits of the other. -/
def Aligned (a b : UInt64) : Prop :=
  Numerals.Leads 16 a.toNat b.toNat ∧ Numerals.Leads 16 b.toNat a.toNat

instance (a b : UInt64) : Decidable (Aligned a b) := inferInstanceAs (Decidable (_ ∧ _))

theorem toHex_lt_iff {a b : UInt64} (ha : a ≠ 0) (hb : b ≠ 0) :
    toHex a < toHex b ↔ Numerals.numeral 16 a.toNat < Numerals.numeral 16 b.toNat := by
  rw [String.lt_iff, toHex_toList ha, toHex_toList hb]
  have hdigit : ∀ {n d : Nat}, d ∈ Numerals.numeral 16 n → d < 16 :=
    Numerals.numeral_digit_lt (by omega)
  exact Numerals.map_lt_map_iff (fun _ _ => hexDigit_lt_iff) (fun _ _ => hexDigit_inj)
    (fun _ => hdigit) fun _ => hdigit

theorem aligned_of_zero {a b : UInt64} (h : a = 0 ∨ b = 0) : Aligned a b := by
  rcases h with rfl | rfl
  · exact ⟨Numerals.leads_zero _ _, Numerals.zero_leads _ _⟩
  · exact ⟨Numerals.zero_leads _ _, Numerals.leads_zero _ _⟩

/-- What the text of two identities of one space promises. -/
structure FaithfulText (tag : IdTag) (a b : UInt64) : Prop where
  first : parseId tag (StrongId.toText (⟨a⟩ : StrongId tag)) = some ⟨a⟩
  second : parseId tag (StrongId.toText (⟨b⟩ : StrongId tag)) = some ⟨b⟩
  ordered : a ≠ 0 → b ≠ 0 → (toHex a < toHex b ↔ a < b)

/-- The round trip always holds; lexical and numeric order agree exactly on aligned values. -/
theorem faithful_text_iff (tag : IdTag) (a b : UInt64) : FaithfulText tag a b ↔ Aligned a b := by
  constructor
  · intro h
    by_cases hzero : a = 0 ∨ b = 0
    · exact aligned_of_zero hzero
    · obtain ⟨ha, hb⟩ := not_or.mp hzero
      apply (Numerals.numeral_lt_agrees_iff (by omega) (toNat_ne_zero ha) (toNat_ne_zero hb)).mp
      rw [← toHex_lt_iff ha hb, ← UInt64.lt_iff_toNat_lt]
      exact h.ordered ha hb
  · intro h
    constructor
    · exact parseId_toText _
    · exact parseId_toText _
    · intro ha hb
      rw [toHex_lt_iff ha hb, UInt64.lt_iff_toNat_lt]
      exact (Numerals.numeral_lt_agrees_iff (by omega) (toNat_ne_zero ha)
        (toNat_ne_zero hb)).mpr h

/-- Sixteen is above two and renders as text that precedes it. -/
theorem sixteen_precedes_two :
    ¬ ∀ (tag : IdTag) (a b : UInt64), FaithfulText tag a b := by
  intro h
  have hordered := (h .resource 2 16).ordered (by decide) (by decide)
  have hnumeric : (2 : UInt64) < 16 := by decide
  have hlexical : ¬ toHex 2 < toHex 16 := by decide
  exact hlexical (hordered.mpr hnumeric)

end CongestionFabric
