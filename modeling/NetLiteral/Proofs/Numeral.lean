import Mathlib.Algebra.Group.Nat.Defs
import Mathlib.Data.List.Induction
import NetLiteral.Numeral

/-!
# Numerals read back

A number can be read back from its decimal and from its hexadecimal numeral. Both are written by the
same division with remainder, so the statements are proved once for any base up to sixteen.
-/

namespace NetLiteral.Numeral

/-! ## Digits -/

/-- The byte of a digit. -/
def digit (d : Nat) : UInt8 :=
  d.digitChar.toUInt8

theorem digitValue_digit {d : Nat} (h : d < 16) : digitValue (digit d) = d := by
  have hall : ∀ d : Fin 16, digitValue (digit d.val) = d.val := by decide
  exact hall ⟨d, h⟩

theorem isHexDigit_digit {d : Nat} (h : d < 16) : Byte.isHexDigit (digit d) = true := by
  have hall : ∀ d : Fin 16, Byte.isHexDigit (digit d.val) = true := by decide
  exact hall ⟨d, h⟩

theorem isDigit_digit {d : Nat} (h : d < 10) : Byte.isDigit (digit d) = true := by
  have hall : ∀ d : Fin 10, Byte.isDigit (digit d.val) = true := by decide
  exact hall ⟨d, h⟩

theorem digit_ne_zero {d : Nat} (hd : d < 16) (h : d ≠ 0) : digit d ≠ 0x30 := by
  have hall : ∀ d : Fin 16, d.val ≠ 0 → digit d.val ≠ 0x30 := by decide
  exact hall ⟨d, hd⟩ h

/-- A letter in lowercase, and any other byte as it is. -/
def lowercase (b : UInt8) : UInt8 :=
  if 0x41 ≤ b && b ≤ 0x5A then b + 0x20 else b

/-- The byte of a digit's value is the digit in lowercase. -/
theorem digit_digitValue {b : UInt8} (h : Byte.isHexDigit b = true) :
    digit (digitValue b) = lowercase b := by
  have hall : ∀ b : Fin 256, Byte.isHexDigit (.ofFin b) = true →
      digit (digitValue (.ofFin b)) = lowercase (.ofFin b) := by decide +kernel
  exact hall b.toFin h

theorem exists_digit_of_isDigit {b : UInt8} (h : Byte.isDigit b = true) :
    ∃ d, d < 10 ∧ digit d = b ∧ digitValue b = d := by
  have hall : ∀ b : Fin 256, Byte.isDigit (.ofFin b) = true →
      digitValue (.ofFin b) < 10 ∧ digit (digitValue (.ofFin b)) = .ofFin b := by decide +kernel
  obtain ⟨hlt, hdigit⟩ := hall b.toFin h
  exact ⟨digitValue b, hlt, hdigit, rfl⟩

/-! ## Numerals of any base -/

/-- The shortest numeral of a number in base `base`. -/
def numeral (base n : Nat) : Bytes :=
  (Nat.toDigits base n).map Char.toUInt8

theorem hex_eq_numeral (n : Nat) : hex n = numeral 16 n :=
  rfl

section Base

variable {base n : Nat}

theorem numeral_of_lt (h : n < base) : numeral base n = [digit n] := by
  rw [numeral, Nat.toDigits_of_lt_base h]
  rfl

theorem numeral_of_le (hbase : 1 < base) (h : base ≤ n) :
    numeral base n = numeral base (n / base) ++ [digit (n % base)] := by
  rw [numeral, Nat.toDigits_of_base_le hbase h, List.map_append]
  rfl

/-- What holds of every digit of a base holds of every byte of a numeral in that base. -/
theorem forall_mem_numeral {P : UInt8 → Prop} (hbase : 1 < base)
    (hdigit : ∀ d, d < base → P (digit d)) : ∀ b ∈ numeral base n, P b := by
  induction n using Nat.strongRecOn with
  | ind n ih =>
    intro b hb
    by_cases hn : n < base
    · rw [numeral_of_lt hn, List.mem_singleton] at hb
      rw [hb]
      exact hdigit n hn
    · have hle : base ≤ n := Nat.le_of_not_lt hn
      rw [numeral_of_le hbase hle, List.mem_append, List.mem_singleton] at hb
      rcases hb with hinit | hlast
      · exact ih (n / base) (Nat.div_lt_self (by omega) hbase) b hinit
      · rw [hlast]
        exact hdigit _ (Nat.mod_lt _ (by omega))

theorem length_numeral_le {k : Nat} (hbase : 1 < base) (hk : 0 < k) (h : n < base ^ k) :
    (numeral base n).length ≤ k := by
  rw [numeral, List.length_map]
  exact (Nat.length_toDigits_le_iff hbase hk).mpr h

theorem numeral_ne_nil : numeral base n ≠ [] := by
  rw [numeral, ne_eq, List.map_eq_nil_iff]
  exact Nat.toDigits_ne_nil

theorem ofDigits_append_singleton (ds : Bytes) (b : UInt8) :
    ofDigits base (ds ++ [b]) = base * ofDigits base ds + digitValue b := by
  rw [ofDigits, List.foldl_append]
  rfl

/-- Digits below the base have a value of no more places than there are digits. -/
theorem ofDigits_lt {ds : Bytes} (h : ∀ b ∈ ds, digitValue b < base) :
    ofDigits base ds < base ^ ds.length := by
  induction ds using List.reverseRecOn with
  | nil => exact Nat.one_pos
  | append_singleton ds b ih =>
    have hinit := ih fun x hx => h x (List.mem_append_left [b] hx)
    have hlast := h b (List.mem_append_right ds List.mem_cons_self)
    rw [ofDigits_append_singleton, List.length_append, List.length_singleton, Nat.pow_succ]
    calc
      base * ofDigits base ds + digitValue b < base * ofDigits base ds + base := by omega
      _ = base * (ofDigits base ds + 1) := by rw [Nat.mul_succ]
      _ ≤ base * base ^ ds.length := Nat.mul_le_mul_left base hinit
      _ = base ^ ds.length * base := Nat.mul_comm _ _

theorem ofDigits_numeral (hbase : 1 < base) (h16 : base ≤ 16) :
    ofDigits base (numeral base n) = n := by
  induction n using Nat.strongRecOn with
  | ind n ih =>
    by_cases hn : n < base
    · rw [numeral_of_lt hn]
      have hdigit := digitValue_digit (show n < 16 by omega)
      simp [ofDigits, hdigit]
    · have hle : base ≤ n := Nat.le_of_not_lt hn
      have hmod : n % base < base := Nat.mod_lt _ (by omega)
      rw [numeral_of_le hbase hle, ofDigits_append_singleton,
        ih (n / base) (Nat.div_lt_self (by omega) hbase), digitValue_digit (by omega)]
      exact Nat.div_add_mod n base

/-- Only zero has a numeral that begins with a zero. -/
theorem head?_numeral_ne_zero (hbase : 1 < base) (h16 : base ≤ 16) (h : n ≠ 0) :
    (numeral base n).head? ≠ some 0x30 := by
  induction n using Nat.strongRecOn with
  | ind n ih =>
    by_cases hn : n < base
    · rw [numeral_of_lt hn, List.head?_singleton]
      intro heq
      exact digit_ne_zero (by omega) h (Option.some.inj heq)
    · have hle : base ≤ n := Nat.le_of_not_lt hn
      have hpos : 0 < n / base := Nat.div_pos hle (by omega)
      have hinit := ih (n / base) (Nat.div_lt_self (by omega) hbase) (by omega)
      obtain ⟨b, bs, hcons⟩ := List.exists_cons_of_ne_nil (@numeral_ne_nil base (n / base))
      rw [hcons] at hinit
      rw [numeral_of_le hbase hle, hcons]
      exact hinit

/-- Digits without leading zeros are the numeral of their value. -/
theorem numeral_ofDigits {ds : Bytes} (hbase : 1 < base) (hne : ds ≠ [])
    (hdigits : ∀ b ∈ ds, ∃ d, d < base ∧ digit d = b ∧ digitValue b = d)
    (hzero : ds.head? = some 0x30 → ds = [0x30]) : numeral base (ofDigits base ds) = ds := by
  induction ds using List.reverseRecOn with
  | nil => exact absurd rfl hne
  | append_singleton ds b ih =>
    obtain ⟨d, hd, hdigit, hvalue⟩ := hdigits b (by simp)
    rw [ofDigits_append_singleton, hvalue]
    by_cases hnil : ds = []
    · rw [hnil, ofDigits, List.foldl_nil, Nat.mul_zero, Nat.zero_add, numeral_of_lt hd, hdigit]
      rfl
    · have hhead : ds.head? ≠ some 0x30 := by
        intro hhead
        have hshort := hzero (by rw [List.head?_append, hhead, Option.some_or])
        have hlength := congrArg List.length hshort
        simp [hnil] at hlength
      have hinit := ih hnil (fun x hx => hdigits x (List.mem_append_left [b] hx))
        fun h => absurd h hhead
      have hpos : ofDigits base ds ≠ 0 := by
        intro hnone
        rw [hnone, numeral_of_lt (by omega)] at hinit
        exact hhead (by rw [← hinit]; rfl)
      have hle : base ≤ base * ofDigits base ds + d :=
        Nat.le_add_right_of_le (Nat.le_mul_of_pos_right base (by omega))
      rw [numeral_of_le hbase hle, Nat.mul_add_div (by omega), Nat.div_eq_of_lt hd, Nat.add_zero,
        hinit, Nat.mul_add_mod, Nat.mod_eq_of_lt hd, hdigit]

end Base

/-! ## Decimal numerals -/

theorem ofDecimal_decimal (n : Nat) : ofDecimal (decimal n) = n :=
  ofDigits_numeral (by decide) (by decide)

theorem isDigit_of_mem_decimal {n : Nat} : ∀ b ∈ decimal n, Byte.isDigit b = true :=
  forall_mem_numeral (by decide) fun _ => isDigit_digit

theorem decimal_ne_nil {n : Nat} : decimal n ≠ [] :=
  numeral_ne_nil

theorem head?_decimal_ne_zero {n : Nat} (h : n ≠ 0) : (decimal n).head? ≠ some 0x30 :=
  head?_numeral_ne_zero (by decide) (by decide) h

/-- Reads a number below `size`: digits, of which the first ones may be zeros, with one plus sign
allowed before them. -/
def below? (size : Nat) (bytes : Bytes) : Option Nat :=
  let digits := if bytes.head? = some 0x2B then bytes.tail else bytes
  if digits.isEmpty || !digits.all Byte.isDigit then none
  else
    let n := ofDecimal digits
    if n < size then some n else none

/-- Words are the numbers of 64 bits that are read so. -/
theorem word?_eq_below? (text : String) : word? text = below? UInt64.size (Bytes.ofString text) :=
  rfl

theorem head?_ne_plus {digits : Bytes} (h : ∀ b ∈ digits, Byte.isDigit b = true) :
    digits.head? ≠ some 0x2B := by
  intro hhead
  exact Bool.false_ne_true (h 0x2B (List.mem_of_head? hhead))

theorem below?_of_isDigit {size : Nat} {digits : Bytes} (hne : digits ≠ [])
    (h : ∀ b ∈ digits, Byte.isDigit b = true) :
    below? size digits = if ofDecimal digits < size then some (ofDecimal digits) else none := by
  have hrun : (digits.isEmpty || !digits.all Byte.isDigit) = false := by
    simpa [hne] using h
  simp only [below?, if_neg (head?_ne_plus h), hrun, Bool.false_eq_true, if_false]

/-- A run of decimal digits, of any length and with any leading zeros, and its value. -/
structure Denotes (digits : Bytes) (n : Nat) : Prop where
  ne_nil : digits ≠ []
  isDigit : ∀ b ∈ digits, Byte.isDigit b = true
  value_eq : ofDecimal digits = n

theorem denotes_decimal (n : Nat) : Denotes (decimal n) n :=
  ⟨decimal_ne_nil, isDigit_of_mem_decimal, ofDecimal_decimal n⟩

/-- What is read is the value of all digits, after a plus sign if there is one. -/
theorem below?_eq_some_iff {size n : Nat} {bytes : Bytes} : below? size bytes = some n ↔
    n < size ∧ ∃ digits, Denotes digits n ∧ (bytes = digits ∨ bytes = 0x2B :: digits) := by
  constructor
  · intro h
    rw [below?] at h
    generalize hdigits : (if bytes.head? = some 0x2B then bytes.tail else bytes) = digits at h
    have hbytes : bytes = digits ∨ bytes = 0x2B :: digits := by
      split at hdigits
      next hhead =>
        obtain ⟨rest, rfl⟩ := List.head?_eq_some_iff.mp hhead
        exact .inr (congrArg (0x2B :: ·) hdigits)
      next => exact .inl hdigits
    simp only [Option.ite_none_left_eq_some, Option.ite_none_right_eq_some, Bool.or_eq_true,
      List.isEmpty_iff, Bool.not_eq_true', not_or, Bool.not_eq_false, List.all_eq_true,
      Option.some.injEq] at h
    obtain ⟨⟨hne, hdigit⟩, hlt, rfl⟩ := h
    exact ⟨hlt, digits, ⟨hne, hdigit, rfl⟩, hbytes⟩
  · rintro ⟨hn, digits, hdigits, rfl | rfl⟩
    · rw [below?_of_isDigit hdigits.ne_nil hdigits.isDigit, hdigits.value_eq, if_pos hn]
    · have hsame : below? size (0x2B :: digits) = below? size digits := by
        simp only [below?, List.head?_cons, if_true, List.tail_cons,
          if_neg (head?_ne_plus hdigits.isDigit)]
      rw [hsame, below?_of_isDigit hdigits.ne_nil hdigits.isDigit, hdigits.value_eq, if_pos hn]

/-! ## Accumulation in 32 bits -/

/-- A number as one of 32 bits, if it fits. -/
def fit32? (n : Nat) : Option UInt32 :=
  if n < UInt32.size then some (UInt32.ofNat n) else none

theorem fit32?_eq_some_iff {n : Nat} {m : UInt32} : fit32? n = some m ↔ n = m.toNat := by
  rw [fit32?]
  constructor
  · intro h
    split at h
    next hlt => rw [← Option.some.inj h, UInt32.toNat_ofNat_of_lt' hlt]
    next => cases h
  · rintro rfl
    rw [if_pos m.toNat_lt, UInt32.ofNat_toNat]

theorem fit32?_eq_none_iff {n : Nat} : fit32? n = none ↔ UInt32.size ≤ n := by
  simp [fit32?]

theorem push32?_eq (n : UInt32) (b : UInt8) : push32? n b = fit32? (10 * n.toNat + digitValue b) :=
  rfl

/-- Digits after an accumulator only make the number greater. -/
theorem le_foldl_digits (ds : Bytes) (n : Nat) :
    n ≤ ds.foldl (fun n b => 10 * n + digitValue b) n := by
  induction ds generalizing n with
  | nil => exact Nat.le_refl n
  | cons b ds ih =>
    rw [List.foldl_cons]
    have hnext := ih (10 * n + digitValue b)
    omega

theorem foldlM_push32? (ds : Bytes) (n : UInt32) :
    ds.foldlM push32? n = fit32? (ds.foldl (fun n b => 10 * n + digitValue b) n.toNat) := by
  induction ds generalizing n with
  | nil => exact (fit32?_eq_some_iff.mpr rfl).symm
  | cons b ds ih =>
    rw [List.foldlM_cons, List.foldl_cons, push32?_eq]
    cases hm : fit32? (10 * n.toNat + digitValue b) with
    | some m => rw [Option.bind_eq_bind, Option.bind_some, ih, fit32?_eq_some_iff.mp hm]
    | none =>
      -- An accumulator that overflowed is already too great, whatever digits follow.
      have hgrow := le_foldl_digits ds (10 * n.toNat + digitValue b)
      have hsize := Nat.le_trans (fit32?_eq_none_iff.mp hm) hgrow
      rw [fit32?_eq_none_iff.mpr hsize]
      rfl

/-- Digits are accumulated without overflow exactly if their value fits in 32 bits. -/
theorem decimal32?_eq (ds : Bytes) : decimal32? ds = fit32? (ofDecimal ds) :=
  foldlM_push32? ds 0

theorem decimal32?_eq_some_iff {ds : Bytes} {n : UInt32} :
    decimal32? ds = some n ↔ ofDecimal ds = n.toNat := by
  rw [decimal32?_eq, fit32?_eq_some_iff]

/-! ## Hexadecimal numerals -/

theorem ofHex_hex (n : Nat) : ofHex (hex n) = n :=
  ofDigits_numeral (by decide) (by decide)

theorem digitValue_lt_of_isHexDigit {b : UInt8} (h : Byte.isHexDigit b = true) :
    digitValue b < 16 := by
  simp only [Byte.isHexDigit, Byte.isDigit, Bool.or_eq_true, Bool.and_eq_true, decide_eq_true_eq,
    UInt8.le_iff_toNat_le, UInt8.reduceToNat] at h
  simp only [digitValue, Byte.isDigit, Bool.and_eq_true, decide_eq_true_eq, UInt8.le_iff_toNat_le,
    UInt8.lt_iff_toNat_lt, UInt8.reduceToNat]
  split
  · omega
  · split <;> omega

theorem ofHex_lt {ds : Bytes} (h : ∀ b ∈ ds, Byte.isHexDigit b = true) :
    ofHex ds < 16 ^ ds.length :=
  ofDigits_lt fun b hb => digitValue_lt_of_isHexDigit (h b hb)

theorem isHexDigit_of_mem_hex {n : Nat} : ∀ b ∈ hex n, Byte.isHexDigit b = true :=
  forall_mem_numeral (by decide) fun _ => isHexDigit_digit

end NetLiteral.Numeral
