/-
VirtualPC/Proofs/Text/Grammar.lean

The grammar of numerals, apart from the way they are read.

    IsDigit base c d      the character `c` is the digit `d`
    Digits base text n    `text` is one digit or more, and `n` is their value
    Signed base text n    the same, after a plus sign or without
    Numeral text n        decimal, or hexadecimal after `0x` or `0X`

A digit string grows at its end, as its value does: one digit more multiplies by the base and
adds the digit.  Reading goes the other way and gives up at the first digit that leads to
`2 ^ 64` or beyond.  Since a value never falls while digits are read, that happens exactly if
the value of the whole string is too large (`readDigits_of_digits`).

Main results: a text is read as a number exactly if it is a numeral of that number and the number
is below `2 ^ 64` (`readNumeral_eq_ok_iff`); a numeral of any other number is refused as too
large (`readNumeral_of_numeral`).
-/
import Mathlib
import VirtualPC.Proofs.Text.Digits
import VirtualPC.Text.Numeral

namespace VirtualPC.Text

variable {base value n m d : Nat} {c : Char} {text rest digits : List Char}

/-! ### Digits -/

/-- The character is the digit `d` of the base, a letter in either case. -/
def IsDigit (base : Nat) (c : Char) (d : Nat) : Prop :=
  d < base ∧ (c = d.digitChar ∨ c = d.digitChar.toUpper)

theorem IsDigit.mono (h : IsDigit base c d) (hbase : base ≤ m) : IsDigit m c d :=
  ⟨Nat.lt_of_lt_of_le h.1 hbase, h.2⟩

/-- The digits of a smaller base are among those of base sixteen. -/
theorem digitValue?_eq_some_iff_sixteen (hbase : base ≤ 16) :
    digitValue? base c = some d ↔ d < base ∧ digitValue? 16 c = some d := by
  simp only [digitValue?, Option.filter_eq_some_iff, decide_eq_true_eq]
  constructor
  · rintro ⟨hvalue, hlt⟩
    exact ⟨hlt, hvalue, Nat.lt_of_lt_of_le hlt hbase⟩
  · rintro ⟨hlt, hvalue, -⟩
    exact ⟨hvalue, hlt⟩

theorem digitValue?_digitChar (hd : d < 16) :
    digitValue? 16 d.digitChar = some d ∧ digitValue? 16 d.digitChar.toUpper = some d := by
  have hall : ∀ d : Fin 16, digitValue? 16 (d : Nat).digitChar = some (d : Nat) ∧
      digitValue? 16 (d : Nat).digitChar.toUpper = some (d : Nat) := by decide
  exact hall ⟨d, hd⟩

/-- The digits of base sixteen are among `0` to `9`, `A` to `F` and `a` to `f`. -/
theorem code_of_digitValue? (h : digitValue? 16 c = some d) :
    48 ≤ c.toNat ∧ c.toNat ≤ 57 ∨ 65 ≤ c.toNat ∧ c.toNat ≤ 70 ∨ 97 ≤ c.toNat ∧ c.toNat ≤ 102 := by
  have hle (a b : Char) : a ≤ b ↔ a.toNat ≤ b.toNat := UInt32.le_iff_toNat_le
  obtain ⟨hvalue, -⟩ := Option.filter_eq_some_iff.1 h
  simp only [hle] at hvalue
  split at hvalue
  next hdecimal => exact .inl hdecimal
  split at hvalue
  next hlower => exact .inr (.inr hlower)
  split at hvalue
  next hupper => exact .inr (.inl hupper)
  cases hvalue

/-- A fact about the characters up to a code is checked code by code. -/
theorem of_codes {P : Char → Prop} {bound : Nat} (h : ∀ code < bound, P (Char.ofNat code))
    (hcode : c.toNat < bound) : P c := by
  have hchecked := h c.toNat hcode
  rwa [Char.ofNat_toNat] at hchecked

theorem isDigit_of_digitValue? (h : digitValue? 16 c = some d) : IsDigit 16 c d := by
  have hcode : c.toNat < 103 := by
    have hranges := code_of_digitValue? h
    omega
  have hd : d < 16 := of_decide_eq_true (Option.filter_eq_some_iff.1 h).2
  exact ⟨hd, of_codes (P := fun c => ∀ d < 16, digitValue? 16 c = some d →
    c = d.digitChar ∨ c = d.digitChar.toUpper) (by decide) hcode d hd h⟩

theorem digitValue?_eq_some_iff (hbase : base ≤ 16) :
    digitValue? base c = some d ↔ IsDigit base c d := by
  rw [digitValue?_eq_some_iff_sixteen hbase]
  constructor
  · rintro ⟨hlt, hvalue⟩
    exact ⟨hlt, (isDigit_of_digitValue? hvalue).2⟩
  · rintro ⟨hlt, rfl | rfl⟩
    · exact ⟨hlt, (digitValue?_digitChar (Nat.lt_of_lt_of_le hlt hbase)).1⟩
    · exact ⟨hlt, (digitValue?_digitChar (Nat.lt_of_lt_of_le hlt hbase)).2⟩

theorem IsDigit.code (hbase : base ≤ 16) (h : IsDigit base c d) :
    48 ≤ c.toNat ∧ c.toNat ≤ 57 ∨ 65 ≤ c.toNat ∧ c.toNat ≤ 70 ∨ 97 ≤ c.toNat ∧ c.toNat ≤ 102 :=
  code_of_digitValue? ((digitValue?_eq_some_iff (Nat.le_refl 16)).2 (h.mono hbase))

/-! ### Digit strings -/

/-- One digit or more, and their value. -/
inductive Digits (base : Nat) : List Char → Nat → Prop
  | one {c : Char} {d : Nat} : IsDigit base c d → Digits base [c] d
  | snoc {text : List Char} {n : Nat} {c : Char} {d : Nat} :
      Digits base text n → IsDigit base c d → Digits base (text ++ [c]) (n * base + d)

theorem Digits.isDigit (h : Digits base text n) : ∀ c ∈ text, ∃ d, IsDigit base c d := by
  induction h with
  | one hdigit => simpa using ⟨_, hdigit⟩
  | snoc _ hdigit ih =>
    intro c hc
    obtain hc | hc := List.mem_append.1 hc
    · exact ih c hc
    · obtain rfl := List.mem_singleton.1 hc
      exact ⟨_, hdigit⟩

theorem Digits.ne_nil (h : Digits base text n) : text ≠ [] := by
  cases h with
  | one => exact List.cons_ne_nil _ _
  | snoc => exact List.append_ne_nil_of_right_ne_nil _ (List.cons_ne_nil _ _)

theorem Digits.zero_cons (h : Digits base text n) : Digits base ('0' :: text) n := by
  induction h with
  | @one c d hdigit =>
    have hzero : IsDigit base '0' 0 := ⟨Nat.zero_lt_of_lt hdigit.1, .inl rfl⟩
    simpa using Digits.snoc (.one hzero) hdigit
  | snoc _ hdigit ih => exact .snoc ih hdigit

/-- Zeros in front make no difference to the value. -/
theorem Digits.zeros (h : Digits base text n) (count : Nat) :
    Digits base (List.replicate count '0' ++ text) n := by
  induction count with
  | zero => exact h
  | succ count ih =>
    rw [List.replicate_succ, List.cons_append]
    exact ih.zero_cons

theorem code_of_isUpper (h : c.isUpper = true) : 65 ≤ c.toNat ∧ c.toNat ≤ 90 := by
  obtain ⟨hlow, hhigh⟩ := of_decide_eq_true h
  exact ⟨UInt32.le_iff_toNat_le.1 hlow, UInt32.le_iff_toNat_le.1 hhigh⟩

theorem isDigit_of_toLower (hbase : base ≤ 16) (hd : d < base) (h : c.toLower = d.digitChar) :
    IsDigit base c d := by
  refine ⟨hd, ?_⟩
  by_cases hupper : c.isUpper = true
  · have hcode : c.toNat < 91 := Nat.lt_succ_of_le (code_of_isUpper hupper).2
    exact of_codes (P := fun c => ∀ d < 16, c.toLower = d.digitChar →
      c = d.digitChar ∨ c = d.digitChar.toUpper) (by decide) hcode d
        (Nat.lt_of_lt_of_le hd hbase) h
  · exact .inl (Char.toLower_eq_of_not_isUpper hupper ▸ h)

/-- The digits of a number, letters in either case, are a digit string of it. -/
theorem digits_toDigits (hpos : 1 < base) (hbase : base ≤ 16)
    (h : text.map Char.toLower = Nat.toDigits base n) : Digits base text n := by
  induction n using Nat.strongRecOn generalizing text with
  | ind n ih =>
    rcases Nat.lt_or_ge n base with hlt | hge
    · rw [Nat.toDigits_of_lt_base hlt] at h
      obtain ⟨c, rfl, hc⟩ := List.map_eq_singleton_iff.1 h
      exact .one (isDigit_of_toLower hbase hlt hc)
    · rw [Nat.toDigits_of_base_le hpos hge] at h
      obtain ⟨first, last, rfl, hfirst, hlast⟩ := List.map_eq_append_iff.1 h
      obtain ⟨c, rfl, hc⟩ := List.map_eq_singleton_iff.1 hlast
      have hshort := ih (n / base) (Nat.div_lt_self (by omega) hpos) hfirst
      have hmod : n % base < base := Nat.mod_lt n (by omega)
      rw [← Nat.div_add_mod' n base]
      exact .snoc hshort (isDigit_of_toLower hbase hmod hc)

/-- The decimal numeral of a number is a digit string of it. -/
theorem digits_toString (n : Nat) : Digits 10 (toString n).toList n := by
  have hlower : ∀ c ∈ (toString n).toList, c.toLower = c := by
    intro c hc
    have hdigit := Char.isDigit_iff_toNat.1 (isDigit_of_mem_toString hc)
    refine Char.toLower_eq_of_not_isUpper fun hupper => ?_
    exact absurd (Nat.le_trans (code_of_isUpper hupper).1 hdigit.2) (by decide)
  refine digits_toDigits (by decide) (by decide) ?_
  rw [List.map_congr_left hlower, List.map_id', Nat.toString_eq_ofList_toDigits,
    String.toList_ofList]

/-! ### Reading digit strings -/

theorem readDigits_append (base value : Nat) (text rest : List Char) :
    readDigits base value (text ++ rest)
      = (readDigits base value text).bind fun value => readDigits base value rest := by
  induction text generalizing value with
  | nil => rfl
  | cons c text ih =>
    rw [List.cons_append, readDigits, readDigits]
    rcases digitValue? base c with _ | d
    · rfl
    · dsimp only
      split
      · exact ih _
      · rfl

theorem readDigits_singleton (hbase : base ≤ 16) (h : IsDigit base c d) :
    readDigits base value [c]
      = if value * base + d < sizeLimit then .ok (value * base + d) else .error .tooLarge := by
  rw [readDigits, (digitValue?_eq_some_iff hbase).2 h]
  rfl

/-- **A digit string is read as its value**, or refused if that is too large. -/
theorem readDigits_of_digits (hpos : 0 < base) (hbase : base ≤ 16) (h : Digits base text n) :
    readDigits base 0 text = if n < sizeLimit then .ok n else .error .tooLarge := by
  induction h with
  | one hdigit => rw [readDigits_singleton hbase hdigit, Nat.zero_mul, Nat.zero_add]
  | @snoc text n c d _ hdigit ih =>
    rw [readDigits_append, ih]
    by_cases hn : n < sizeLimit
    · rw [if_pos hn]
      exact readDigits_singleton hbase hdigit
    -- what is too large already stays so
    · have hgrown : n ≤ n * base := Nat.le_mul_of_pos_right n hpos
      rw [if_neg hn, if_neg (by omega)]
      rfl

/-- What is read as a number is a digit string of it. -/
theorem digits_of_readDigits (hbase : base ≤ 16) (hne : text ≠ [])
    (h : readDigits base 0 text = .ok n) : Digits base text n ∧ n < sizeLimit := by
  induction text using List.reverseRecOn generalizing n with
  | nil => exact absurd rfl hne
  | append_singleton text c ih =>
    rw [readDigits_append] at h
    rcases hread : readDigits base 0 text with e | value
    · rw [hread] at h
      cases h
    · rw [hread] at h
      change readDigits base value [c] = .ok n at h
      rcases hdigit : digitValue? base c with _ | d
      · rw [readDigits, hdigit] at h
        cases h
      · have hdigit := (digitValue?_eq_some_iff hbase).1 hdigit
        rw [readDigits_singleton hbase hdigit] at h
        split at h
        case isFalse => cases h
        case isTrue hlt =>
          cases h
          refine ⟨?_, hlt⟩
          cases text with
          | nil =>
            cases hread
            rw [Nat.zero_mul, Nat.zero_add]
            exact .one hdigit
          | cons first text => exact .snoc (ih (List.cons_ne_nil _ _) hread).1 hdigit

/-! ### Numerals -/

/-- A digit string, after a plus sign or without. -/
inductive Signed (base : Nat) : List Char → Nat → Prop
  | plain {text : List Char} {n : Nat} : Digits base text n → Signed base text n
  | plus {text : List Char} {n : Nat} : Digits base text n → Signed base ('+' :: text) n

/-- A numeral with its number: decimal, or hexadecimal after a mark. -/
inductive Numeral : List Char → Nat → Prop
  | decimal {text : List Char} {n : Nat} : Signed 10 text n → Numeral text n
  | hexadecimal {mark : Char} {text : List Char} {n : Nat} :
      mark = 'x' ∨ mark = 'X' → Signed 16 text n → Numeral ('0' :: mark :: text) n

theorem readUnmarked_eq (hne : text ≠ []) (hplus : text.head? ≠ some '+') :
    readUnmarked base text = readDigits base 0 text := by
  unfold readUnmarked
  split
  · exact absurd rfl hne
  · exact absurd rfl hplus
  · exact absurd rfl hplus
  · rfl

theorem readUnmarked_plus (hne : text ≠ []) :
    readUnmarked base ('+' :: text) = readDigits base 0 text := by
  cases text with
  | nil => exact absurd rfl hne
  | cons c text => rfl

theorem Digits.head?_ne_plus (hbase : base ≤ 16) (h : Digits base text n) :
    text.head? ≠ some '+' := by
  intro hhead
  obtain ⟨d, hdigit⟩ := h.isDigit '+' (List.mem_of_mem_head? hhead)
  have hcode := hdigit.code hbase
  revert hcode
  decide

theorem readUnmarked_of_signed (hpos : 0 < base) (hbase : base ≤ 16) (h : Signed base text n) :
    readUnmarked base text = if n < sizeLimit then .ok n else .error .tooLarge := by
  cases h with
  | plain hdigits =>
    rw [readUnmarked_eq hdigits.ne_nil (hdigits.head?_ne_plus hbase)]
    exact readDigits_of_digits hpos hbase hdigits
  | plus hdigits =>
    rw [readUnmarked_plus hdigits.ne_nil]
    exact readDigits_of_digits hpos hbase hdigits

theorem signed_of_readUnmarked (hbase : base ≤ 16) (h : readUnmarked base text = .ok n) :
    Signed base text n ∧ n < sizeLimit := by
  unfold readUnmarked at h
  split at h
  · cases h
  · cases h
  next digits hne =>
    obtain ⟨hdigits, hlt⟩ := digits_of_readDigits hbase hne h
    exact ⟨.plus hdigits, hlt⟩
  next digits hne _ _ =>
    obtain ⟨hdigits, hlt⟩ := digits_of_readDigits hbase hne h
    exact ⟨.plain hdigits, hlt⟩

theorem Signed.eq_plus_or_isDigit (h : Signed base text n) :
    ∀ c ∈ text, c = '+' ∨ ∃ d, IsDigit base c d := by
  cases h with
  | plain hdigits => exact fun c hc => .inr (hdigits.isDigit c hc)
  | plus hdigits =>
    intro c hc
    obtain rfl | hc := List.mem_cons.1 hc
    · exact .inl rfl
    · exact .inr (hdigits.isDigit c hc)

/-- The letter of a mark is no decimal digit. -/
theorem readNumeral_of_signed (h : Signed 10 text n) :
    readNumeral text = readUnmarked 10 text := by
  have hmark (mark : Char) (hmark : digitValue? 10 mark = none) (hplus : mark ≠ '+') :
      mark ∉ text := by
    intro hmem
    obtain rfl | ⟨d, hdigit⟩ := h.eq_plus_or_isDigit mark hmem
    · exact hplus rfl
    · rw [(digitValue?_eq_some_iff (by decide)).2 hdigit] at hmark
      cases hmark
  unfold readNumeral
  split
  next rest => exact absurd (by simp) (hmark 'x' rfl (by decide))
  next rest => exact absurd (by simp) (hmark 'X' rfl (by decide))
  next => rfl

/-- **A numeral is read as its number**, or refused if that is too large. -/
theorem readNumeral_of_numeral (h : Numeral text n) :
    readNumeral text = if n < sizeLimit then .ok n else .error .tooLarge := by
  cases h with
  | decimal hsigned =>
    rw [readNumeral_of_signed hsigned]
    exact readUnmarked_of_signed (by decide) (by decide) hsigned
  | hexadecimal hmark hsigned =>
    rw [← readUnmarked_of_signed (by decide) (by decide) hsigned]
    obtain rfl | rfl := hmark <;> rfl

/-- **What is read as a number is a numeral of it**, and the number is not too large. -/
theorem readNumeral_eq_ok_iff :
    readNumeral text = .ok n ↔ Numeral text n ∧ n < sizeLimit := by
  constructor
  · intro h
    unfold readNumeral at h
    split at h
    next rest =>
      obtain ⟨hsigned, hlt⟩ := signed_of_readUnmarked (by decide) h
      exact ⟨.hexadecimal (.inl rfl) hsigned, hlt⟩
    next rest =>
      obtain ⟨hsigned, hlt⟩ := signed_of_readUnmarked (by decide) h
      exact ⟨.hexadecimal (.inr rfl) hsigned, hlt⟩
    next =>
      obtain ⟨hsigned, hlt⟩ := signed_of_readUnmarked (by decide) h
      exact ⟨.decimal hsigned, hlt⟩
  · rintro ⟨hnumeral, hlt⟩
    rw [readNumeral_of_numeral hnumeral, if_pos hlt]

end VirtualPC.Text
