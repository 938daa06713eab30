/-
VirtualPC/Proofs/Command/Sizes.lean

Sizes and addresses on the command line.  Such a value is trimmed and then read as a numeral.

    Surrounded text core    `text` is `core` with white space around it
    Trimmed text core       and `core` begins and ends with something else

Every text has one trimmed core, which is what trimming leaves of it (`trimBlanks_eq_iff`).  No
character of a numeral is white space, so a numeral with white space around it is its trimmed
core (`Trimmed.of_numeral`).

Main result: a size is accepted exactly if its trimmed core is a numeral of a number below
`2 ^ 64`, and then it is that number (`sizes_read_as_written`).
-/
import VirtualPC.Command.Options
import VirtualPC.Proofs.Text.Grammar

namespace VirtualPC.Text

variable {text core before after : List Char} {n : Nat} {c : Char}

/-! ### Trimming -/

/-- A text with white space around it. -/
def Surrounded (text core : List Char) : Prop :=
  ∃ before after, (∀ c ∈ before, isBlank c = true) ∧ (∀ c ∈ after, isBlank c = true) ∧
    text = before ++ core ++ after

/-- A text without the white space around it. -/
structure Trimmed (text core : List Char) : Prop where
  surrounded : Surrounded text core
  head : ∀ c ∈ core.head?, isBlank c = false
  last : ∀ c ∈ core.getLast?, isBlank c = false

theorem dropWhile_blanks (hbefore : ∀ c ∈ before, isBlank c = true)
    (hhead : ∀ c ∈ core.head?, isBlank c = false) : (before ++ core).dropWhile isBlank = core := by
  rw [List.dropWhile_append_of_pos hbefore]
  cases core with
  | nil => rfl
  | cons c core => rw [List.dropWhile_cons_of_neg (by simp [hhead c rfl])]

theorem trimBlanks_eq_of_trimmed (h : Trimmed text core) : trimBlanks text = core := by
  obtain ⟨⟨before, after, hbefore, hafter, rfl⟩, hhead, hlast⟩ := h
  have hback : ∀ c ∈ after.reverse, isBlank c = true := fun c hc =>
    hafter c (List.mem_reverse.1 hc)
  unfold trimBlanks
  rw [List.append_assoc]
  cases core with
  -- the white space is all at the start
  | nil =>
    rw [List.nil_append, List.dropWhile_eq_nil_iff.2 fun c hc =>
      (List.mem_append.1 hc).elim (hbefore c) (hafter c)]
    rfl
  | cons c core =>
    have hfront : (before ++ (c :: core ++ after)).dropWhile isBlank = c :: core ++ after :=
      dropWhile_blanks hbefore hhead
    rw [hfront, List.reverse_append, dropWhile_blanks hback (by rwa [List.head?_reverse]),
      List.reverse_reverse]

theorem isBlank_of_head?_dropWhile (hc : c ∈ (text.dropWhile isBlank).head?) :
    isBlank c = false := by
  have hhead := List.head?_dropWhile_not isBlank text
  rw [Option.mem_def.1 hc] at hhead
  exact hhead

theorem trimmed_trimBlanks (text : List Char) : Trimmed text (trimBlanks text) := by
  have hcore : trimBlanks text = (text.dropWhile isBlank).rdropWhile isBlank := rfl
  rw [hcore]
  refine ⟨⟨text.takeWhile isBlank, (text.dropWhile isBlank).rtakeWhile isBlank,
    fun c hc => List.mem_takeWhile_imp hc, fun c hc => List.mem_rtakeWhile_imp hc, ?_⟩, ?_, ?_⟩
  · rw [List.append_assoc, List.rdropWhile_append_rtakeWhile, List.takeWhile_append_dropWhile]
  · intro c hc
    obtain ⟨after, hafter⟩ := List.rdropWhile_prefix isBlank (l := text.dropWhile isBlank)
    have hhead : c ∈ (text.dropWhile isBlank).head? := by
      rw [← hafter, List.head?_append, Option.mem_def.1 hc]
      rfl
    exact isBlank_of_head?_dropWhile hhead
  · intro c hc
    rw [List.rdropWhile, List.getLast?_reverse] at hc
    exact isBlank_of_head?_dropWhile hc

/-- **A text has one trimmed core**, and that is what trimming leaves. -/
theorem trimBlanks_eq_iff : trimBlanks text = core ↔ Trimmed text core :=
  ⟨fun h => h ▸ trimmed_trimBlanks text, trimBlanks_eq_of_trimmed⟩

/-! ### Numerals with white space around them -/

/-- The characters of numerals are digits, the plus sign and the letter of a mark. -/
theorem Numeral.mem (h : Numeral text n) :
    ∀ c ∈ text, c ∈ ['+', 'x', 'X'] ∨ ∃ d, IsDigit 16 c d := by
  have hsigned {base : Nat} {text : List Char} (hbase : base ≤ 16) (h : Signed base text n) :
      ∀ c ∈ text, c ∈ ['+', 'x', 'X'] ∨ ∃ d, IsDigit 16 c d := by
    intro c hc
    obtain rfl | ⟨d, hdigit⟩ := h.eq_plus_or_isDigit c hc
    · exact .inl (by decide)
    · exact .inr ⟨d, hdigit.mono hbase⟩
  cases h with
  | decimal h => exact hsigned (by decide) h
  | @hexadecimal mark text _ hmark h =>
    intro c hc
    obtain rfl | hc := List.mem_cons.1 hc
    · exact .inr ⟨0, by decide, .inl rfl⟩
    · obtain rfl | hc := List.mem_cons.1 hc
      · exact .inl (by obtain rfl | rfl := hmark <;> decide)
      · exact hsigned (by decide) h c hc

theorem Numeral.isBlank_eq_false (h : Numeral text n) (hc : c ∈ text) : isBlank c = false := by
  obtain hmem | ⟨d, hdigit⟩ := h.mem c hc
  · simp only [List.mem_cons, List.not_mem_nil, or_false] at hmem
    obtain rfl | rfl | rfl := hmem <;> rfl
  · have hcode := hdigit.code (by decide)
    simp only [isBlank, Bool.or_eq_false_iff, Bool.and_eq_false_iff, decide_eq_false_iff_not,
      beq_eq_false_iff_ne]
    omega

theorem Trimmed.of_numeral (hnumeral : Numeral core n) (h : Surrounded text core) :
    Trimmed text core where
  surrounded := h
  head _ hc := hnumeral.isBlank_eq_false (List.mem_of_mem_head? hc)
  last _ hc := hnumeral.isBlank_eq_false (List.mem_of_mem_getLast? hc)

theorem Numeral.ne_minus (h : Numeral text n) : '-' ∉ text := by
  intro hmem
  obtain hmem | ⟨d, hdigit⟩ := h.mem '-' hmem
  · revert hmem
    decide
  · have hcode := hdigit.code (by decide)
    revert hcode
    decide

theorem Surrounded.mem (h : Surrounded text core) (hc : c ∈ text) (hblank : isBlank c = false) :
    c ∈ core := by
  obtain ⟨before, after, hbefore, hafter, rfl⟩ := h
  simp only [List.mem_append] at hc
  obtain (hc | hc) | hc := hc
  · rw [hbefore c hc] at hblank
    cases hblank
  · exact hc
  · rw [hafter c hc] at hblank
    cases hblank

end VirtualPC.Text

namespace VirtualPC.Command

open Text

variable {value : String} {core : List Char} {n : Nat}

/-! ### Sizes -/

theorem readSize_of_trimmed (h : Trimmed value.toList core) :
    readSize value = (readNumeral core).mapError (.invalidNumber (String.ofList core)) := by
  rw [readSize, trimBlanks_eq_iff.2 h]

theorem readSize_eq_ok_iff :
    readSize value = .ok n ↔
      n < sizeLimit ∧ ∃ core, Trimmed value.toList core ∧ Numeral core n := by
  rw [readSize_of_trimmed (trimmed_trimBlanks value.toList)]
  constructor
  · intro h
    rcases hread : readNumeral (trimBlanks value.toList) with e | m
    · rw [hread] at h
      cases h
    · rw [hread] at h
      cases h
      obtain ⟨hnumeral, hlt⟩ := readNumeral_eq_ok_iff.1 hread
      exact ⟨hlt, _, trimmed_trimBlanks value.toList, hnumeral⟩
  · rintro ⟨hlt, core, htrimmed, hnumeral⟩
    rw [trimBlanks_eq_iff.2 htrimmed, readNumeral_eq_ok_iff.2 ⟨hnumeral, hlt⟩]
    rfl

/-- A numeral with white space around it is read as its number. -/
theorem readSize_of_surrounded (hlt : n < sizeLimit) (hnumeral : Numeral core n)
    (h : Surrounded value.toList core) : readSize value = .ok n :=
  readSize_eq_ok_iff.2 ⟨hlt, core, .of_numeral hnumeral h, hnumeral⟩

/-- **Sizes are read as they are written.**  A value is accepted exactly if without the white
space around it it is a numeral of a number below `2 ^ 64`, and it is read as that number; every
other value is an error, one whose number is too large and one with a minus sign among them.
Hence every number below `2 ^ 64` is read back from its decimal numeral and, after a mark, from its
hexadecimal numeral with letters in either case, with any zeros in front and any white space
around. -/
theorem sizes_read_as_written :
    (∀ value n, readSize value = .ok n ↔
      n < sizeLimit ∧ ∃ core, Trimmed value.toList core ∧ Numeral core n) ∧
    (∀ value, (∃ e, readSize value = .error e) ↔
      ¬ ∃ n < sizeLimit, ∃ core, Trimmed value.toList core ∧ Numeral core n) ∧
    (∀ value core n, Trimmed value.toList core → Numeral core n → sizeLimit ≤ n →
      readSize value = .error (.invalidNumber (String.ofList core) .tooLarge)) ∧
    (∀ value, '-' ∈ value.toList → ∃ e, readSize value = .error e) ∧
    (∀ n < sizeLimit, ∀ value zeros,
      Surrounded value.toList (List.replicate zeros '0' ++ (toString n).toList) →
        readSize value = .ok n) ∧
    (∀ n < sizeLimit, ∀ value zeros, ∀ mark ∈ ['x', 'X'], ∀ digits,
      digits.map Char.toLower = Nat.toDigits 16 n →
      Surrounded value.toList ('0' :: mark :: (List.replicate zeros '0' ++ digits)) →
        readSize value = .ok n) := by
  have herror (value : String) : (∃ e, readSize value = .error e) ↔
      ¬ ∃ n < sizeLimit, ∃ core, Trimmed value.toList core ∧ Numeral core n := by
    rcases hread : readSize value with e | n
    · refine ⟨fun _ => ?_, fun _ => ⟨e, rfl⟩⟩
      rintro ⟨n, hn⟩
      rw [readSize_eq_ok_iff.2 hn] at hread
      cases hread
    · refine ⟨?_, fun h => absurd ⟨n, readSize_eq_ok_iff.1 hread⟩ h⟩
      rintro ⟨e, he⟩
      cases he
  refine ⟨fun value n => readSize_eq_ok_iff, herror, ?_, ?_, ?_, ?_⟩
  · intro value core n htrimmed hnumeral hlarge
    rw [readSize_of_trimmed htrimmed, readNumeral_of_numeral hnumeral, if_neg (by omega)]
    rfl
  · intro value hminus
    refine (herror value).2 ?_
    rintro ⟨n, -, core, htrimmed, hnumeral⟩
    exact hnumeral.ne_minus (htrimmed.surrounded.mem hminus rfl)
  · intro n hlt value zeros h
    exact readSize_of_surrounded hlt (.decimal (.plain ((digits_toString n).zeros zeros))) h
  · intro n hlt value zeros mark hmark digits hdigits h
    have hmark : mark = 'x' ∨ mark = 'X' := by simpa using hmark
    have hdigits : Digits 16 digits n := digits_toDigits (by decide) (by decide) hdigits
    exact readSize_of_surrounded hlt (.hexadecimal hmark (.plain (hdigits.zeros zeros))) h

/-- The first number that is too large, a negative one, and one number in two ways. -/
theorem sizes_read_at_limits :
    readSize (toString sizeLimit)
      = .error (.invalidNumber (toString sizeLimit) .tooLarge) ∧
    (∃ e, readSize "0x-1" = .error e) ∧
    readSize "\t0065535 " = .ok 0xFFFF ∧
    readSize " 0X0fFfF\n" = .ok 0xFFFF := by
  obtain ⟨-, -, hlarge, hminus, hdecimal, hhexadecimal⟩ := sizes_read_as_written
  have hnumeral : Numeral (toString sizeLimit).toList sizeLimit :=
    .decimal (.plain (digits_toString sizeLimit))
  have htrimmed : Trimmed (toString sizeLimit).toList (toString sizeLimit).toList :=
    .of_numeral hnumeral ⟨[], [], by simp, by simp, by simp⟩
  have htoo := hlarge _ _ _ htrimmed hnumeral (Nat.le_refl sizeLimit)
  rw [String.ofList_toList] at htoo
  refine ⟨htoo, hminus "0x-1" (by decide), ?_, ?_⟩
  · exact hdecimal 0xFFFF (by decide) _ 2
      ⟨['\t'], [' '], List.forall_mem_singleton.2 rfl, List.forall_mem_singleton.2 rfl, by cbv⟩
  · exact hhexadecimal 0xFFFF (by decide) _ 1 'X' (by decide) ['f', 'F', 'f', 'F'] (by cbv)
      ⟨[' '], ['\n'], List.forall_mem_singleton.2 rfl, List.forall_mem_singleton.2 rfl, by cbv⟩

end VirtualPC.Command
