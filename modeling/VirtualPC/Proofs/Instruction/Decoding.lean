/-
VirtualPC/Proofs/Instruction/Decoding.lean

What decoding says about the bytes it is given, whatever they are fetched from.  An
instruction is *canonical* if it can come out of decoding: an `unknown` byte is then no
assigned opcode.  Canonical instructions are exactly those that their own bytes decode to.

`decodeFrom fetch` reads a whole instruction, its first byte included.  Main results: it
succeeds with an instruction exactly where the instruction is canonical and its encoding is
supplied (`decodeFrom_eq_ok_iff`), and it fails exactly where the supply breaks off before an
instruction is complete (`decodeFrom_eq_error_iff`).  Neither says anything of the fetch but
what it supplies, so both carry over from one fetch to another.

The last section has the fetch of the inspector, which never fails: past the end of an image
it supplies zeros (`append_of_supplies_nextByte`).  Where it does not come to that, the
inspector shows what stands encoded in the image (`decodeAt_eq_some_iff`).
-/
import VirtualPC.Proofs.Instruction.Supply

namespace VirtualPC.Instruction

variable {ε σ : Type} {fetch : EStateM ε σ UInt8} {s s' s'' : σ} {byte : UInt8}
  {i : Instruction} {e : ε}

/-! ### Canonical instructions -/

/-- An instruction that decoding can give: an unknown byte is unassigned. -/
def Canonical : Instruction → Prop
  | .unknown byte => Opcode.ofByte? byte = none
  | _ => True

instance : DecidablePred Canonical
  | .unknown byte => inferInstanceAs (Decidable (Opcode.ofByte? byte = none))
  | .nop | .loadImmediate _ | .store _ | .load _ | .addImmediate _ | .subImmediate _
  | .jump _ | .jumpIfZero _ | .halt => .isTrue trivial

theorem canonical_of_opcode? {op : Opcode} (h : i.opcode? = some op) : i.Canonical := by
  cases i with
  | unknown byte => cases h
  | _ => trivial

theorem width_eq_length_operandBytes (i : Instruction) :
    i.width = i.operandBytes.length + 1 := by
  cases i <;> rfl

/-- No instruction has more than three bytes. -/
theorem width_le (i : Instruction) : i.width ≤ 3 := by
  cases i <;> exact Nat.le_of_ble_eq_true rfl

/-- The first byte of a canonical instruction is assigned to the opcode of the instruction,
if it has one, and to none else. -/
theorem Canonical.encode_eq (h : i.Canonical) :
    ∃ byte, i.encode = byte :: i.operandBytes ∧ Opcode.ofByte? byte = i.opcode? := by
  rcases hop : i.opcode? with _ | op
  · cases i with
    | unknown byte => exact ⟨byte, rfl, h⟩
    | _ => cases hop
  · exact ⟨op.byte, encode_of_opcode? hop, Opcode.ofByte?_byte op⟩

/-! ### Decoding behind a first byte -/

/-- A byte decodes to an instruction exactly where the two go together and the operand bytes
are supplied. -/
theorem decodeWith_eq_ok_iff :
    decodeWith byte fetch s = .ok i s' ↔
      i.Canonical ∧ i.encode = byte :: i.operandBytes ∧ Supplies fetch s i.operandBytes s' := by
  constructor
  · intro h
    obtain ⟨hencode, hopcode, hsupply⟩ := supplies_of_decodeWith h
    refine ⟨?_, hencode, hsupply⟩
    cases i with
    | unknown b =>
      obtain rfl : b = byte := (List.cons.inj hencode).1
      exact hopcode.symm
    | _ => trivial
  · rintro ⟨hcanonical, hencode, hsupply⟩
    rcases hop : i.opcode? with _ | op
    · cases i with
      | unknown b =>
        obtain rfl : b = byte := (List.cons.inj hencode).1
        cases hsupply
        simp only [decodeWith, show Opcode.ofByte? b = none from hcanonical]
        rfl
      | _ => cases hop
    · obtain rfl : op.byte = byte := (List.cons.inj ((encode_of_opcode? hop).symm.trans hencode)).1
      exact decodeWith_of_supplies hop hsupply

/-- An operand whose supply breaks off cannot be fetched. -/
theorem fetchOperand_of_cut {shape : OperandShape} {bytes : List UInt8}
    (hlength : bytes.length < shape.width) (hsupply : Supplies fetch s bytes s')
    (hfail : fetch s' = .error e s'') : fetchOperand shape fetch s = .error e s'' := by
  cases shape with
  | none => cases hlength
  | immediate =>
    obtain rfl : bytes = [] := List.eq_nil_of_length_eq_zero (Nat.lt_one_iff.1 hlength)
    cases hsupply
    exact bind_of_eq_error _ hfail
  | address =>
    cases hsupply with
    | nil => exact bind_of_eq_error _ hfail
    | cons hhigh hrest =>
      cases hrest with
      | nil =>
        show (fetch >>= fun high => fetch >>= fun low => pure (wordOfBytes high low)) s = _
        rw [bind_of_eq_ok _ hhigh, bind_of_eq_error _ hfail]
      | cons hlow hrest =>
        simp only [List.length_cons, OperandShape.width] at hlength
        omega

/-- A decoding fails exactly where the supply breaks off inside the operand of an opcode. -/
theorem decodeWith_eq_error_iff :
    decodeWith byte fetch s = .error e s'' ↔
      ∃ op bytes s', Opcode.ofByte? byte = some op ∧ bytes.length < op.operand.width ∧
        Supplies fetch s bytes s' ∧ fetch s' = .error e s'' := by
  refine ⟨supplies_of_decodeWith_error, ?_⟩
  rintro ⟨op, bytes, s', hop, hlength, hsupply, hfail⟩
  unfold decodeWith
  rw [hop]
  exact bind_of_eq_error _ (fetchOperand_of_cut hlength hsupply hfail)

/-! ### Decoding a whole instruction -/

/-- Reads an instruction, its first byte included. -/
def decodeFrom (fetch : EStateM ε σ UInt8) : EStateM ε σ Instruction := do
  decodeWith (← fetch) fetch

/-- Bytes that do not make up an instruction yet: none at all, or an opcode byte and a part of
its operand. -/
inductive Incomplete : List UInt8 → Prop
  | nil : Incomplete []
  | cons {byte : UInt8} {operand : List UInt8} {op : Opcode} :
      Opcode.ofByte? byte = some op → operand.length < op.operand.width →
      Incomplete (byte :: operand)

/-- Incomplete bytes are at most two. -/
theorem Incomplete.length_lt {bytes : List UInt8} (h : Incomplete bytes) : bytes.length < 3 := by
  cases h with
  | nil => exact Nat.succ_pos 2
  | @cons byte operand op hop hlength =>
    have : op.operand.width ≤ 2 := by cases op <;> decide
    rw [List.length_cons]
    omega

/-- **An instruction is read exactly where its encoding is supplied**, and it is canonical. -/
theorem decodeFrom_eq_ok_iff :
    decodeFrom fetch s = .ok i s' ↔ i.Canonical ∧ Supplies fetch s i.encode s' := by
  constructor
  · intro h
    obtain ⟨byte, mid, hbyte, h⟩ := bind_eq_ok h
    obtain ⟨hcanonical, hencode, hsupply⟩ := decodeWith_eq_ok_iff.1 h
    exact ⟨hcanonical, hencode ▸ .cons hbyte hsupply⟩
  · rintro ⟨hcanonical, hsupply⟩
    obtain ⟨byte, hencode, -⟩ := hcanonical.encode_eq
    rw [hencode] at hsupply
    obtain _ | ⟨hbyte, hrest⟩ := hsupply
    show (fetch >>= fun byte => decodeWith byte fetch) s = _
    rw [bind_of_eq_ok _ hbyte]
    exact decodeWith_eq_ok_iff.2 ⟨hcanonical, hencode, hrest⟩

/-- **Reading fails exactly where the supply breaks off** before an instruction is complete. -/
theorem decodeFrom_eq_error_iff :
    decodeFrom fetch s = .error e s'' ↔
      ∃ bytes s', Incomplete bytes ∧ Supplies fetch s bytes s' ∧ fetch s' = .error e s'' := by
  constructor
  · intro h
    obtain h | ⟨byte, mid, hbyte, h⟩ := bind_eq_error h
    · exact ⟨[], s, .nil, .nil s, h⟩
    · obtain ⟨op, operand, s', hop, hlength, hsupply, hfail⟩ := decodeWith_eq_error_iff.1 h
      exact ⟨byte :: operand, s', .cons hop hlength, .cons hbyte hsupply, hfail⟩
  · rintro ⟨bytes, s', hbytes, hsupply, hfail⟩
    show (fetch >>= fun byte => decodeWith byte fetch) s = _
    cases hbytes with
    | nil =>
      cases hsupply
      exact bind_of_eq_error _ hfail
    | cons hop hlength =>
      obtain _ | ⟨hbyte, hrest⟩ := hsupply
      rw [bind_of_eq_ok _ hbyte]
      exact decodeWith_eq_error_iff.2 ⟨_, _, _, hop, hlength, hrest, hfail⟩

/-! ### Decoding an image -/

variable {part rest bytes : List UInt8}

/-- The inspector supplies the bytes of an image. -/
theorem supplies_nextByte (bytes rest : List UInt8) :
    Supplies nextByte (bytes ++ rest) bytes rest := by
  induction bytes with
  | nil => exact .nil rest
  | cons byte bytes ih => exact .cons rfl ih

/-- What the inspector supplies is what is left of the image, and zeros once nothing is. -/
theorem append_of_supplies_nextByte (h : Supplies nextByte part bytes rest) :
    bytes ++ rest = part ++ List.replicate (bytes.length - part.length) 0 ∧
      rest = part.drop bytes.length := by
  induction h with
  | nil part => simp
  | @cons part mid rest byte bytes hbyte hrest ih =>
    cases hbyte
    obtain ⟨happend, rfl⟩ := ih
    cases part with
    | nil => exact ⟨by simpa [List.replicate_succ] using happend, by simp⟩
    | cons first part => exact ⟨by simpa using happend, by simp⟩

/-- What the inspector decodes is canonical and encoded as the bytes from there on, zeros
added where the operand runs past the end. -/
theorem decodeHead_spec (byte : UInt8) (part : List UInt8) :
    (decodeHead byte part).Canonical ∧
      (decodeHead byte part).encode ++ part.drop ((decodeHead byte part).width - 1)
        = byte :: part ++ List.replicate ((decodeHead byte part).width - (part.length + 1)) 0 := by
  rcases h : decodeWith byte nextByte part with ⟨i, rest⟩ | ⟨e, rest⟩
  · have hi : decodeHead byte part = i := by simp only [decodeHead, h]
    obtain ⟨hcanonical, hencode, hsupply⟩ := decodeWith_eq_ok_iff.1 h
    obtain ⟨happend, rfl⟩ := append_of_supplies_nextByte hsupply
    rw [hi, width_eq_length_operandBytes, Nat.add_sub_cancel, Nat.add_sub_add_right, hencode]
    exact ⟨hcanonical, by rw [List.cons_append, happend, List.cons_append]⟩
  · exact e.elim

/-- A canonical instruction is decoded from its encoding. -/
theorem decodeHead_of_encode (h : i.Canonical) (hencode : i.encode = byte :: bytes)
    (rest : List UInt8) : decodeHead byte (bytes ++ rest) = i := by
  obtain ⟨first, hfirst, -⟩ := h.encode_eq
  obtain ⟨rfl, rfl⟩ := List.cons.inj (hencode.symm.trans hfirst)
  have hdecode := decodeWith_eq_ok_iff.2 ⟨h, hfirst, supplies_nextByte i.operandBytes rest⟩
  simp only [decodeHead, hdecode]

/-- **Where an image has room for an instruction**, the inspector shows that instruction exactly
if it stands encoded there. -/
theorem decodeAt_eq_some_iff {image : List UInt8} {offset : Nat}
    (hroom : offset + i.width ≤ image.length) :
    decodeAt image offset = some i ↔ i.Canonical ∧ i.encode <+: image.drop offset := by
  have hlength : (image.drop offset).length = image.length - offset := List.length_drop
  unfold decodeAt
  rcases hpart : image.drop offset with _ | ⟨byte, rest⟩
  · rw [hpart, List.length_nil] at hlength
    have hwidth := i.width_pos
    omega
  · rw [hpart, List.length_cons] at hlength
    constructor
    · intro h
      obtain rfl : decodeHead byte rest = i := Option.some.inj h
      obtain ⟨hcanonical, happend⟩ := decodeHead_spec byte rest
      have hfull : (decodeHead byte rest).width ≤ rest.length + 1 := by omega
      rw [Nat.sub_eq_zero_of_le hfull, List.replicate_zero, List.append_nil] at happend
      exact ⟨hcanonical, _, happend⟩
    · rintro ⟨hcanonical, behind, happend⟩
      obtain ⟨first, hencode, -⟩ := hcanonical.encode_eq
      rw [hencode] at happend
      obtain ⟨rfl, rfl⟩ := List.cons.inj happend
      exact congrArg some (decodeHead_of_encode hcanonical hencode behind)

end VirtualPC.Instruction
