/-
VirtualPC/Proofs/Instruction/Supply.lean

Decoding from a supply of bytes.  `Instruction.decodeWith` reads its operand through any
stateful fetch; what it makes of the operand depends only on the bytes the fetch hands out:

    Supplies fetch s bytes s'

says that `fetch`, called once for each of `bytes`, starting from the state `s`, succeeds
with those bytes in order and ends in the state `s'`.

Main result: whatever the fetch is, an opcode byte followed by a supply of the operand bytes
of an instruction decodes to that instruction and uses up the supply exactly
(`decodeWith_of_supplies`).  Conversely, whatever was decoded was supplied by its own encoding
(`supplies_of_decodeWith`), and a decoding fails only where the fetch does.  The processor and
the inspector both decode by way of it.
-/
import VirtualPC.Instruction.Decode

namespace VirtualPC

/-- The bytes of an operand, high byte first. -/
def OperandShape.bytes (operand : UInt16) : OperandShape → List UInt8
  | .none => []
  | .immediate => [lowByte operand]
  | .address => [highByte operand, lowByte operand]

namespace Instruction

variable {ε σ : Type} {fetch : EStateM ε σ UInt8} {s s' s'' : σ}

/-- `Supplies fetch s bytes s'`: from the state `s` the fetch hands out `bytes`, one byte a
call, and is then in the state `s'`. -/
inductive Supplies (fetch : EStateM ε σ UInt8) : σ → List UInt8 → σ → Prop
  | nil (s : σ) : Supplies fetch s [] s
  | cons {s s' s'' : σ} {byte : UInt8} {bytes : List UInt8} :
      fetch s = .ok byte s' → Supplies fetch s' bytes s'' → Supplies fetch s (byte :: bytes) s''

/-! ### Operands -/

theorem operandBytes_ofOperand (op : Opcode) (operand : UInt16) :
    (ofOperand op operand).operandBytes = op.operand.bytes operand := by
  cases op <;> rfl

@[simp] theorem lowByte_toUInt16 (byte : UInt8) : lowByte byte.toUInt16 = byte := by
  simp [lowByte]

/-- Binding a call of the fetch that succeeds. -/
theorem bind_of_eq_ok {α β : Type} {action : EStateM ε σ α} {a : α}
    (k : α → EStateM ε σ β) (h : action s = .ok a s') : (action >>= k) s = k a s' := by
  show EStateM.bind action k s = _
  rw [EStateM.bind, h]

/-- Binding a call of the fetch that fails. -/
theorem bind_of_eq_error {α β : Type} {action : EStateM ε σ α} {e : ε} (k : α → EStateM ε σ β)
    (h : action s = .error e s') : (action >>= k) s = .error e s' := by
  show EStateM.bind action k s = _
  rw [EStateM.bind, h]

theorem fetchOperand_none (h : Supplies fetch s [] s') :
    fetchOperand .none fetch s = .ok 0 s' := by
  cases h
  rfl

theorem fetchOperand_immediate {byte : UInt8} (h : Supplies fetch s [byte] s') :
    fetchOperand .immediate fetch s = .ok byte.toUInt16 s' := by
  obtain _ | ⟨hbyte, hrest⟩ := h
  cases hrest
  show (fetch >>= fun byte => pure byte.toUInt16) s = _
  rw [bind_of_eq_ok _ hbyte]
  rfl

theorem fetchOperand_address {word : UInt16}
    (h : Supplies fetch s [highByte word, lowByte word] s') :
    fetchOperand .address fetch s = .ok word s' := by
  obtain _ | ⟨hhigh, hrest⟩ := h
  obtain _ | ⟨hlow, hrest⟩ := hrest
  cases hrest
  show (fetch >>= fun high => fetch >>= fun low => pure (wordOfBytes high low)) s = _
  rw [bind_of_eq_ok _ hhigh, bind_of_eq_ok _ hlow, wordOfBytes_highByte_lowByte]
  rfl

/-- A supply of the operand bytes of an instruction is read as an operand that, with the
opcode, makes up the instruction again. -/
theorem fetchOperand_of_supplies {i : Instruction} {op : Opcode} (hop : i.opcode? = some op)
    (h : Supplies fetch s i.operandBytes s') :
    ∃ operand, fetchOperand op.operand fetch s = .ok operand s' ∧ ofOperand op operand = i := by
  cases i with
  | unknown byte => cases hop
  | nop => cases hop; exact ⟨0, fetchOperand_none h, rfl⟩
  | halt => cases hop; exact ⟨0, fetchOperand_none h, rfl⟩
  | loadImmediate value =>
    cases hop; exact ⟨_, fetchOperand_immediate h, by simp [ofOperand]⟩
  | addImmediate value =>
    cases hop; exact ⟨_, fetchOperand_immediate h, by simp [ofOperand]⟩
  | subImmediate value =>
    cases hop; exact ⟨_, fetchOperand_immediate h, by simp [ofOperand]⟩
  | store address => cases hop; exact ⟨address, fetchOperand_address h, rfl⟩
  | load address => cases hop; exact ⟨address, fetchOperand_address h, rfl⟩
  | jump target => cases hop; exact ⟨target, fetchOperand_address h, rfl⟩
  | jumpIfZero target => cases hop; exact ⟨target, fetchOperand_address h, rfl⟩

/-! ### Instructions -/

/-- **Decoding depends only on the bytes supplied**: an opcode byte and a supply of the
operand bytes of an instruction decode to that instruction, and the supply is used up. -/
theorem decodeWith_of_supplies {i : Instruction} {op : Opcode} (hop : i.opcode? = some op)
    (h : Supplies fetch s i.operandBytes s') : decodeWith op.byte fetch s = .ok i s' := by
  obtain ⟨operand, hfetch, rfl⟩ := fetchOperand_of_supplies hop h
  unfold decodeWith
  rw [Opcode.ofByte?_byte]
  show (fetchOperand op.operand fetch >>= fun operand => pure (ofOperand op operand)) s = _
  rw [bind_of_eq_ok _ hfetch]
  rfl

/-- An instruction with an opcode is encoded as its opcode byte and its operand bytes. -/
theorem encode_of_opcode? {i : Instruction} {op : Opcode} (hop : i.opcode? = some op) :
    i.encode = op.byte :: i.operandBytes := by
  cases i <;> cases hop <;> rfl

/-! ### What a decoding says about its supply -/

theorem bind_eq_ok {α β : Type} {action : EStateM ε σ α} {k : α → EStateM ε σ β} {b : β}
    (h : (action >>= k) s = .ok b s'') :
    ∃ a s', action s = .ok a s' ∧ k a s' = .ok b s'' := by
  rcases haction : action s with ⟨a, s'⟩ | ⟨e, s'⟩
  · rw [bind_of_eq_ok k haction] at h
    exact ⟨a, s', rfl, h⟩
  · change EStateM.bind action k s = _ at h
    rw [EStateM.bind, haction] at h
    cases h

theorem bind_eq_error {α β : Type} {action : EStateM ε σ α} {k : α → EStateM ε σ β} {e : ε}
    (h : (action >>= k) s = .error e s'') :
    action s = .error e s'' ∨ ∃ a s', action s = .ok a s' ∧ k a s' = .error e s'' := by
  rcases haction : action s with ⟨a, s'⟩ | ⟨e', s'⟩
  · rw [bind_of_eq_ok k haction] at h
    exact .inr ⟨a, s', rfl, h⟩
  · change EStateM.bind action k s = _ at h
    rw [EStateM.bind, haction] at h
    cases h
    exact .inl rfl

/-- A fetched operand was supplied by its own bytes. -/
theorem supplies_of_fetchOperand {shape : OperandShape} {operand : UInt16}
    (h : fetchOperand shape fetch s = .ok operand s') :
    Supplies fetch s (shape.bytes operand) s' := by
  cases shape with
  | none =>
    cases h
    exact .nil s
  | immediate =>
    obtain ⟨byte, s₁, hbyte, h⟩ := bind_eq_ok h
    cases h
    show Supplies fetch s [lowByte byte.toUInt16] s'
    rw [lowByte_toUInt16]
    exact .cons hbyte (.nil _)
  | address =>
    obtain ⟨high, s₁, hhigh, h⟩ := bind_eq_ok h
    obtain ⟨low, s₂, hlow, h⟩ := bind_eq_ok h
    cases h
    show Supplies fetch s [highByte (wordOfBytes high low), lowByte (wordOfBytes high low)] s'
    rw [highByte_wordOfBytes, lowByte_wordOfBytes]
    exact .cons hhigh (.cons hlow (.nil _))

/-- An operand that cannot be fetched is cut short: at its first byte, or at its second after
a first. -/
theorem supplies_of_fetchOperand_error {shape : OperandShape} {e : ε}
    (h : fetchOperand shape fetch s = .error e s'') :
    ∃ bytes s', bytes.length < shape.width ∧ Supplies fetch s bytes s' ∧
      fetch s' = .error e s'' := by
  cases shape with
  | none => cases h
  | immediate =>
    obtain h | ⟨byte, s₁, -, h⟩ := bind_eq_error h
    · exact ⟨[], s, Nat.one_pos, .nil s, h⟩
    · cases h
  | address =>
    obtain h | ⟨high, s₁, hhigh, h⟩ := bind_eq_error h
    · exact ⟨[], s, Nat.two_pos, .nil s, h⟩
    · obtain h | ⟨low, s₂, -, h⟩ := bind_eq_error h
      · exact ⟨[high], s₁, Nat.one_lt_two, .cons hhigh (.nil _), h⟩
      · cases h

/-- **A decoded instruction was supplied by its own encoding**, and has the opcode that its
first byte is assigned to. -/
theorem supplies_of_decodeWith {byte : UInt8} {i : Instruction}
    (h : decodeWith byte fetch s = .ok i s') :
    i.encode = byte :: i.operandBytes ∧ i.opcode? = Opcode.ofByte? byte ∧
      Supplies fetch s i.operandBytes s' := by
  unfold decodeWith at h
  rcases hop : Opcode.ofByte? byte with _ | op
  · rw [hop] at h
    cases h
    exact ⟨rfl, rfl, .nil s⟩
  · rw [hop] at h
    obtain ⟨operand, s₁, hfetch, h⟩ := bind_eq_ok h
    cases h
    have hopcode : (ofOperand op operand).opcode? = some op := by cases op <;> rfl
    rw [encode_of_opcode? hopcode, Opcode.byte_of_ofByte? hop, operandBytes_ofOperand]
    exact ⟨rfl, hopcode, supplies_of_fetchOperand hfetch⟩

/-- A decoding that fails does so at the first call of the fetch that fails, before all bytes
of the operand are there. -/
theorem supplies_of_decodeWith_error {byte : UInt8} {e : ε}
    (h : decodeWith byte fetch s = .error e s'') :
    ∃ op bytes s', Opcode.ofByte? byte = some op ∧ bytes.length < op.operand.width ∧
      Supplies fetch s bytes s' ∧ fetch s' = .error e s'' := by
  unfold decodeWith at h
  rcases hop : Opcode.ofByte? byte with _ | op
  · rw [hop] at h
    cases h
  · rw [hop] at h
    obtain h | ⟨operand, s₁, -, h⟩ := bind_eq_error h
    · obtain ⟨bytes, s', hlength, hsupply, hfail⟩ := supplies_of_fetchOperand_error h
      exact ⟨op, bytes, s', rfl, hlength, hsupply, hfail⟩
    · cases h

end Instruction

end VirtualPC
