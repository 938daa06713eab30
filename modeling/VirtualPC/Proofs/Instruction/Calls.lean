/-
VirtualPC/Proofs/Instruction/Calls.lean

How decoding calls its fetch.  Decoding takes any fetch, so the calls are counted by handing it one
that notes what each call came to:

    noting fetch      does what `fetch` does, and keeps a list of the outcomes of its calls

Noting makes no difference to what is decoded (`decodeWith_eq_unnoted`), and a noting fetch
supplies what the fetch beneath it supplies (`supplies_noting_iff`).  So what is known of a
decoding by its supply says which calls have been made.

Main result: behind an opcode byte the fetch is called once for each byte of the operand, or up to
the first call that fails (`calls_of_decodeWith`).
-/
import VirtualPC.Proofs.Instruction.Decoding

namespace VirtualPC.Instruction

variable {α ε σ : Type} {fetch : EStateM ε σ UInt8} {s s' s'' : σ} {byte : UInt8}
  {bytes : List UInt8} {i : Instruction} {e : ε} {before calls : List (Except ε UInt8)}

/-! ### Noting calls -/

/-- A fetch that notes what each call comes to. -/
def noting (fetch : EStateM ε σ UInt8) : EStateM ε (σ × List (Except ε UInt8)) UInt8 :=
  fun (s, calls) =>
    match fetch s with
    | .ok byte s' => .ok byte (s', calls ++ [.ok byte])
    | .error e s' => .error e (s', calls ++ [.error e])

/-- A result without the notes. -/
def unnoted : EStateM.Result ε (σ × List (Except ε UInt8)) α → EStateM.Result ε σ α
  | .ok a (s, _) => .ok a s
  | .error e (s, _) => .error e s

theorem noting_of_ok (h : fetch s = .ok byte s') :
    noting fetch (s, before) = .ok byte (s', before ++ [.ok byte]) := by
  simp only [noting, h]

theorem noting_of_error (h : fetch s = .error e s') :
    noting fetch (s, before) = .error e (s', before ++ [.error e]) := by
  simp only [noting, h]

theorem noting_eq_ok_iff :
    noting fetch (s, before) = .ok byte (s', calls) ↔
      fetch s = .ok byte s' ∧ calls = before ++ [.ok byte] := by
  rcases hfetch : fetch s with ⟨first, mid⟩ | ⟨e, mid⟩
  · rw [noting_of_ok hfetch]
    constructor
    · intro h
      cases h
      exact ⟨rfl, rfl⟩
    · rintro ⟨h, rfl⟩
      cases h
      rfl
  · simp [noting_of_error hfetch]

theorem noting_eq_error_iff :
    noting fetch (s, before) = .error e (s', calls) ↔
      fetch s = .error e s' ∧ calls = before ++ [.error e] := by
  rcases hfetch : fetch s with ⟨byte, mid⟩ | ⟨cause, mid⟩
  · simp [noting_of_ok hfetch]
  · rw [noting_of_error hfetch]
    constructor
    · intro h
      cases h
      exact ⟨rfl, rfl⟩
    · rintro ⟨h, rfl⟩
      cases h
      rfl

/-- A noting fetch supplies what the fetch does, and has noted it then. -/
theorem supplies_noting_iff :
    Supplies (noting fetch) (s, before) bytes (s', calls) ↔
      Supplies fetch s bytes s' ∧ calls = before ++ bytes.map .ok := by
  induction bytes generalizing s before with
  | nil =>
    rw [List.map_nil, List.append_nil]
    constructor
    · intro h
      cases h
      exact ⟨.nil _, rfl⟩
    · rintro ⟨h, rfl⟩
      cases h
      exact .nil _
  | cons byte bytes ih =>
    rw [List.map_cons, List.append_cons]
    constructor
    · rintro (_ | @⟨_, ⟨mid, noted⟩, _, _, _, hbyte, hrest⟩)
      obtain ⟨hfetch, rfl⟩ := noting_eq_ok_iff.1 hbyte
      obtain ⟨hsupply, rfl⟩ := ih.1 hrest
      exact ⟨.cons hfetch hsupply, rfl⟩
    · rintro ⟨_ | ⟨hbyte, hrest⟩, rfl⟩
      exact .cons (noting_of_ok hbyte) (ih.2 ⟨hrest, rfl⟩)

/-- Noting makes no difference to what is decoded. -/
theorem decodeWith_eq_unnoted (byte : UInt8) (fetch : EStateM ε σ UInt8) (s : σ)
    (before : List (Except ε UInt8)) :
    decodeWith byte fetch s = unnoted (decodeWith byte (noting fetch) (s, before)) := by
  rcases hnoted : decodeWith byte (noting fetch) (s, before) with ⟨i, s', calls⟩ | ⟨e, s', calls⟩
  · obtain ⟨hcanonical, hencode, hsupply⟩ := decodeWith_eq_ok_iff.1 hnoted
    exact decodeWith_eq_ok_iff.2 ⟨hcanonical, hencode, (supplies_noting_iff.1 hsupply).1⟩
  · obtain ⟨op, bytes, ⟨mid, midCalls⟩, hop, hlength, hsupply, hfail⟩ :=
      decodeWith_eq_error_iff.1 hnoted
    exact decodeWith_eq_error_iff.2 ⟨op, bytes, mid, hop, hlength,
      (supplies_noting_iff.1 hsupply).1, (noting_eq_error_iff.1 hfail).1⟩

/-! ### Operands -/

/-- The number of operand bytes behind a byte: those of the opcode it is assigned to. -/
def operandWidth (byte : UInt8) : Nat :=
  ((Opcode.ofByte? byte).map fun op => op.operand.width).getD 0

theorem length_operandBytes (i : Instruction) :
    i.operandBytes.length = (i.opcode?.map fun op => op.operand.width).getD 0 := by
  cases i <;> rfl

theorem Canonical.length_eq_operandWidth (h : i.Canonical) (hencode : i.encode = byte :: bytes) :
    bytes.length = operandWidth byte := by
  obtain ⟨first, hfirst, hopcode⟩ := h.encode_eq
  obtain ⟨rfl, rfl⟩ := List.cons.inj (hencode.symm.trans hfirst)
  rw [length_operandBytes, operandWidth, hopcode]

/-- With its operand bytes there, a byte shows the instruction that the two are the encoding
of. -/
theorem decodeAt_cons_eq_iff (hlength : bytes.length = operandWidth byte) :
    decodeAt (byte :: bytes) 0 = some i ↔ i.Canonical ∧ i.encode = byte :: bytes := by
  have hhead : decodeAt (byte :: bytes) 0 = some (decodeHead byte bytes) := rfl
  rw [hhead, Option.some.injEq]
  constructor
  · rintro rfl
    obtain ⟨hcanonical, happend⟩ := decodeHead_spec byte bytes
    obtain ⟨first, hfirst, -⟩ := hcanonical.encode_eq
    -- the operand is as long as what is there, so nothing is left and no zeros are added
    have hwidth : (decodeHead byte bytes).width = bytes.length + 1 := by
      rw [hfirst, List.cons_append] at happend
      obtain ⟨rfl, -⟩ := List.cons.inj happend
      rw [width_eq_length_operandBytes, hcanonical.length_eq_operandWidth hfirst, hlength]
    rw [hwidth, Nat.add_sub_cancel, List.drop_length, List.append_nil, Nat.sub_self,
      List.replicate_zero, List.append_nil] at happend
    exact ⟨hcanonical, happend⟩
  · rintro ⟨hcanonical, hencode⟩
    simpa using decodeHead_of_encode hcanonical hencode []

/-! ### The calls of a decoding -/

/-- **Decoding calls its fetch once for each operand byte**, and stops at the first call that
fails.  From a state in which nothing has been noted:

* it succeeds exactly where as many calls as the operand has bytes succeed; these are its calls,
  it leaves the state they leave, and its instruction is the one that the inspector shows in the
  byte followed by the fetched ones, which is one byte wider than calls were made;
* it fails exactly where a call before that fails; this is its last call, and the error and the
  state it leaves are those of this call;
* behind an unassigned byte it makes no call.

Without the notes the result is the same. -/
theorem calls_of_decodeWith (byte : UInt8) (fetch : EStateM ε σ UInt8) (s : σ) :
    (∀ i s' calls, decodeWith byte (noting fetch) (s, []) = .ok i (s', calls) ↔
      ∃ bytes, bytes.length = operandWidth byte ∧ Supplies fetch s bytes s' ∧
        calls = bytes.map .ok ∧ decodeAt (byte :: bytes) 0 = some i ∧
        i.width = 1 + bytes.length) ∧
    (∀ e s'' calls, decodeWith byte (noting fetch) (s, []) = .error e (s'', calls) ↔
      ∃ bytes s', bytes.length < operandWidth byte ∧ Supplies fetch s bytes s' ∧
        fetch s' = .error e s'' ∧ calls = bytes.map .ok ++ [.error e]) ∧
    (Opcode.ofByte? byte = none →
      decodeWith byte (noting fetch) (s, []) = .ok (unknown byte) (s, [])) ∧
    decodeWith byte fetch s = unnoted (decodeWith byte (noting fetch) (s, [])) := by
  refine ⟨fun i s' calls => ?_, fun e s'' calls => ?_, fun hunassigned => ?_,
    decodeWith_eq_unnoted byte fetch s []⟩
  · rw [decodeWith_eq_ok_iff, supplies_noting_iff, List.nil_append]
    constructor
    · rintro ⟨hcanonical, hencode, hsupply, hcalls⟩
      have hlength := hcanonical.length_eq_operandWidth hencode
      exact ⟨i.operandBytes, hlength, hsupply, hcalls,
        (decodeAt_cons_eq_iff hlength).2 ⟨hcanonical, hencode⟩,
        (width_eq_length_operandBytes i).trans (Nat.add_comm _ _)⟩
    · rintro ⟨bytes, hlength, hsupply, hcalls, hshown, -⟩
      obtain ⟨hcanonical, hencode⟩ := (decodeAt_cons_eq_iff hlength).1 hshown
      obtain ⟨first, hfirst, -⟩ := hcanonical.encode_eq
      obtain ⟨rfl, rfl⟩ := List.cons.inj (hencode.symm.trans hfirst)
      exact ⟨hcanonical, hencode, hsupply, hcalls⟩
  · rw [decodeWith_eq_error_iff]
    constructor
    · rintro ⟨op, bytes, ⟨mid, noted⟩, hop, hlength, hsupply, hfail⟩
      obtain ⟨hbytes, rfl⟩ := supplies_noting_iff.1 hsupply
      obtain ⟨hlast, rfl⟩ := noting_eq_error_iff.1 hfail
      refine ⟨bytes, mid, ?_, hbytes, hlast, rfl⟩
      rwa [operandWidth, hop]
    · rintro ⟨bytes, mid, hlength, hsupply, hfail, rfl⟩
      rcases hop : Opcode.ofByte? byte with _ | op
      · rw [operandWidth, hop] at hlength
        exact absurd hlength (Nat.not_lt_zero _)
      · rw [operandWidth, hop] at hlength
        exact ⟨op, bytes, (mid, bytes.map .ok), rfl, hlength,
          supplies_noting_iff.2 ⟨hsupply, rfl⟩, noting_of_error hfail⟩
  · exact decodeWith_eq_ok_iff.2 ⟨hunassigned, rfl, .nil _⟩

/-- A fetch that takes bytes off a list. -/
def takeByte : EStateM String (List UInt8) UInt8
  | [] => .error "no bytes left" []
  | byte :: rest => .ok byte rest

/-- A store gets both bytes of its address, or only one before the end of the list. -/
theorem store_from_list :
    decodeWith 0x02 (noting takeByte) ([0x12, 0x34, 0x56], [])
        = .ok (.store 0x1234) ([0x56], [.ok 0x12, .ok 0x34]) ∧
      decodeWith 0x02 (noting takeByte) ([0x12], [])
        = .error "no bytes left" ([], [.ok 0x12, .error "no bytes left"]) ∧
      decodeWith 0x08 (noting takeByte) ([0x12], []) = .ok (.unknown 0x08) ([0x12], []) :=
  ⟨((calls_of_decodeWith 0x02 takeByte [0x12, 0x34, 0x56]).1 _ _ _).2
      ⟨[0x12, 0x34], by decide, .cons rfl (.cons rfl (.nil _)), rfl, by decide, rfl⟩,
    ((calls_of_decodeWith 0x02 takeByte [0x12]).2.1 _ _ _).2
      ⟨[0x12], [], by decide, .cons rfl (.nil _), rfl, rfl⟩,
    (calls_of_decodeWith 0x08 takeByte [0x12]).2.2.1 (by decide)⟩

end VirtualPC.Instruction
