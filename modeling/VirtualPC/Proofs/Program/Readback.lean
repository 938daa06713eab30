/-
VirtualPC/Proofs/Program/Readback.lean

Reading an image back from its listing.  The text of an instruction is a label, the mnemonic
with a mark for the kind of operand, and the operand as a numeral,

    (ofOperand op w).text = op.label ++ op.operand.numeral w

and although labels are made of letters some of which are also digits, there is one way only to
take a text apart: a label ends in a character that is no digit, and a numeral has digits only
(`append_inj_of_numerals`).  Opcodes that share a mnemonic have different marks, so a text tells
its instruction (`text_injective`), and a line of a listing the address as well.

Main result: images of one length whose full listings are the same are the same, and listed at
the same base address (`window_eq_window_iff`).  The lengths matter, for an operand that breaks
off is listed as if zeros stood behind it.
-/
import VirtualPC.Proofs.Program.Paging

namespace VirtualPC

open Text

/-! ### Labels and numerals -/

/-- What stands between a mnemonic and an operand. -/
def OperandShape.mark : OperandShape → String
  | .none => ""
  | .immediate => " #"
  | .address => " "

/-- An operand as it is listed. -/
def OperandShape.numeral (operand : UInt16) : OperandShape → String
  | .none => ""
  | .immediate => hexByte (lowByte operand)
  | .address => hexWord operand

/-- The text of an instruction up to its operand. -/
def Opcode.label (op : Opcode) : String := op.mnemonic ++ op.operand.mark

/-- The label of a byte that stands for itself. -/
def dataLabel : String := "DB "

/-- A label ends in a character that is no digit. -/
def EndsLabel (chars : List Char) : Prop := chars.getLast?.all (· ∉ hexAlphabet) = true

instance (chars : List Char) : Decidable (EndsLabel chars) :=
  inferInstanceAs (Decidable (_ = true))

theorem Opcode.endsLabel (op : Opcode) : EndsLabel op.label.toList := by
  have hall : ∀ op ∈ Opcode.all, EndsLabel op.label.toList := by decide
  exact hall op op.mem_all

theorem Opcode.label_injective : Function.Injective Opcode.label := by
  have hall : ∀ a ∈ Opcode.all, ∀ b ∈ Opcode.all, a.label = b.label → a = b := by decide
  exact fun a b => hall a a.mem_all b b.mem_all

theorem Opcode.label_ne_dataLabel (op : Opcode) : op.label ≠ dataLabel := by
  have hall : ∀ op ∈ Opcode.all, op.label ≠ dataLabel := by decide
  exact hall op op.mem_all

theorem hexByte_subset (b : UInt8) : (hexByte b).toList ⊆ hexAlphabet := by
  rw [hexByte, String.toList_ofList]
  exact fun _ => mem_hexDigits

theorem OperandShape.numeral_subset (operand : UInt16) (shape : OperandShape) :
    (shape.numeral operand).toList ⊆ hexAlphabet := by
  cases shape with
  | none => exact List.nil_subset _
  | immediate => exact hexByte_subset _
  | address =>
    rw [numeral, hexWord, String.toList_ofList]
    exact fun _ => mem_hexDigits

/-- **There is one way to take a text apart** into a label and a numeral. -/
theorem append_inj_of_numerals {a b x y : List Char} (ha : EndsLabel a) (hb : EndsLabel b)
    (hx : x ⊆ hexAlphabet) (hy : y ⊆ hexAlphabet) (h : a ++ x = b ++ y) : a = b ∧ x = y := by
  -- what one label has beyond the other would be a part of a numeral
  have hnil {label rest numeral : List Char} (hlabel : EndsLabel (label ++ rest))
      (hnumeral : rest ++ numeral ⊆ hexAlphabet) : rest = [] := by
    by_contra hne
    have hlast : (label ++ rest).getLast? = some (rest.getLast hne) := by
      rw [List.getLast?_append_of_ne_nil _ hne, List.getLast?_eq_some_getLast hne]
    have hdigit : rest.getLast hne ∉ hexAlphabet := by
      rw [EndsLabel, hlast] at hlabel
      exact of_decide_eq_true hlabel
    exact hdigit (hnumeral (List.mem_append_left _ (List.getLast_mem hne)))
  rcases List.append_eq_append_iff.1 h with ⟨rest, rfl, rfl⟩ | ⟨rest, rfl, rfl⟩
  · obtain rfl := hnil hb hx
    exact ⟨(List.append_nil a).symm, rfl⟩
  · obtain rfl := hnil ha hy
    exact ⟨List.append_nil b, rfl⟩

namespace Instruction

variable {i : Instruction} {op : Opcode}

/-! ### Texts -/

/-- An instruction is an opcode with an operand, or a byte that stands for itself. -/
theorem eq_ofOperand_or_unknown (i : Instruction) :
    (∃ op operand, i = ofOperand op operand) ∨ ∃ byte, i = .unknown byte := by
  cases i with
  | nop => exact .inl ⟨.nop, 0, rfl⟩
  | loadImmediate value =>
    exact .inl ⟨.loadImmediate, value.toUInt16, by rw [ofOperand, lowByte_toUInt16]⟩
  | store address => exact .inl ⟨.store, address, rfl⟩
  | load address => exact .inl ⟨.load, address, rfl⟩
  | addImmediate value =>
    exact .inl ⟨.addImmediate, value.toUInt16, by rw [ofOperand, lowByte_toUInt16]⟩
  | subImmediate value =>
    exact .inl ⟨.subImmediate, value.toUInt16, by rw [ofOperand, lowByte_toUInt16]⟩
  | jump target => exact .inl ⟨.jump, target, rfl⟩
  | jumpIfZero target => exact .inl ⟨.jumpIfZero, target, rfl⟩
  | halt => exact .inl ⟨.halt, 0, rfl⟩
  | unknown byte => exact .inr ⟨byte, rfl⟩

theorem text_ofOperand (op : Opcode) (operand : UInt16) :
    (ofOperand op operand).text = op.label ++ op.operand.numeral operand := by
  cases op <;> simp [ofOperand, text, Opcode.label, Opcode.operand, OperandShape.mark,
    OperandShape.numeral, String.append_assoc]

theorem text_unknown (byte : UInt8) : (unknown byte).text = dataLabel ++ hexByte byte := rfl

/-- The numeral of an operand tells as much of it as the opcode takes. -/
theorem ofOperand_congr {v w : UInt16} (h : op.operand.numeral v = op.operand.numeral w) :
    ofOperand op v = ofOperand op w := by
  cases op with
  | nop => rfl
  | halt => rfl
  | loadImmediate => exact congrArg loadImmediate (hexByte_injective h)
  | addImmediate => exact congrArg addImmediate (hexByte_injective h)
  | subImmediate => exact congrArg subImmediate (hexByte_injective h)
  | store => exact congrArg store (hexWord_injective h)
  | load => exact congrArg load (hexWord_injective h)
  | jump => exact congrArg jump (hexWord_injective h)
  | jumpIfZero => exact congrArg jumpIfZero (hexWord_injective h)

/-- Equal texts have equal labels and equal numerals. -/
theorem text_append_inj {a b x y : String} (ha : EndsLabel a.toList) (hb : EndsLabel b.toList)
    (hx : x.toList ⊆ hexAlphabet) (hy : y.toList ⊆ hexAlphabet) (h : a ++ x = b ++ y) :
    a = b ∧ x = y := by
  rw [← String.toList_inj, String.toList_append, String.toList_append] at h
  obtain ⟨hlabel, hnumeral⟩ := append_inj_of_numerals ha hb hx hy h
  exact ⟨String.toList_inj.1 hlabel, String.toList_inj.1 hnumeral⟩

/-- **A text tells its instruction.** -/
theorem text_injective : Function.Injective text := by
  have hdata : EndsLabel dataLabel.toList := by decide
  intro i j h
  rcases i.eq_ofOperand_or_unknown with ⟨op, v, rfl⟩ | ⟨byte, rfl⟩
  · rw [text_ofOperand] at h
    rcases j.eq_ofOperand_or_unknown with ⟨op', w, rfl⟩ | ⟨byte', rfl⟩
    · rw [text_ofOperand] at h
      obtain ⟨hlabel, hnumeral⟩ := text_append_inj op.endsLabel op'.endsLabel
        (op.operand.numeral_subset v) (op'.operand.numeral_subset w) h
      obtain rfl := Opcode.label_injective hlabel
      exact ofOperand_congr hnumeral
    · rw [text_unknown] at h
      obtain ⟨hlabel, -⟩ := text_append_inj op.endsLabel hdata
        (op.operand.numeral_subset v) (hexByte_subset byte') h
      exact absurd hlabel op.label_ne_dataLabel
  · rw [text_unknown] at h
    rcases j.eq_ofOperand_or_unknown with ⟨op', w, rfl⟩ | ⟨byte', rfl⟩
    · rw [text_ofOperand] at h
      obtain ⟨hlabel, -⟩ := text_append_inj hdata op'.endsLabel (hexByte_subset byte)
        (op'.operand.numeral_subset w) h
      exact absurd hlabel.symm op'.label_ne_dataLabel
    · rw [text_unknown] at h
      obtain ⟨-, hnumeral⟩ := text_append_inj hdata hdata (hexByte_subset byte)
        (hexByte_subset byte') h
      rw [hexByte_injective hnumeral]

end Instruction

namespace Listing

open Instruction

variable {image image' : List UInt8} {base base' : UInt16} {count count' : Nat}

/-! ### Listings -/

/-- A line tells an address and an instruction. -/
theorem addressed_injective :
    Function.Injective fun entry : UInt16 × Instruction =>
      hexWord entry.1 ++ " " ++ entry.2.text := by
  rintro ⟨v, i⟩ ⟨w, j⟩ h
  have hchars : hexDigits v.toNat 4 ++ (" ".toList ++ i.text.toList)
      = hexDigits w.toNat 4 ++ (" ".toList ++ j.text.toList) := by
    simpa [hexWord, String.toList_append] using congrArg String.toList h
  obtain ⟨haddress, hrest⟩ := List.append_inj hchars
    (by rw [length_hexDigits, length_hexDigits])
  have hword : hexWord v = hexWord w := congrArg String.ofList haddress
  have htext : i.text = j.text := String.toList_inj.1 (List.append_cancel_left hrest)
  rw [hexWord_injective hword, text_injective htext]

/-- The instructions of an image with the addresses they are listed at. -/
def addressed (image : List UInt8) (base : UInt16) : List (UInt16 × Instruction) :=
  (sweep image).map fun entry => (base + UInt16.ofNat entry.1, entry.2)

theorem fullListing_eq (image : List UInt8) (base : UInt16) :
    fullListing image base
      = (addressed image base).map fun entry => hexWord entry.1 ++ " " ++ entry.2.text := by
  rw [addressed, List.map_map, fullListing, trail_eq_sweepFrom, List.drop_zero]
  simp only [← line_eq_lineAt]
  rfl

/-- The first instruction is listed at the base address. -/
theorem head?_addressed (hne : image ≠ []) (base : UInt16) :
    (addressed image base).head?.map Prod.fst = some base := by
  obtain ⟨byte, rest, rfl⟩ := List.exists_cons_of_ne_nil hne
  rw [addressed, sweep, Program.sweepFrom_cons, List.map_cons, List.head?_cons]
  simp

/-- Images of one length that are swept into the same instructions are the same: zeros that are
read for a missing operand stand behind both. -/
theorem eq_of_sweep (hlength : image.length = image'.length)
    (h : (sweep image).map Prod.snd = (sweep image').map Prod.snd) : image = image' := by
  obtain ⟨k, -, hencode, -⟩ := Program.encodeAll_sweepFrom 0 image
  obtain ⟨k', -, hencode', -⟩ := Program.encodeAll_sweepFrom 0 image'
  rw [sweep, sweep] at h
  rw [h, hencode'] at hencode
  exact (List.append_inj_left hencode hlength.symm).symm

/-- A window with room for as many lines as there are bytes is the full listing. -/
theorem window_eq_fullListing (hne : image ≠ []) (hcount : image.length ≤ count) :
    window image base 0 count = fullListing image base := by
  have hlength := length_fullListing_le image base
  have hshown : fullListing image base ≠ [] := by
    intro hnil
    rw [fullListing_eq, List.map_eq_nil_iff] at hnil
    have hhead := head?_addressed hne base
    rw [hnil] at hhead
    cases hhead
  rw [window_eq_slice hne, List.drop_zero, List.take_of_length_le (by omega), if_neg hshown]

/-- **A full listing determines the image.**  Take two images of one length, with any bytes at
all.  Listed from the start, with room for as many lines as they have bytes, they give the same
lines exactly if they are the same and the base addresses are. -/
theorem window_eq_window_iff (hne : image ≠ []) (hlength : image.length = image'.length)
    (hcount : image.length ≤ count) (hcount' : image'.length ≤ count') :
    window image base 0 count = window image' base' 0 count' ↔ base = base' ∧ image = image' := by
  have hne' : image' ≠ [] := by
    rw [← List.length_pos_iff, ← hlength]
    exact List.length_pos_iff.2 hne
  rw [window_eq_fullListing hne hcount, window_eq_fullListing hne' hcount']
  constructor
  · intro h
    rw [fullListing_eq, fullListing_eq] at h
    have haddressed := List.map_injective_iff.2 addressed_injective h
    refine ⟨?_, eq_of_sweep hlength ?_⟩
    · have hhead := congrArg (fun entries => entries.head?.map Prod.fst) haddressed
      simp only [head?_addressed hne, head?_addressed hne'] at hhead
      exact Option.some.inj hhead
    · have hinstructions := congrArg (List.map Prod.snd) haddressed
      simpa only [addressed, List.map_map, Function.comp_def] using hinstructions
  · rintro ⟨rfl, rfl⟩
    rfl

/-- Two loads of one mnemonic, the operand of the second broken off. -/
theorem loads_told_apart : ([0x01, 0x05] : List UInt8) ≠ [] ∧
    ([0x01, 0x05] : List UInt8).length = ([0x03, 0x05] : List UInt8).length ∧
    ([0x01, 0x05] : List UInt8).length ≤ 2 ∧ ([0x03, 0x05] : List UInt8).length ≤ 9 ∧
    window [0x01, 0x05] 0x8000 0 2 ≠ window [0x03, 0x05] 0x8000 0 9 := by
  have hiff : window [0x01, 0x05] 0x8000 0 2 = window [0x03, 0x05] 0x8000 0 9 ↔
      (0x8000 : UInt16) = 0x8000 ∧ ([0x01, 0x05] : List UInt8) = [0x03, 0x05] :=
    window_eq_window_iff (by decide) (by decide) (by decide) (by decide)
  exact ⟨by decide, by decide, by decide, by decide, mt hiff.1 (by decide)⟩

/-- Images of different lengths may be listed alike. -/
example : window [0x03, 0x05] 0 0 3 = window [0x03, 0x05, 0x00] 0 0 3 := by cbv

end Listing

end VirtualPC
