/-
VirtualPC/Proofs/Program/Paging.lean

Paging through a listing.  Decoding one instruction behind another finds the instructions of an
image with their offsets,

    trail image offset

and each of them has one line, the same in whatever window it is shown (`fullListing`): its
address of four digits, which goes round at 64 KiB, and its text.  A line is never mistaken for
the answer of a window that has nothing to show (`lineAt_ne_end`), so that answer tells where a
listing ends.

Main result: a window is a slice of the full listing, it never has more lines than the image
has bytes, and windows of one size, one behind another up to the first that shows nothing, are
the full listing again (`windows_page`).
-/
import VirtualPC.Proofs.Program.Listing
import VirtualPC.Proofs.Text.Digits

namespace VirtualPC.Listing

open Instruction Text

variable {image : List UInt8} {base : UInt16} {offset start count : Nat}

/-! ### The full listing -/

/-- The instructions found by decoding one behind another from an offset of an image on, each
with its offset. -/
def trail (image : List UInt8) (offset : Nat) : List (Nat × Instruction) :=
  match _h : decodeAt image offset with
  | none => []
  | some i => (offset, i) :: trail image (offset + i.width)
termination_by image.length - offset
decreasing_by
  have := Program.lt_length_of_decodeAt ‹decodeAt image offset = some i›
  have := i.width_pos
  omega

/-- The line of an instruction at an offset: its address in four digits, and its text. -/
def lineAt (base : UInt16) (offset : Nat) (i : Instruction) : String :=
  upperHex 4 ((base.toNat + offset) % 65536) ++ " " ++ i.text

/-- The lines of all instructions of an image. -/
def fullListing (image : List UInt8) (base : UInt16) : List String :=
  (trail image 0).map fun entry => lineAt base entry.1 entry.2

/-- The trail of an image from an offset on is the sweep of what is left there. -/
theorem trail_eq_sweepFrom (image : List UInt8) (offset : Nat) :
    trail image offset = sweepFrom offset (image.drop offset) := by
  fun_induction trail image offset with
  | case1 offset h =>
    rw [List.drop_eq_nil_iff.2 (Program.decodeAt_eq_none_iff.1 h), Program.sweepFrom_nil]
  | case2 offset i h ih => rw [Program.sweepFrom_drop h, ih]

theorem line_eq_lineAt (base : UInt16) (offset : Nat) (i : Instruction) :
    line base offset i = lineAt base offset i := by
  have haddress : (base + UInt16.ofNat offset).toNat = (base.toNat + offset) % 65536 := by
    rw [UInt16.toNat_add, UInt16.toNat_ofNat', Nat.add_mod_mod]
  rw [line, lineAt, hexWord_eq, haddress]

/-- The second character of a line is a digit of the address. -/
theorem lineAt_ne_end (base : UInt16) (offset : Nat) (i : Instruction) :
    lineAt base offset i ≠ "END OF ROM" := by
  intro h
  have haddress : "END OF ROM".toList.take 4
      = hexDigits (base + UInt16.ofNat offset).toNat 4 := by
    rw [← h, ← line_eq_lineAt, line, hexWord, String.toList_append, String.toList_append,
      String.toList_ofList, List.append_assoc, List.take_left' (length_hexDigits _ _)]
  have hmem : 'N' ∈ hexDigits (base + UInt16.ofNat offset).toNat 4 := by
    rw [← haddress]
    decide
  exact absurd (mem_hexDigits hmem) (by decide)

theorem length_sweepFrom_le (offset : Nat) (part : List UInt8) :
    (sweepFrom offset part).length ≤ part.length := by
  fun_induction sweepFrom offset part with
  | case1 offset => exact Nat.le_refl 0
  | case2 offset byte rest i ih =>
    rw [List.length_drop] at ih
    rw [List.length_cons, List.length_cons]
    omega

/-- Each line takes a byte at least. -/
theorem length_fullListing_le (image : List UInt8) (base : UInt16) :
    (fullListing image base).length ≤ image.length := by
  rw [fullListing, List.length_map, trail_eq_sweepFrom, List.drop_zero]
  exact length_sweepFrom_le 0 image

theorem ne_end_of_mem_fullListing {shown : String} (h : shown ∈ fullListing image base) :
    shown ≠ "END OF ROM" := by
  obtain ⟨entry, -, rfl⟩ := List.mem_map.1 h
  exact lineAt_ne_end base entry.1 entry.2

/-! ### Windows -/

/-- **A window is a slice of the full listing.** -/
theorem window_eq_slice (hne : image ≠ []) (base : UInt16) (start count : Nat) :
    window image base start count
      = if ((fullListing image base).drop start).take count = [] then ["END OF ROM"]
        else ((fullListing image base).drop start).take count := by
  have hlisting : fullListing image base
      = (sweep image).map fun entry => line base entry.1 entry.2 := by
    simp only [fullListing, trail_eq_sweepFrom, List.drop_zero, line_eq_lineAt, sweep]
  rw [window_of_ne_nil base start count hne, hlisting, ← List.map_drop, ← List.map_take]
  simp only [List.map_eq_nil_iff]

/-- A window says that there is nothing to show exactly if it has nothing to show. -/
theorem window_eq_end_iff (hne : image ≠ []) :
    window image base start count = ["END OF ROM"] ↔
      ((fullListing image base).drop start).take count = [] := by
  rw [window_eq_slice hne]
  split
  · simp only [*]
  · rename_i hshown
    refine iff_of_false (fun hend => ?_) hshown
    have hmem : "END OF ROM" ∈ ((fullListing image base).drop start).take count := by
      rw [hend]
      exact List.mem_singleton_self _
    exact ne_end_of_mem_fullListing (List.mem_of_mem_drop (List.mem_of_mem_take hmem)) rfl

/-! ### Pages -/

/-- Slices of one size, one behind another, make up the beginning of a list. -/
theorem flatMap_slices {α : Type} (lines : List α) (count pages : Nat) :
    (List.range pages).flatMap (fun k => (lines.drop (k * count)).take count)
      = lines.take (pages * count) := by
  induction pages with
  | zero => simp
  | succ pages ih =>
    rw [List.range_succ, List.flatMap_append, ih, Nat.succ_mul, List.take_add]
    simp

/-- There is a first slice with nothing in it. -/
theorem exists_pages {α : Type} (lines : List α) (hcount : 0 < count) :
    ∃ pages, lines.length ≤ pages * count ∧ ∀ k < pages, k * count < lines.length := by
  refine ⟨(lines.length + count - 1) / count, ?_, fun k hk => ?_⟩
  · have hdiv := Nat.lt_div_mul_add (a := lines.length + count - 1) hcount
    omega
  · have hpage : (k + 1) * count ≤ lines.length + count - 1 :=
      (Nat.le_div_iff_mul_le hcount).1 hk
    rw [Nat.succ_mul] at hpage
    omega

/-- **Windows page through the full listing.**  Take an image that has any bytes, and its full
listing.  A window shows the lines behind the first `start` and of these at most `count`; if
that leaves none, it says `END OF ROM` and nothing else.  It never has more lines than the image
has bytes.  Windows of one size, each beginning where the one before it ends, say `END OF ROM`
in the end, and those before the first that does are the full listing, no line of it lost or
repeated. -/
theorem windows_page (base : UInt16) (hne : image ≠ []) :
    (∀ start count, window image base start count
      = if ((fullListing image base).drop start).take count = [] then ["END OF ROM"]
        else ((fullListing image base).drop start).take count) ∧
    (∀ start count, (window image base start count).length ≤ image.length) ∧
    ∀ count, 0 < count → ∃ pages,
      window image base (pages * count) count = ["END OF ROM"] ∧
      (∀ k < pages, window image base (k * count) count ≠ ["END OF ROM"]) ∧
      (List.range pages).flatMap (fun k => window image base (k * count) count)
        = fullListing image base := by
  refine ⟨window_eq_slice hne base, fun start count => ?_, fun count hcount => ?_⟩
  · rw [window_eq_slice hne]
    split
    · exact List.length_pos_iff.2 hne
    · have hlength := length_fullListing_le image base
      rw [List.length_take, List.length_drop]
      omega
  · obtain ⟨pages, hend, hbefore⟩ := exists_pages (fullListing image base) hcount
    have hshown : ∀ k < pages, ((fullListing image base).drop (k * count)).take count ≠ [] := by
      intro k hk
      have hstart := hbefore k hk
      rw [← List.length_pos_iff, List.length_take, List.length_drop]
      omega
    refine ⟨pages, ?_, fun k hk => ?_, ?_⟩
    · rw [window_eq_end_iff hne, List.drop_eq_nil_of_le hend, List.take_nil]
    · exact mt (window_eq_end_iff hne).1 (hshown k hk)
    · have hslices := flatMap_slices (fullListing image base) count pages
      rw [List.take_of_length_le hend] at hslices
      rw [← hslices]
      refine List.flatMap_congr fun k hk => ?_
      rw [window_eq_slice hne, if_neg (hshown k (List.mem_range.1 hk))]

/-- A program that straddles the end of the guest space and breaks off in its last operand:
five lines, so pages of two end with a page of one. -/
theorem windows_page_straddling :
    ([0x01, 0x05, 0x42, 0x00, 0x07, 0x01, 0x02, 0x90] : List UInt8) ≠ [] ∧
    window [0x01, 0x05, 0x42, 0x00, 0x07, 0x01, 0x02, 0x90] 0xFFFD 2 2
      = ["0000 NOP", "0001 SUB #01"] ∧
    window [0x01, 0x05, 0x42, 0x00, 0x07, 0x01, 0x02, 0x90] 0xFFFD 4 2 = ["0003 STA 9000"] ∧
    window [0x01, 0x05, 0x42, 0x00, 0x07, 0x01, 0x02, 0x90] 0xFFFD 6 2 = ["END OF ROM"] := by
  have hne : ([0x01, 0x05, 0x42, 0x00, 0x07, 0x01, 0x02, 0x90] : List UInt8) ≠ [] := by decide
  have hlisting : fullListing [0x01, 0x05, 0x42, 0x00, 0x07, 0x01, 0x02, 0x90] 0xFFFD
      = ["FFFD LDA #05", "FFFF DB 42", "0000 NOP", "0001 SUB #01", "0003 STA 9000"] := by
    cbv
  obtain ⟨hslice, -⟩ := windows_page 0xFFFD hne
  refine ⟨hne, ?_, ?_, ?_⟩
  · rw [hslice, hlisting]
    rfl
  · rw [hslice, hlisting]
    rfl
  · rw [hslice, hlisting]
    rfl

end VirtualPC.Listing
