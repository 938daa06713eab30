/-
VirtualPC/Proofs/Machine/SampleLayouts.lean

Which names a machine refuses to load.  What a sample asks of a layout depends on what it
draws and on the length of its image.  A layout lacks room for a name (`Config.LacksRoom`) in
four cases:

    unknown   no sample has the name, with or without `.bin`
    window    the window holds fewer bytes than the sample draws
    drawn     a byte that the sample draws is out of the reach of 16-bit addresses
    image     the image does not fit in RAM at the load address

The loader asks for more: it wants the start of the window within reach even for a sample
that draws nothing.  Such a sample has room and is refused where the window starts at 64 KiB
or above (`Config.Sidelines`).  Main result: apart from that, a name is refused exactly where
there is no room, and the image that is loaded is the one for the layout
(`loadSample_refused_iff`).
-/
import VirtualPC.Proofs.Machine.Layout
import VirtualPC.Proofs.Machine.SampleRuns

namespace VirtualPC

namespace Sample

variable {name : String} {s : Sample}

/-! ### Names -/

/-- The names that a sample is loaded by: its own, and that of its file. -/
def Named (s : Sample) (name : String) : Prop :=
  name = s.name ∨ name = s.fileName

/-- A name loses one ending or is left alone. -/
theorem stem_cases (name : String) : stem name = name ∨ stem name ++ ".bin" = name := by
  simp only [stem]
  split
  · next hending =>
    obtain ⟨front, hfront⟩ := List.isSuffixOf_iff_suffix.1 hending
    right
    apply String.toList_injective
    rw [String.toList_append, String.toList_ofList, ← hfront, List.length_append,
      Nat.add_sub_cancel, List.take_left]
  · exact .inl rfl

theorem find?_fileName (s : Sample) : find? s.fileName = some s := by
  cases s <;> decide

/-- A sample is found by its names and by no others. -/
theorem find?_eq_some_iff : find? name = some s ↔ s.Named name := by
  constructor
  · intro h
    rw [find?] at h
    have hname : s.name = stem name := by simpa using List.find?_some h
    obtain hstem | hstem := stem_cases name
    · exact .inl (hname.trans hstem).symm
    · right
      rw [← hstem, ← hname]
      rfl
  · rintro (rfl | rfl)
    · exact find?_name s
    · exact find?_fileName s

theorem find?_eq_none_iff : find? name = none ↔ ∀ s : Sample, ¬ s.Named name := by
  rw [Option.eq_none_iff_forall_ne_some]
  simp only [ne_eq, find?_eq_some_iff]

theorem Named.unique {s' : Sample} (h : s.Named name) (h' : s'.Named name) : s' = s := by
  rw [← find?_eq_some_iff] at h h'
  exact Option.some.inj (h'.symm.trans h)

/-! ### What a sample asks for -/

/-- The image of a sample for a layout.  Both addresses are taken modulo 64 KiB. -/
def imageFor (s : Sample) (c : Config) : List UInt8 :=
  s.image (UInt16.ofNat c.loadAddress) (UInt16.ofNat c.vramStart)

theorem vramBytes_le (s : Sample) : s.vramBytes ≤ 512 := by
  cases s <;> decide

end Sample

namespace Config

variable {c : Config} {name : String} {s : Sample}

/-- The layout has no room for a sample of the name. -/
inductive LacksRoom (c : Config) (name : String) : Prop
  | unknown (h : ∀ s : Sample, ¬ s.Named name)
  | window {s : Sample} (hname : s.Named name) (h : c.width * c.height < s.vramBytes)
  | drawn {s : Sample} {i : Nat} (hname : s.Named name) (hi : i < s.vramBytes)
      (h : 0xFFFF < c.vramStart + i)
  | image {s : Sample} (hname : s.Named name)
      (h : c.ramSize < c.loadAddress + (s.imageFor c).length)

/-- The name is that of a sample which draws nothing and whose image fits, and the window
starts out of the reach of 16-bit addresses. -/
def Sidelines (c : Config) (name : String) : Prop :=
  ∃ s : Sample, s.Named name ∧ s.vramBytes = 0 ∧ guestSpace ≤ c.vramStart ∧
    c.loadAddress + (s.imageFor c).length ≤ c.ramSize

/-- Of the bytes that a sample draws the last one is the first to get out of reach. -/
theorem lacksRoom_iff (hname : s.Named name) :
    c.LacksRoom name ↔ c.width * c.height < s.vramBytes ∨
      (0 < s.vramBytes ∧ guestSpace < c.vramStart + s.vramBytes) ∨
      c.ramSize < c.loadAddress + (s.imageFor c).length := by
  constructor
  · intro h
    cases h with
    | unknown h => exact absurd hname (h s)
    | window hname' h =>
      obtain rfl := hname.unique hname'
      exact .inl h
    | drawn hname' hi h =>
      obtain rfl := hname.unique hname'
      unfold guestSpace
      exact .inr (.inl (by omega))
    | image hname' h =>
      obtain rfl := hname.unique hname'
      exact .inr (.inr h)
  · rintro (h | ⟨hdraws, h⟩ | h)
    · exact .window hname h
    · unfold guestSpace at h
      exact .drawn hname (Nat.sub_one_lt_of_lt hdraws) (by omega)
    · exact .image hname h

theorem sidelines_iff (hname : s.Named name) :
    c.Sidelines name ↔ s.vramBytes = 0 ∧ guestSpace ≤ c.vramStart ∧
      c.loadAddress + (s.imageFor c).length ≤ c.ramSize := by
  constructor
  · rintro ⟨s', hname', h⟩
    obtain rfl := hname.unique hname'
    exact h
  · intro h
    exact ⟨s, hname, h⟩

/-- Where a sample is sidelined, there is room for it. -/
theorem Sidelines.not_lacksRoom (h : c.Sidelines name) : ¬ c.LacksRoom name := by
  obtain ⟨s, hname, hdraws, -, hfits⟩ := h
  rw [lacksRoom_iff hname]
  omega

end Config

namespace Machine

variable {c : Config} {m after : Machine} {name : String} {s : Sample}

/-! ### The loader -/

/-- The loader wants the start of the window within reach, whatever the sample draws. -/
theorem loadSample_out_of_reach (hname : s.Named name)
    (hlength : s.vramBytes ≤ m.config.vramLength) (hstart : guestSpace ≤ m.config.vramStart) :
    m.loadSample name = .error (.vramNotGuestAddressable m.config.vramStart) := by
  simp only [loadSample, Sample.find?_eq_some_iff.2 hname]
  rw [if_neg (Nat.not_lt.2 hlength), if_pos (.inl hstart)]

/-- A sample is loaded exactly if the window and the image pass the checks of the loader. -/
theorem exists_loadSample_iff (hm : create c = .ok m) (ops : List Operation)
    (hname : s.Named name) :
    (∃ after, (m.applyAll ops).2.loadSample name = .ok after) ↔
      s.vramBytes ≤ c.width * c.height ∧ c.vramStart < guestSpace ∧
      c.vramStart + s.vramBytes ≤ guestSpace ∧
      c.loadAddress + (s.imageFor c).length ≤ c.ramSize := by
  have hfind := Sample.find?_eq_some_iff.2 hname
  obtain ⟨hconfig, hsize, -⟩ := layout_of_create hm ops
  -- no sample draws as much as a window whose length is capped holds
  have hlength : s.vramBytes ≤ c.vramLength ↔ s.vramBytes ≤ c.width * c.height := by
    have hle := s.vramBytes_le
    have hlimit : 512 ≤ sizeLimit - 1 := by decide
    rw [Config.vramLength_eq_min]
    omega
  constructor
  · rintro ⟨after, hload⟩
    obtain ⟨found, hfound, hwindow, hstart, hdrawn, hload⟩ := loadSample_eq_ok_iff.1 hload
    obtain rfl : found = s := Option.some.inj (hfound.symm.trans hfind)
    obtain ⟨ram, hram, -⟩ := loadProgram_eq_ok_iff.1 hload
    have hfits := Ram.fits_of_writeBlock hram
    rw [hsize, hconfig] at hfits
    rw [hconfig] at hwindow hstart hdrawn
    exact ⟨hlength.1 hwindow, hstart, hdrawn, hfits⟩
  · rintro ⟨hwindow, hstart, hdrawn, hfits⟩
    exact exists_loadSample hm ops hfind (hlength.2 hwindow) hstart hdrawn hfits

theorem exists_error_iff (m : Machine) (name : String) :
    (∃ cause, m.loadSample name = .error cause) ↔
      ¬ ∃ after, m.loadSample name = .ok after := by
  rcases m.loadSample name with cause | after
  · simp
  · simp

/-- A name is refused for want of room, or because a window that is not drawn to is out of
reach. -/
theorem loadSample_fails_iff (hm : create c = .ok m) (ops : List Operation) (name : String) :
    (∃ cause, (m.applyAll ops).2.loadSample name = .error cause) ↔
      c.LacksRoom name ∨ c.Sidelines name := by
  by_cases hnamed : ∃ s : Sample, s.Named name
  · obtain ⟨s, hname⟩ := hnamed
    rw [exists_error_iff, exists_loadSample_iff hm ops hname, Config.lacksRoom_iff hname,
      Config.sidelines_iff hname]
    omega
  · have hunknown : ∀ s : Sample, ¬ s.Named name := fun s hname => hnamed ⟨s, hname⟩
    constructor
    · intro _
      exact .inl (.unknown hunknown)
    · intro _
      simp only [loadSample, Sample.find?_eq_none_iff.2 hunknown]
      exact ⟨_, rfl⟩

theorem loadSample_of_sidelines (hm : create c = .ok m) (ops : List Operation)
    (h : c.Sidelines name) :
    (m.applyAll ops).2.loadSample name = .error (.vramNotGuestAddressable c.vramStart) := by
  obtain ⟨s, hname, hdraws, hstart, -⟩ := h
  obtain ⟨hconfig, -⟩ := layout_of_create hm ops
  rw [← hconfig] at hstart ⊢
  exact loadSample_out_of_reach hname (hdraws ▸ Nat.zero_le _) hstart

theorem rom_of_loadSample (h : m.loadSample name = .ok after) :
    ∃ s : Sample, s.Named name ∧ after.rom = s.imageFor m.config := by
  obtain ⟨s, hfind, -, -, -, hload⟩ := loadSample_eq_ok_iff.1 h
  obtain ⟨ram, -, rfl⟩ := loadProgram_eq_ok_iff.1 hload
  exact ⟨s, Sample.find?_eq_some_iff.1 hfind, rfl⟩

/-- **A name is refused exactly where there is no room for its sample, unless the sample is
sidelined.**  Take a machine with any history and any name.  Where the layout does not
sideline the sample, loading it fails exactly if the layout lacks room for the name.  Where it
does, there is room and the window is reported as out of reach.  A name that is loaded leaves
behind the image of its sample for the layout. -/
theorem loadSample_refused_iff (c : Config) (m : Machine) (hm : create c = .ok m)
    (ops : List Operation) (name : String) :
    let last := (m.applyAll ops).2
    (¬ c.Sidelines name →
      ((∃ cause, last.loadSample name = .error cause) ↔ c.LacksRoom name)) ∧
    (c.Sidelines name → ¬ c.LacksRoom name ∧
      last.loadSample name = .error (.vramNotGuestAddressable c.vramStart)) ∧
    ∀ after, last.loadSample name = .ok after →
      ∃ s : Sample, s.Named name ∧ after.rom = s.imageFor c := by
  intro last
  refine ⟨?_, ?_, ?_⟩
  · intro hside
    rw [loadSample_fails_iff hm ops name, or_iff_left hside]
  · intro h
    exact ⟨h.not_lacksRoom, loadSample_of_sidelines hm ops h⟩
  · intro after hload
    rw [← (layout_of_create hm ops).1]
    exact rom_of_loadSample hload

/-- The window is the last byte within reach. -/
def brimming : Config where
  vramStart := 0xFFFF
  width := 1
  height := 1

theorem pulse_loaded_brimming : ∃ m after, create brimming = .ok m ∧
    (m.applyAll [.write 0 7, .tick]).2.loadSample "pulse.bin" = .ok after ∧
    after.rom = Sample.pulse.imageFor brimming := by
  obtain ⟨m, hm⟩ : ∃ m, create brimming = .ok m := ⟨_, rfl⟩
  have hname : Sample.pulse.Named "pulse.bin" := .inr rfl
  obtain ⟨hrefused, -, hrom⟩ :=
    loadSample_refused_iff brimming m hm [.write 0 7, .tick] "pulse.bin"
  have hroom : ¬ brimming.LacksRoom "pulse.bin" := by
    rw [Config.lacksRoom_iff hname]
    decide
  have hside : ¬ brimming.Sidelines "pulse.bin" := by
    rw [Config.sidelines_iff hname]
    decide
  obtain ⟨after, hload⟩ : ∃ after, (m.applyAll [.write 0 7, .tick]).2.loadSample "pulse.bin"
      = .ok after := by
    apply Classical.byContradiction
    intro h
    exact hroom ((hrefused hside).1 ((exists_error_iff _ _).2 h))
  obtain ⟨s, hname', himage⟩ := hrom after hload
  obtain rfl := hname.unique hname'
  exact ⟨m, after, hm, hload, himage⟩

/-- The window is just out of reach. -/
def lofty : Config where
  ramSize := 0x20000
  vramStart := 0x10000

/-- **A sample that draws nothing can be refused for where the window is.** -/
theorem demo_sidelined : ∃ m, create lofty = .ok m ∧
    m.loadSample "demo" = .error (.vramNotGuestAddressable 0x10000) ∧
    ¬ lofty.LacksRoom "demo" := by
  obtain ⟨m, hm⟩ : ∃ m, create lofty = .ok m := ⟨_, rfl⟩
  have h : lofty.Sidelines "demo" := ⟨.demo, .inl rfl, rfl, by decide, by decide⟩
  exact ⟨m, hm, loadSample_of_sidelines hm [] h, h.not_lacksRoom⟩

end Machine

end VirtualPC
