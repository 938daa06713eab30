/-
VirtualPC/Proofs/Files/Installing.lean

Installing the samples in a directory of a file tree.  Once the directory stands, each sample has
a slot in it (`slot`), and what is done for the sample depends on its slot alone: a taken one is
left as it is, a free one is filled with the image.  Over the samples this adds files in free
slots and nothing else, and leaves no slot free (`installMissing_of_fits`).

Main result: `installing_fills_free_slots`, what an attempt to install adds, lists and leaves
alone, for every tree and every name of a directory.  A sample can be among the directories on
the way to the name, as in `demo.bin/..`; if it is missing it is then created as a directory, and
its slot is taken (`demo_on_the_way`).
-/
import VirtualPC.Files.Install
import VirtualPC.Proofs.Files.Creation

namespace VirtualPC.Sample

open FileTree

variable {s s' : Sample} {t t' : FileTree} {dir : String} {samples : List Sample} {p : Path}
  {node : FileNode} {content : Content}

/-! ### File names -/

theorem isComponent_fileName (s : Sample) : Path.IsComponent s.fileName := by
  constructor <;> cases s <;> decide

theorem isDots_fileName (s : Sample) : isDots s.fileName = false := by
  cases s <;> decide

theorem fileName_le (s : Sample) : s.fileName.utf8ByteSize ≤ maxComponentBytes := by
  cases s <;> decide

theorem not_mem_nul_fileName (s : Sample) : '\x00' ∉ s.fileName.toList := by
  cases s <;> decide

theorem fileName_inj : s.fileName = s'.fileName ↔ s = s' := by
  cases s <;> cases s' <;> decide

/-! ### Slots -/

/-- Where the file of a sample is in a directory. -/
def slot (dir : String) (s : Sample) : Path := target (Path.join dir s.fileName)

/-- The name of the sample's file is short enough for the system. -/
def Fits (dir : String) (s : Sample) : Prop :=
  (Path.join dir s.fileName).utf8ByteSize ≤ maxNameBytes

instance (dir : String) (s : Sample) : Decidable (Fits dir s) :=
  inferInstanceAs (Decidable (_ ≤ _))

theorem start_join (dir : String) (s : Sample) :
    start (Path.join dir s.fileName) = start dir := by
  rw [start, start, Path.isAbsolute_join s.isComponent_fileName]

theorem slot_eq_enter (dir : String) (s : Sample) :
    slot dir s = enter (target dir) s.fileName := by
  rw [slot, target_eq_enter (Path.ofName_join s.isComponent_fileName), start_join]
  rfl

theorem slot_eq_append (dir : String) (s : Sample) : slot dir s = target dir ++ [s.fileName] :=
  (slot_eq_enter dir s).trans (enter_of_isDots_eq_false s.isDots_fileName)

theorem slot_inj : slot dir s = slot dir s' ↔ s = s' := by
  rw [slot_eq_append, slot_eq_append, List.append_cancel_left_eq, List.cons.injEq,
    fileName_inj, and_iff_left rfl]

theorem checkName_join (hnul : '\x00' ∉ dir.toList) (s : Sample) :
    checkName (Path.join dir s.fileName)
      = if Fits dir s then .ok () else .error .nameTooLong := by
  have hempty : (Path.join dir s.fileName).isEmpty = false :=
    Path.isEmpty_join s.isComponent_fileName
  have hnul : '\x00' ∉ (Path.join dir s.fileName).toList := by
    rw [Path.mem_join_iff (by decide), not_or]
    exact ⟨hnul, s.not_mem_nul_fileName⟩
  rw [checkName, hempty, if_neg Bool.false_ne_true, if_neg hnul]
  by_cases hfits : Fits dir s
  · rw [if_pos hfits, if_neg (Nat.not_lt.2 hfits)]
  · rw [if_neg hfits, if_pos (Nat.lt_of_not_le hfits)]

/-! ### Files in a directory that stands -/

theorem resolve_join (hstands : t.Stands dir) (hfits : Fits dir s) :
    t.resolve (Path.join dir s.fileName)
      = match t.lookup (slot dir s) with
        | none => .error .notFound
        | some node => .ok (slot dir s, node) := by
  have hcheck := checkName_join hstands.not_mem_nul s
  rw [if_pos hfits] at hcheck
  have hentry := t.entry_of_le (target dir) s.fileName_le
  rw [resolve_eq hcheck, start_join, Path.ofName_join s.isComponent_fileName,
    walk_append hstands.leads]
  have hwalk : t.walk (target dir) [s.fileName] = match t.lookup (slot dir s) with
      | none => .error .notFound
      | some node => .ok (slot dir s, node) := by
    rw [walk, hentry, ← slot_eq_enter]
    rcases t.lookup (slot dir s) with _ | _ | content <;> rfl
  rw [show follow (start dir) (Path.ofName dir) = target dir from rfl, hwalk,
    Path.endsWithSlash_join s.isComponent_fileName]
  rcases t.lookup (slot dir s) with _ | _ | content <;> rfl

theorem pathExists_join (hstands : t.Stands dir) (hfits : Fits dir s) :
    t.pathExists (Path.join dir s.fileName) = .ok (t.lookup (slot dir s)).isSome := by
  rw [pathExists, resolve_join hstands hfits]
  cases t.lookup (slot dir s) <;> rfl

theorem pathExists_join_of_not_fits (hstands : t.Stands dir) (hfits : ¬Fits dir s) :
    t.pathExists (Path.join dir s.fileName) = .error .nameTooLong := by
  have hcheck := checkName_join hstands.not_mem_nul s
  rw [if_neg hfits] at hcheck
  rw [pathExists, resolve_of_refused hcheck]

theorem writeFile_join (hstands : t.Stands dir) (hfits : Fits dir s)
    (hfree : t.lookup (slot dir s) = none) :
    t.writeFile (Path.join dir s.fileName) content
      = .ok (t.insert (slot dir s) (.file content)) := by
  have hcheck := checkName_join hstands.not_mem_nul s
  rw [if_pos hfits] at hcheck
  have hplace : t.place (Path.join dir s.fileName) = .ok (some (target dir, s.fileName)) := by
    refine place_eq_some_iff.2 ⟨hcheck, _, Path.ofName_join s.isComponent_fileName, ?_, ?_⟩
    · rw [start_join]
      exact hstands.leads
    · rw [start_join]
      rfl
  have hentry := t.entry_of_le (target dir) s.fileName_le
  rw [← slot_eq_enter, hfree] at hentry
  unfold writeFile
  simp only [bind, Except.bind, hplace, isDots_fileName,
    Path.endsWithSlash_join s.isComponent_fileName, Bool.or_false, Bool.false_eq_true, if_false,
    hentry, slot_eq_append]
  rfl

/-! ### Installing what is missing -/

/-- What a slot is filled with. -/
def installedFile (s : Sample) : FileNode := .file (.bytes s.installedImage)

/-- The nodes that are files of some of the samples, in their slots. -/
def Files (dir : String) (samples : List Sample) (p : Path) (node : FileNode) : Prop :=
  ∃ s ∈ samples, p = slot dir s ∧ node = s.installedFile

theorem Files.cons (h : Files dir samples p node) : Files dir (s :: samples) p node := by
  obtain ⟨s', hs', hfile⟩ := h
  exact ⟨s', List.mem_cons_of_mem s hs', hfile⟩

/-- A slot that was free and has been taken is filled. -/
theorem lookup_slot_of_taken (h : Grows (Files dir samples) t t')
    (hfree : t.lookup (slot dir s) = none) (htaken : t'.lookup (slot dir s) ≠ none) :
    t'.lookup (slot dir s) = some s.installedFile := by
  obtain heq | ⟨-, node, hnode, s', -, hs', rfl⟩ := h (slot dir s)
  · exact absurd (heq.trans hfree) htaken
  · rw [hnode, slot_inj.1 hs']

section Steps

variable {rest : List Sample} {result : Except FileError (List String)} (hstands : t.Stands dir)
include hstands

/-- A taken slot is left as it is. -/
theorem installMissing_of_taken (hfits : Fits dir s) (htaken : t.lookup (slot dir s) ≠ none) :
    (installMissing dir (s :: rest) : TreeAttempt (List String)) t
      = (installMissing dir rest : TreeAttempt (List String)) t := by
  have hasked : (FileStore.pathExists (Path.join dir s.fileName) : TreeAttempt Bool) t
      = (.ok true, t) := by
    show (t.pathExists _, t) = _
    rw [pathExists_join hstands hfits, Option.isSome_iff_ne_none.2 htaken]
  exact TreeAttempt.bind_of_ok _ hasked

/-- A free slot is filled, and the name goes in front of the list. -/
theorem installMissing_of_free (hfits : Fits dir s) (hfree : t.lookup (slot dir s) = none)
    (hrest : (installMissing dir rest : TreeAttempt (List String))
      (t.insert (slot dir s) s.installedFile) = (result, t')) :
    (installMissing dir (s :: rest) : TreeAttempt (List String)) t
      = (result.map (Path.join dir s.fileName :: ·), t') := by
  have hasked : (FileStore.pathExists (Path.join dir s.fileName) : TreeAttempt Bool) t
      = (.ok false, t) := by
    show (t.pathExists _, t) = _
    rw [pathExists_join hstands hfits, hfree]
    rfl
  have hwritten : (FileStore.writeFile (Path.join dir s.fileName) (.bytes s.installedImage)
      : TreeAttempt Unit) t = (.ok (), t.insert (slot dir s) s.installedFile) := by
    show t.attempt (t.writeFile _ _) = _
    rw [writeFile_join hstands hfits hfree]
    rfl
  refine (TreeAttempt.bind_of_ok _ hasked).trans ?_
  refine (TreeAttempt.bind_of_ok _ hwritten).trans ?_
  cases result with
  | error e => exact TreeAttempt.bind_of_error _ hrest
  | ok written => exact TreeAttempt.bind_of_ok _ hrest

/-- A name that is too long ends the installation. -/
theorem installMissing_of_not_fits (hfits : ¬Fits dir s) :
    (installMissing dir (s :: rest) : TreeAttempt (List String)) t = (.error .nameTooLong, t) := by
  have hasked : (FileStore.pathExists (Path.join dir s.fileName) : TreeAttempt Bool) t
      = (.error .nameTooLong, t) := by
    show (t.pathExists _, t) = _
    rw [pathExists_join_of_not_fits hstands hfits]
  exact TreeAttempt.bind_of_error _ hasked

end Steps

/-- Over taken slots nothing is written. -/
theorem installMissing_of_all_taken (hstands : t.Stands dir) (hfits : ∀ s ∈ samples, Fits dir s)
    (htaken : ∀ s ∈ samples, t.lookup (slot dir s) ≠ none) :
    (installMissing dir samples : TreeAttempt (List String)) t = (.ok [], t) := by
  induction samples with
  | nil => rfl
  | cons s rest ih =>
    rw [installMissing_of_taken hstands (hfits s List.mem_cons_self) (htaken s List.mem_cons_self)]
    exact ih (fun s hs => hfits s (List.mem_cons_of_mem _ hs))
      fun s hs => htaken s (List.mem_cons_of_mem _ hs)

/-- The names of the files of those samples whose slots are free. -/
def missingNames (t : FileTree) (dir : String) (samples : List Sample) : List String :=
  (samples.filter fun s => t.lookup (slot dir s) = none).map fun s => Path.join dir s.fileName

theorem missingNames_of_taken (htaken : t.lookup (slot dir s) ≠ none) :
    missingNames t dir (s :: samples) = missingNames t dir samples := by
  rw [missingNames, List.filter_cons_of_neg (by simpa using htaken)]
  rfl

theorem missingNames_of_free (hfree : t.lookup (slot dir s) = none) :
    missingNames t dir (s :: samples) = Path.join dir s.fileName :: missingNames t dir samples := by
  rw [missingNames, List.filter_cons_of_pos (by simpa using hfree)]
  rfl

/-- The slots of the other samples are as free as before. -/
theorem missingNames_insert (hfree : t.lookup (slot dir s) = none) (hs : s ∉ samples)
    (node : FileNode) :
    missingNames (t.insert (slot dir s) node) dir samples = missingNames t dir samples := by
  refine congrArg (List.map _) (List.filter_congr fun s' hs' => ?_)
  have hne : slot dir s' ≠ slot dir s := fun heq => hs (slot_inj.1 heq ▸ hs')
  rw [lookup_insert (not_prefix_home_of_lookup hfree), if_neg hne]

/-- **What is done for the samples**, if all names fit: files are added in free slots until none is
free, and their names are listed. -/
theorem installMissing_of_fits (hstands : t.Stands dir) (hnodup : samples.Nodup)
    (hfits : ∀ s ∈ samples, Fits dir s) :
    ∃ t', (installMissing dir samples : TreeAttempt (List String)) t
        = (.ok (missingNames t dir samples), t') ∧
      Grows (Files dir samples) t t' ∧ ∀ s ∈ samples, t'.lookup (slot dir s) ≠ none := by
  induction samples generalizing t with
  | nil => exact ⟨t, rfl, .refl _ t, nofun⟩
  | cons s rest ih =>
    obtain ⟨hs, hnodup⟩ := List.nodup_cons.1 hnodup
    obtain ⟨hfit, hfits⟩ := List.forall_mem_cons.1 hfits
    by_cases hfree : t.lookup (slot dir s) = none
    -- filling this slot leaves the other ones as they are, so the same names are still missing
    · have hinsert : Grows (Files dir (s :: rest)) t (t.insert (slot dir s) s.installedFile) :=
        .insert hfree ⟨s, List.mem_cons_self, rfl, rfl⟩
      obtain ⟨t', hrest, hgrows, htaken⟩ := ih (hstands.mono hinsert) hnodup hfits
      have hfilled := hgrows.lookup_eq_some (lookup_insert_self hfree s.installedFile)
      refine ⟨t', ?_, hinsert.trans (hgrows.mono fun _ _ => Files.cons),
        List.forall_mem_cons.2 ⟨by simp [hfilled], htaken⟩⟩
      rw [installMissing_of_free hstands hfit hfree hrest, missingNames_insert hfree hs,
        missingNames_of_free hfree]
      rfl
    · obtain ⟨t', hrest, hgrows, htaken⟩ := ih hstands hnodup hfits
      refine ⟨t', ?_, hgrows.mono fun _ _ => Files.cons,
        List.forall_mem_cons.2 ⟨hgrows.lookup_ne_none hfree, htaken⟩⟩
      rw [installMissing_of_taken hstands hfit hfree, hrest, missingNames_of_taken hfree]

/-- No name that is too long goes unnoticed. -/
theorem fits_of_installMissing {names : List String} (hstands : t.Stands dir)
    (h : (installMissing dir samples : TreeAttempt (List String)) t = (.ok names, t')) :
    ∀ s ∈ samples, Fits dir s := by
  induction samples generalizing t names with
  | nil => nofun
  | cons s rest ih =>
    by_cases hfit : Fits dir s
    swap
    · rw [installMissing_of_not_fits hstands hfit] at h
      cases h
    refine List.forall_mem_cons.2 ⟨hfit, ?_⟩
    by_cases hfree : t.lookup (slot dir s) = none
    · have hinsert : Grows (Files dir [s]) t (t.insert (slot dir s) s.installedFile) :=
        .insert hfree ⟨s, List.mem_cons_self, rfl, rfl⟩
      rcases hrest : (installMissing dir rest : TreeAttempt (List String))
        (t.insert (slot dir s) s.installedFile) with ⟨e | written, last⟩
      all_goals rw [installMissing_of_free hstands hfit hfree hrest] at h
      · cases h
      · exact ih (hstands.mono hinsert) (hrest.trans (congrArg _ (Prod.mk.inj h).2))
    · rw [installMissing_of_taken hstands hfit hfree] at h
      exact ih hstands h

/-! ### Installing -/

section Install

variable {names : List String} {e : FileError}

/-- The samples are seen to once the directory stands. -/
theorem install_of_created {left : FileTree}
    (hcreate : (FileStore.createDirectories dir : TreeAttempt Unit) t = (.ok (), left)) :
    (install dir : TreeAttempt (List String)) t
      = (installMissing dir all : TreeAttempt (List String)) left :=
  TreeAttempt.bind_of_ok _ hcreate

theorem install_of_refused {left : FileTree}
    (hcreate : (FileStore.createDirectories dir : TreeAttempt Unit) t = (.error e, left)) :
    (install dir : TreeAttempt (List String)) t = (.error e, left) :=
  TreeAttempt.bind_of_error _ hcreate

theorem nodup_all : all.Nodup := by decide

/-- What there is to a success: the directory has come to stand, and then the free slots in it
have been filled. -/
theorem of_install_ok (h : (install dir : TreeAttempt (List String)) t = (.ok names, t')) :
    ∃ left, Grows (Directories (OnWay dir)) t left ∧ left.Stands dir ∧
      Grows (Files dir all) left t' ∧ (∀ s ∈ all, Fits dir s) ∧
      (∀ s ∈ all, t'.lookup (slot dir s) ≠ none) ∧ names = missingNames left dir all := by
  obtain ⟨hgrows, hstands⟩ := FileStore.creates_createDirectories t dir
  rcases hcreate : (FileStore.createDirectories dir : TreeAttempt Unit) t with ⟨e | ⟨⟩, left⟩
  all_goals rw [hcreate] at hgrows hstands
  · rw [install_of_refused hcreate] at h
    cases h
  · rw [install_of_created hcreate] at h
    have hfits := fits_of_installMissing (hstands rfl) h
    obtain ⟨last, hinstalled, hfiles, htaken⟩ :=
      installMissing_of_fits (hstands rfl) nodup_all hfits
    obtain ⟨hnames, rfl⟩ := Prod.mk.inj (h.symm.trans hinstalled)
    exact ⟨left, hgrows, hstands rfl, hfiles, hfits, htaken, Except.ok.inj hnames⟩

/-- What is missing after the directory has come to stand was missing before, and not on its
way. -/
theorem missingNames_of_created {left : FileTree} (hgrows : Grows (Directories (OnWay dir)) t left)
    (hstands : left.Stands dir) : missingNames left dir samples
      = (samples.filter fun s => t.lookup (slot dir s) = none ∧ ¬OnWay dir (slot dir s)).map
        fun s => Path.join dir s.fileName := by
  simp only [missingNames, hstands.lookup_eq_none_iff hgrows]

/-- If all names fit, installing succeeds once the directory has come to stand. -/
theorem exists_install_eq_ok (dir : String) (t : FileTree)
    (hcreate : ((FileStore.createDirectories dir : TreeAttempt Unit) t).1 = .ok ())
    (hfits : ∀ s ∈ all, Fits dir s) :
    ∃ names t', (install dir : TreeAttempt (List String)) t = (.ok names, t') := by
  have hstands := (FileStore.creates_createDirectories t dir).2 hcreate
  obtain ⟨t', hinstalled, -⟩ := installMissing_of_fits hstands nodup_all hfits
  exact ⟨_, t', (install_of_created (Prod.ext hcreate rfl)).trans hinstalled⟩

/-- So it fails only where the creation of the directory does, and leaves what that leaves. -/
theorem createDirectories_of_install_error (hfits : ∀ s ∈ all, Fits dir s)
    (h : (install dir : TreeAttempt (List String)) t = (.error e, t')) :
    (FileStore.createDirectories dir : TreeAttempt Unit) t = (.error e, t') := by
  rcases hcreate : (FileStore.createDirectories dir : TreeAttempt Unit) t with ⟨cause | ⟨⟩, left⟩
  · rw [install_of_refused hcreate] at h
    cases h
    rfl
  · obtain ⟨names, last, hinstalled⟩ := exists_install_eq_ok dir t (congrArg Prod.fst hcreate) hfits
    rw [hinstalled] at h
    cases h

/-- A second installation finds all slots taken. -/
theorem install_again (hstands : t.Stands dir) (hfits : ∀ s ∈ all, Fits dir s)
    (htaken : ∀ s ∈ all, t.lookup (slot dir s) ≠ none) :
    (install dir : TreeAttempt (List String)) t = (.ok [], t) :=
  (install_of_created (FileStore.createDirectories_of_stands hstands)).trans
    (installMissing_of_all_taken hstands hfits htaken)

end Install

/-- **Installing the samples.**  After a success every file is as it was; each sample whose slot
was free has its image there, unless the slot is on the way to the directory, where there are
directories now; nothing else is new; the names are those of the files written; and a second
installation writes nothing.  A file on the way makes the installation fail.  Then all files are as
they were, as they are after every failure but for a name that is too long. -/
theorem installing_fills_free_slots (dir : String) (t : FileTree) :
    (∀ names t', (install dir : TreeAttempt (List String)) t = (.ok names, t') →
      (∀ p content, t.lookup p = some (.file content) → t'.lookup p = some (.file content)) ∧
      (∀ s ∈ all, t.lookup (slot dir s) = none → ¬OnWay dir (slot dir s) →
        t'.lookup (slot dir s) = some (.file (.bytes (s.image 0 0x8000)))) ∧
      (∀ p, OnWay dir p → t'.lookup p = some .directory) ∧
      (∀ p, t'.lookup p ≠ t.lookup p →
        t.lookup p = none ∧ (OnWay dir p ∨ ∃ s ∈ all, p = slot dir s)) ∧
      names = (all.filter fun s => t.lookup (slot dir s) = none ∧ ¬OnWay dir (slot dir s)).map
        (fun s => Path.join dir s.fileName) ∧
      (install dir : TreeAttempt (List String)) t' = (.ok [], t')) ∧
    (∀ p content, OnWay dir p → t.lookup p = some (.file content) →
      ∃ e t', (install dir : TreeAttempt (List String)) t = (.error e, t') ∧ ∀ p content,
        t'.lookup p = some (.file content) ↔ t.lookup p = some (.file content)) ∧
    ∀ e t', (install dir : TreeAttempt (List String)) t = (.error e, t') →
      (∀ s ∈ all, Fits dir s) → ∀ p content,
        t'.lookup p = some (.file content) ↔ t.lookup p = some (.file content) := by
  refine ⟨fun names t' hinstall => ?_, fun p content hp hfile => ?_, fun e t' hinstall hfits => ?_⟩
  · obtain ⟨left, hgrows, hstands, hfiles, hfits, htaken, rfl⟩ := of_install_ok hinstall
    have hfree : ∀ p, left.lookup p = none ↔ t.lookup p = none ∧ ¬OnWay dir p :=
      fun p => hstands.lookup_eq_none_iff hgrows
    have hstands' := hstands.mono hfiles
    refine ⟨fun p content hp => hfiles.lookup_eq_some (hgrows.lookup_eq_some hp),
      fun s hs hnone hway => lookup_slot_of_taken hfiles ((hfree _).2 ⟨hnone, hway⟩) (htaken s hs),
      fun p hp => hstands'.lookup_onWay hp, fun p hp => ?_, ?_,
      install_again hstands' hfits htaken⟩
    -- a path is new either since the directory was created, or since a slot was filled
    · obtain heq | ⟨hnone, -, -, s, hs, rfl, -⟩ := hfiles p
      · obtain heq' | ⟨hnone, -, -, hway, -⟩ := hgrows p
        · exact absurd (heq.trans heq') hp
        · exact ⟨hnone, .inl hway⟩
      · exact ⟨((hfree _).1 hnone).1, .inr ⟨s, hs, rfl⟩⟩
    · exact missingNames_of_created hgrows hstands
  · obtain ⟨e, hrefused⟩ := FileStore.createDirectories_of_file hp hfile
    exact ⟨e, _, install_of_refused (Prod.ext hrefused rfl), fun p content =>
      (FileStore.creates_createDirectories t dir).1.lookup_eq_file_iff⟩
  · have hgrows := (FileStore.creates_createDirectories t dir).1
    rw [createDirectories_of_install_error hfits hinstall] at hgrows
    exact fun p content => hgrows.lookup_eq_file_iff

/-- A tree with a directory in which a file has the name of a sample. -/
def keptTree : FileTree :=
  ⟨[(home ++ ["roms"], .directory), (home ++ ["roms", "demo.bin"], .file (.bytes [9]))]⟩

/-- The file is kept beside the samples, and also where it is asked for as the directory. -/
theorem install_beside_kept_file : ∃ t',
    (install "roms" : TreeAttempt (List String)) keptTree
        = (.ok ["roms/counter.bin", "roms/vram-fill.bin", "roms/pulse.bin",
            "roms/checkerboard.bin"], t') ∧
      t'.lookup (home ++ ["roms", "demo.bin"]) = some (.file (.bytes [9])) ∧
      t'.lookup (home ++ ["roms", "pulse.bin"]) = some (.file (.bytes (pulse.image 0 0x8000))) ∧
      (install "roms" : TreeAttempt (List String)) t' = (.ok [], t') ∧
      ∃ e t'', (install "roms/demo.bin" : TreeAttempt (List String)) t' = (.error e, t'') ∧
        t''.lookup (home ++ ["roms", "demo.bin"]) = some (.file (.bytes [9])) := by
  obtain ⟨names, t', hinstall⟩ := exists_install_eq_ok "roms" keptTree (by decide) (by decide)
  obtain ⟨hkept, hfilled, -, -, hnames, hagain⟩ :=
    (installing_fills_free_slots "roms" keptTree).1 names t' hinstall
  have hdemo := hkept (home ++ ["roms", "demo.bin"]) (.bytes [9]) (by decide)
  have hpulse := hfilled pulse (by decide) (by decide) (by decide)
  obtain ⟨e, t'', hrefused, -⟩ := (installing_fills_free_slots "roms/demo.bin" t').2.1
    (home ++ ["roms", "demo.bin"]) (.bytes [9]) (by decide) hdemo
  have hsame := (installing_fills_free_slots "roms/demo.bin" t').2.2 e t'' hrefused (by decide)
  have hlist : names = ["roms/counter.bin", "roms/vram-fill.bin", "roms/pulse.bin",
      "roms/checkerboard.bin"] := hnames.trans (by decide)
  have hslot : slot "roms" pulse = home ++ ["roms", "pulse.bin"] := by decide
  rw [hlist] at hinstall
  rw [hslot] at hpulse
  exact ⟨t', hinstall, hdemo, hpulse, hagain, e, t'', hrefused, (hsame _ _).2 hdemo⟩

/-- In `demo.bin/..` the sample `demo` is on the way: it is missing, and is created as a
directory. -/
theorem demo_on_the_way : ∃ t',
    (install "demo.bin/.." : TreeAttempt (List String)) FileTree.system
        = (.ok ["demo.bin/../counter.bin", "demo.bin/../vram-fill.bin", "demo.bin/../pulse.bin",
            "demo.bin/../checkerboard.bin"], t') ∧
      FileTree.system.lookup (slot "demo.bin/.." demo) = none ∧
      t'.lookup (slot "demo.bin/.." demo) = some .directory ∧
      t'.lookup (slot "demo.bin/.." demo) ≠ some (.file (.bytes (demo.image 0 0x8000))) := by
  obtain ⟨names, t', hinstall⟩ := exists_install_eq_ok "demo.bin/.." FileTree.system
    (by decide) (by decide)
  obtain ⟨left, hgrows, hstands, hfiles, -, -, hnames⟩ := of_install_ok hinstall
  have hway : OnWay "demo.bin/.." (slot "demo.bin/.." demo) := by decide
  have hdirectory := (hstands.mono hfiles).lookup_onWay hway
  have hlist : names = ["demo.bin/../counter.bin", "demo.bin/../vram-fill.bin",
      "demo.bin/../pulse.bin", "demo.bin/../checkerboard.bin"] :=
    (hnames.trans (missingNames_of_created hgrows hstands)).trans (by decide)
  rw [hlist] at hinstall
  have hmissing : FileTree.system.lookup (slot "demo.bin/.." demo) = none := by decide
  have hdemo : t'.lookup (slot "demo.bin/.." demo) ≠ some demo.installedFile := by
    rw [hdirectory]
    nofun
  exact ⟨t', hinstall, hmissing, hdirectory, hdemo⟩

end VirtualPC.Sample
