/-
VirtualPC/Proofs/Files/Creation.lean

Creating a directory together with those above it, on a file tree.  An attempt is described by
what it adds and by what holds if it succeeds:

    Creates paths goal t x   from `t`, `x` adds only directories at `paths`, and if it succeeds
                             then `goal` holds of the tree it leaves

The description of a whole attempt is put together from those of its parts (`Creates.bind`,
`Creates.tryCatch`), down to the creation of a single directory.  So whatever comes of it, the
tree grows only by directories on the way to the name, and after a success the directory of the
name stands (`creates_createDirectories`).  Where it stands, a further attempt finds nothing to
do (`createDirectories_of_stands`), and where a file is on the way, every attempt fails
(`createDirectories_of_file`).
-/
import VirtualPC.Files.Directory
import VirtualPC.Proofs.Files.Walks

namespace VirtualPC

/-- An attempt on a file tree: it gives a result or fails, and leaves a tree. -/
abbrev TreeAttempt (α : Type) : Type := ExceptT FileError (StateM FileTree) α

namespace TreeAttempt

variable {α β : Type} {x : TreeAttempt α} {t t' : FileTree} {a : α} {e : FileError}

/-- What has succeeded hands over to what follows. -/
theorem bind_of_ok (f : α → TreeAttempt β) (h : x t = (.ok a, t')) : (x >>= f) t = f a t' := by
  simp only [bind, ExceptT.bind, ExceptT.mk, StateT.bind, h, ExceptT.bindCont]

/-- Nothing follows a failure. -/
theorem bind_of_error (f : α → TreeAttempt β) (h : x t = (.error e, t')) :
    (x >>= f) t = (.error e, t') := by
  simp only [bind, ExceptT.bind, ExceptT.mk, StateT.bind, h, ExceptT.bindCont]
  rfl

/-- What has succeeded is left at that. -/
theorem tryCatch_of_ok (f : FileError → TreeAttempt α) (h : x t = (.ok a, t')) :
    (tryCatch x f : TreeAttempt α) t = (.ok a, t') := by
  simp only [tryCatch, tryCatchThe, MonadExceptOf.tryCatch, ExceptT.tryCatch, ExceptT.mk, bind,
    StateT.bind, h]
  rfl

/-- After a failure it goes on from the tree that is left. -/
theorem tryCatch_of_error (f : FileError → TreeAttempt α) (h : x t = (.error e, t')) :
    (tryCatch x f : TreeAttempt α) t = f e t' := by
  simp only [tryCatch, tryCatchThe, MonadExceptOf.tryCatch, ExceptT.tryCatch, ExceptT.mk, bind,
    StateT.bind, h]

end TreeAttempt

namespace FileTree

variable {t t' : FileTree} {name : String} {p : Path} {content : Content}
  {paths : Path → Prop} {goal goal' : FileTree → Prop} {x y : TreeAttempt Unit} {e : FileError}

/-! ### A single directory -/

/-- What there is to a directory that has been created. -/
theorem of_createDirectory (h : t.createDirectory name = .ok t') :
    t.lookup (target name) = none ∧ t' = t.insert (target name) .directory ∧
      t'.isDirectory name = true := by
  unfold createDirectory at h
  rcases hplace : t.place name with e | (_ | ⟨dir, last⟩)
  all_goals rw [hplace] at h
  · cases h
  · cases h
  obtain ⟨hcheck, p, hname, hleads, rfl⟩ := place_eq_some_iff.1 hplace
  cases hdots : isDots last with
  | true =>
    simp only [bind, Except.bind, hdots, if_true] at h
    cases h
  | false =>
    rcases hentry : t.entry (follow (start name) p) last with e | (_ | node)
    all_goals
      simp only [hdots, hentry, bind, Except.bind] at h
      cases h
    obtain ⟨hle, hnone⟩ := le_of_entry hentry
    rw [← target_eq_enter hname] at hnone
    rw [← enter_of_isDots_eq_false hdots, ← target_eq_enter hname]
    have hgrows : Grows (fun _ _ => True) t (t.insert (target name) .directory) :=
      .insert hnone trivial
    refine ⟨hnone, rfl, isDirectory_iff.2 ⟨hcheck, ?_⟩⟩
    rw [hname, leads_append_iff]
    refine ⟨hleads.mono hgrows, hle, ?_, trivial⟩
    rw [← target_eq_enter hname, lookup_insert_self hnone]

theorem createDirectory_of_isDirectory (h : t.isDirectory name = true) :
    ∃ e, t.createDirectory name = .error e := by
  rcases hcreate : t.createDirectory name with e | t'
  · exact ⟨e, rfl⟩
  · have hdirectory := (isDirectory_iff.1 h).2.lookup_onWay (onWay_target name)
    rw [(of_createDirectory hcreate).1] at hdirectory
    cases hdirectory

/-! ### Directories that stand -/

/-- The directory of the name is there. -/
def Stands (t : FileTree) (name : String) : Prop :=
  Path.ofName name = [] ∨ t.isDirectory name = true

theorem Stands.leads (h : t.Stands name) : t.Leads (start name) (Path.ofName name) := by
  obtain hempty | hdirectory := h
  · rw [hempty]
    trivial
  · exact (isDirectory_iff.1 hdirectory).2

theorem Stands.lookup_onWay (h : t.Stands name) (hp : OnWay name p) :
    t.lookup p = some .directory :=
  h.leads.lookup_onWay hp

theorem Stands.not_mem_nul (h : t.Stands name) : '\x00' ∉ name.toList := by
  obtain hempty | hdirectory := h
  · exact fun hnul => absurd (Path.eq_slash_of_ofName_eq_nil hempty _ hnul) (by decide)
  · exact (checkName_eq_ok_iff.1 (isDirectory_iff.1 hdirectory).1).2.1

theorem Stands.mono {new : Path → FileNode → Prop} (h : t.Stands name) (hgrows : Grows new t t') :
    t'.Stands name := by
  refine h.imp_right fun hdirectory => ?_
  obtain ⟨hcheck, hleads⟩ := isDirectory_iff.1 hdirectory
  exact isDirectory_iff.2 ⟨hcheck, hleads.mono hgrows⟩

/-- When a directory has come to stand, what is missing was missing before and is not on its
way. -/
theorem Stands.lookup_eq_none_iff (h : t'.Stands name)
    (hgrows : Grows (Directories (OnWay name)) t t') :
    t'.lookup p = none ↔ t.lookup p = none ∧ ¬OnWay name p := by
  constructor
  · intro hnone
    refine ⟨?_, fun hp => ?_⟩
    · by_contra htaken
      exact hgrows.lookup_ne_none htaken hnone
    · rw [h.lookup_onWay hp] at hnone
      cases hnone
  · rintro ⟨hnone, hp⟩
    obtain heq | ⟨-, node, -, honWay, -⟩ := hgrows p
    · rw [heq, hnone]
    · exact absurd honWay hp

/-! ### Attempts and what they add -/

/-- The attempt adds only directories at `paths`, and if it succeeds the goal is reached. -/
def Creates (paths : Path → Prop) (goal : FileTree → Prop) (t : FileTree) (x : TreeAttempt Unit) :
    Prop :=
  Grows (Directories paths) t (x t).2 ∧ ((x t).1 = .ok () → goal (x t).2)

theorem Creates.of_eq {result : Except FileError Unit} (h : x t = (result, t'))
    (hgrows : Grows (Directories paths) t t') (hgoal : result = .ok () → goal t') :
    Creates paths goal t x := by
  unfold Creates
  rw [h]
  exact ⟨hgrows, hgoal⟩

theorem Creates.bind (hx : Creates paths goal' t x)
    (hy : ∀ t', goal' t' → Creates paths goal t' y) :
    Creates paths goal t (x >>= fun _ => y) := by
  obtain ⟨hgrows, hgoal⟩ := hx
  rcases h : x t with ⟨e | ⟨⟩, t'⟩
  all_goals rw [h] at hgrows hgoal
  · exact .of_eq (TreeAttempt.bind_of_error _ h) hgrows nofun
  · obtain ⟨hgrows', hgoal'⟩ := hy t' (hgoal rfl)
    exact .of_eq (TreeAttempt.bind_of_ok _ h) (hgrows.trans hgrows') hgoal'

theorem Creates.tryCatch {f : FileError → TreeAttempt Unit} (hx : Creates paths goal t x)
    (hf : ∀ e t', Creates paths goal t' (f e)) :
    Creates paths goal t (MonadExcept.tryCatch x f) := by
  obtain ⟨hgrows, hgoal⟩ := hx
  rcases h : x t with ⟨e | ⟨⟩, t'⟩
  all_goals rw [h] at hgrows hgoal
  · obtain ⟨hgrows', hgoal'⟩ := hf e t'
    exact .of_eq (TreeAttempt.tryCatch_of_error _ h) (hgrows.trans hgrows') hgoal'
  · exact .of_eq (TreeAttempt.tryCatch_of_ok _ h) hgrows hgoal

theorem creates_throw (cause : FileError) : Creates paths goal t (throw cause) :=
  .of_eq rfl (.refl _ t) nofun

theorem creates_createDirectory (hpath : paths (target name)) :
    Creates paths (fun left => left.isDirectory name = true) t
      (FileStore.createDirectory name) := by
  have hattempt : (FileStore.createDirectory name : TreeAttempt Unit) t
      = t.attempt (t.createDirectory name) := rfl
  rcases hcreate : t.createDirectory name with e | t'
  all_goals rw [hcreate] at hattempt
  · exact .of_eq hattempt (.refl _ t) nofun
  · obtain ⟨hnone, rfl, hdirectory⟩ := of_createDirectory hcreate
    exact .of_eq hattempt (.insert hnone ⟨hpath, rfl⟩) fun _ => hdirectory

end FileTree

namespace FileStore

open FileTree

variable {t : FileTree} {name : String} {p : Path} {content : Content} {paths : Path → Prop}

/-- The answer to a failure is to ask for the directory: if it is there, nothing has to be done. -/
theorem creates_ensureDirectory (hpath : paths (target name)) :
    Creates paths (fun left => left.isDirectory name = true) t (ensureDirectory name) := by
  refine (creates_createDirectory hpath).tryCatch fun cause t' => ?_
  have hasked : (liftM (isDirectory name : StateM FileTree Bool) : TreeAttempt Bool) t'
      = (.ok (t'.isDirectory name), t') := rfl
  have hhandler := TreeAttempt.bind_of_ok
    (fun found => if found = true then pure () else throw cause) hasked
  cases hdirectory : t'.isDirectory name with
  | true =>
    rw [hdirectory] at hhandler
    exact .of_eq hhandler (.refl _ t') fun _ => hdirectory
  | false =>
    rw [hdirectory] at hhandler
    exact .of_eq hhandler (.refl _ t') nofun

theorem ensureDirectory_of_isDirectory (h : t.isDirectory name = true) :
    (ensureDirectory name : TreeAttempt Unit) t = (.ok (), t) := by
  obtain ⟨e, hcreate⟩ := createDirectory_of_isDirectory h
  have hattempt : (createDirectory name : TreeAttempt Unit) t = (.error e, t) := by
    show t.attempt (t.createDirectory name) = _
    rw [hcreate]
    rfl
  have hasked : (liftM (isDirectory name : StateM FileTree Bool) : TreeAttempt Bool) t
      = (.ok true, t) := by
    rw [← h]
    rfl
  exact (TreeAttempt.tryCatch_of_error _ hattempt).trans (TreeAttempt.bind_of_ok _ hasked)

/-! ### Directories above it -/

theorem creates_ensureChain (names : List String) (hpaths : ∀ name ∈ names, paths (target name)) :
    Creates paths (fun left => ∀ name ∈ names.head?, left.isDirectory name = true) t
      (ensureChain names) := by
  induction names generalizing t with
  | nil => exact .of_eq rfl (.refl _ t) nofun
  | cons name above ih =>
    -- the directory is attempted twice, the second time with those above it in place
    have hname : ∀ {t}, Creates paths
        (fun left => ∀ first ∈ (name :: above).head?, left.isDirectory first = true) t
        (ensureDirectory name) := by
      intro t
      have hpath := hpaths name List.mem_cons_self
      obtain ⟨hgrows, hdirectory⟩ := creates_ensureDirectory (t := t) hpath
      refine ⟨hgrows, fun hok first hfirst => ?_⟩
      obtain rfl := Option.some.inj hfirst
      exact hdirectory hok
    refine hname.tryCatch fun cause t' => ?_
    split
    · have habove := ih (t := t') fun upper hupper => hpaths upper (List.mem_cons_of_mem _ hupper)
      exact habove.bind fun _ _ => hname
    · exact creates_throw cause

/-! ### The whole attempt -/

/-- **Creating a directory** adds only directories on the way to its name, also if it fails, and
leaves the directory standing if it succeeds. -/
theorem creates_createDirectories (t : FileTree) (name : String) :
    Creates (OnWay name) (fun left => left.Stands name) t (createDirectories name) := by
  unfold createDirectories
  split
  next hempty => exact .of_eq rfl (.refl _ t) fun _ => .inl (List.isEmpty_iff.1 hempty)
  next =>
    obtain ⟨hgrows, hdirectory⟩ := creates_ensureChain (t := t) (name :: Path.above name)
      fun upper hupper => by
        obtain rfl | habove := List.mem_cons.1 hupper
        · exact onWay_target upper
        · exact onWay_of_mem_above habove
    exact ⟨hgrows, fun hok => .inr (hdirectory hok name rfl)⟩

/-- A directory that stands needs no creating. -/
theorem createDirectories_of_stands (h : t.Stands name) :
    (createDirectories name : TreeAttempt Unit) t = (.ok (), t) := by
  unfold createDirectories
  split
  next => rfl
  next hcomponents =>
    have hdirectory := h.resolve_left (mt List.isEmpty_iff.2 hcomponents)
    exact TreeAttempt.tryCatch_of_ok _ (ensureDirectory_of_isDirectory hdirectory)

/-- **A file on the way** makes the creation fail. -/
theorem createDirectories_of_file (hp : OnWay name p) (hfile : t.lookup p = some (.file content)) :
    ∃ e, ((createDirectories name : TreeAttempt Unit) t).1 = .error e := by
  obtain ⟨hgrows, hstands⟩ := creates_createDirectories t name
  rcases hresult : ((createDirectories name : TreeAttempt Unit) t).1 with e | ⟨⟩
  · exact ⟨e, rfl⟩
  · have hdirectory := (hstands hresult).lookup_onWay hp
    rw [hgrows.lookup_eq_some hfile] at hdirectory
    cases hdirectory

end FileStore

end VirtualPC
