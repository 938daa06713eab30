/-
VirtualPC/Proofs/Files/Walks.lean

Where names lead in a file tree.  Components are followed without looking at the tree
(`FileTree.follow`), and a walk goes the same way as long as it meets directories:

    t.Leads dir p      following `p` from `dir` meets directories only
    target name        the path that a name leads to
    OnWay name p       the path is met on the way there, or is where the name leads

A walk that ends at a directory leads there (`walk_eq_directory_iff`), so a name is that of a
directory exactly if it leads and can be asked for (`isDirectory_iff`).

    Grows new t t'     `t'` has all that `t` has, and besides only nodes that are `new`

Growing keeps what leads (`Leads.mono`).
-/
import VirtualPC.Files.Tree
import VirtualPC.Proofs.Files.Names

namespace VirtualPC.FileTree

variable {t t' t'' : FileTree} {dir p q rest : Path} {name c last : String} {node : FileNode}
  {new : Path → FileNode → Prop}

/-! ### Look-ups -/

theorem lookup_of_prefix_home (h : p <+: home) : t.lookup p = some .directory := by
  rw [lookup, if_pos (List.isPrefixOf_iff_prefix.2 h)]

/-- Names start at directories. -/
theorem lookup_start (t : FileTree) (name : String) : t.lookup (start name) = some .directory := by
  refine lookup_of_prefix_home ?_
  unfold start
  split
  · exact List.nil_prefix
  · exact List.prefix_refl home

theorem not_prefix_home_of_lookup (h : t.lookup p = none) : ¬p <+: home := by
  intro hprefix
  rw [lookup_of_prefix_home hprefix] at h
  cases h

theorem lookup_filter_ne (hq : q ≠ p) (nodes : List (Path × FileNode)) :
    (nodes.filter fun entry => entry.1 != p).lookup q = nodes.lookup q := by
  induction nodes with
  | nil => rfl
  | cons entry nodes ih =>
    obtain ⟨path, node⟩ := entry
    by_cases hpath : path = p
    · have hne : (q == path) = false := beq_eq_false_iff_ne.2 (hpath ▸ hq)
      rw [List.filter_cons_of_neg (by simpa using hpath), ih, List.lookup_cons, hne]
    · rw [List.filter_cons_of_pos (by simpa using hpath), List.lookup_cons, List.lookup_cons, ih]

theorem lookup_insert (h : ¬p <+: home) (node : FileNode) (q : Path) :
    (t.insert p node).lookup q = if q = p then some node else t.lookup q := by
  unfold lookup insert
  by_cases hq : q = p
  · rw [hq, if_neg (by rwa [List.isPrefixOf_iff_prefix]), if_pos rfl, List.lookup_cons_self]
  · rw [if_neg hq]
    split
    · rfl
    · rw [List.lookup_cons, beq_eq_false_iff_ne.2 hq]
      exact lookup_filter_ne hq t.nodes

/-- What is put where nothing was is found there. -/
theorem lookup_insert_self (hnone : t.lookup p = none) (node : FileNode) :
    (t.insert p node).lookup p = some node := by
  rw [lookup_insert (not_prefix_home_of_lookup hnone), if_pos rfl]

/-! ### Following components -/

/-- The path reached by components. -/
def follow (dir components : Path) : Path := components.foldl enter dir

/-- Following the components meets directories only, and each can be looked up. -/
def Leads (t : FileTree) : (dir components : Path) → Prop
  | _, [] => True
  | dir, c :: rest => c.utf8ByteSize ≤ maxComponentBytes ∧
      t.lookup (enter dir c) = some .directory ∧ t.Leads (enter dir c) rest

theorem entry_of_le (t : FileTree) (dir : Path) (h : c.utf8ByteSize ≤ maxComponentBytes) :
    t.entry dir c = .ok (t.lookup (enter dir c)) := by
  rw [entry, if_neg (Nat.not_lt.2 h)]

theorem le_of_entry {found : Option FileNode} (h : t.entry dir c = .ok found) :
    c.utf8ByteSize ≤ maxComponentBytes ∧ t.lookup (enter dir c) = found := by
  unfold entry at h
  split at h
  · cases h
  next hle =>
    cases h
    exact ⟨Nat.not_lt.1 hle, rfl⟩

/-- A walk goes on from where directories lead it. -/
theorem walk_append (h : t.Leads dir p) (rest : Path) :
    t.walk dir (p ++ rest) = t.walk (follow dir p) rest := by
  induction p generalizing dir with
  | nil => rfl
  | cons c p ih =>
    obtain ⟨hle, hlookup, hrest⟩ := h
    rw [List.cons_append, walk, entry_of_le t dir hle, hlookup]
    exact ih hrest

theorem walk_eq_directory_iff :
    t.walk dir p = .ok (q, .directory) ↔ t.Leads dir p ∧ q = follow dir p := by
  constructor
  · intro h
    induction p generalizing dir with
    | nil =>
      cases h
      exact ⟨trivial, rfl⟩
    | cons c p ih =>
      rw [walk] at h
      rcases hentry : t.entry dir c with e | (_ | (_ | content))
      all_goals rw [hentry] at h
      · cases h
      · cases h
      · obtain ⟨hle, hlookup⟩ := le_of_entry hentry
        obtain ⟨hleads, hq⟩ := ih h
        exact ⟨⟨hle, hlookup, hleads⟩, hq⟩
      · dsimp only at h
        split at h <;> cases h
  · rintro ⟨hleads, rfl⟩
    have hwalk := walk_append hleads []
    rwa [List.append_nil] at hwalk

theorem Leads.lookup_follow (h : t.Leads dir p) (hdir : t.lookup dir = some .directory) :
    t.lookup (follow dir p) = some .directory := by
  induction p generalizing dir with
  | nil => exact hdir
  | cons c p ih => exact ih h.2.2 h.2.1

theorem leads_append_iff :
    t.Leads dir (p ++ rest) ↔ t.Leads dir p ∧ t.Leads (follow dir p) rest := by
  induction p generalizing dir with
  | nil => exact ⟨fun h => ⟨trivial, h⟩, fun h => h.2⟩
  | cons c p ih =>
    rw [List.cons_append, Leads, Leads, ih, and_assoc, and_assoc]
    rfl

/-! ### Names -/

/-- The path that a name leads to. -/
def target (name : String) : Path := follow (start name) (Path.ofName name)

/-- A path that is met on the way to what a name leads to, or at its end. -/
def OnWay (name : String) (p : Path) : Prop :=
  ∃ components, components <+: Path.ofName name ∧ p = follow (start name) components

theorem onWay_iff_mem_map :
    OnWay name p ↔ p ∈ (Path.ofName name).inits.map (follow (start name)) := by
  simp only [OnWay, List.mem_map, List.mem_inits, eq_comm (a := p)]

instance (name : String) (p : Path) : Decidable (OnWay name p) :=
  decidable_of_iff _ onWay_iff_mem_map.symm

theorem enter_of_isDots_eq_false (hdots : isDots c = false) : enter dir c = dir ++ [c] := by
  have hdots : c ≠ "." ∧ c ≠ ".." := by simpa [isDots] using hdots
  rw [enter, if_neg hdots.1, if_neg hdots.2]

/-- The last component is entered from where the others lead. -/
theorem target_eq_enter (hname : Path.ofName name = p ++ [last]) :
    target name = enter (follow (start name) p) last := by
  rw [target, hname, follow, List.foldl_append]
  rfl

theorem Leads.lookup_onWay (h : t.Leads (start name) (Path.ofName name)) (hp : OnWay name p) :
    t.lookup p = some .directory := by
  obtain ⟨components, ⟨rest, hwhole⟩, rfl⟩ := hp
  rw [← hwhole] at h
  exact (leads_append_iff.1 h).1.lookup_follow (t.lookup_start name)

/-- The directories above a name are on its way. -/
theorem onWay_of_mem_above {upper : String} (h : upper ∈ Path.above name) :
    OnWay name (target upper) := by
  obtain ⟨habsolute, hprefix⟩ := Path.of_mem_above h
  exact ⟨_, hprefix, by rw [target, start, start, habsolute]⟩

theorem onWay_target (name : String) : OnWay name (target name) :=
  ⟨_, List.prefix_refl _, rfl⟩

/-- A name that the system can be asked about. -/
theorem checkName_eq_ok_iff : checkName name = .ok () ↔
    name.isEmpty = false ∧ '\x00' ∉ name.toList ∧ name.utf8ByteSize ≤ maxNameBytes := by
  unfold checkName
  split
  · simp [*]
  · split
    · simp [*]
    · split <;> simp_all

theorem resolve_of_refused {e : FileError} (hcheck : checkName name = .error e) :
    t.resolve name = .error e := by
  rw [resolve, hcheck]
  rfl

theorem resolve_eq (hcheck : checkName name = .ok ()) : t.resolve name =
    match t.walk (start name) (Path.ofName name) with
    | .ok (p, .file content) =>
      if Path.endsWithSlash name then .error .notADirectory else .ok (p, .file content)
    | .ok (p, .directory) => .ok (p, .directory)
    | .error e => .error e := by
  unfold resolve
  rw [hcheck]
  rcases t.walk (start name) (Path.ofName name) with e | ⟨p, _ | content⟩ <;> rfl

/-- **A name is that of a directory** exactly if it can be asked for and leads to directories. -/
theorem isDirectory_iff : t.isDirectory name = true ↔
    checkName name = .ok () ∧ t.Leads (start name) (Path.ofName name) := by
  unfold isDirectory
  constructor
  · intro h
    rcases hcheck : checkName name with e | ⟨⟩
    · rw [resolve_of_refused hcheck] at h
      cases h
    · rw [resolve_eq hcheck] at h
      rcases hwalk : t.walk (start name) (Path.ofName name) with e | ⟨p, _ | content⟩
      all_goals rw [hwalk] at h
      · cases h
      · exact ⟨rfl, (walk_eq_directory_iff.1 hwalk).1⟩
      · cases hslash : Path.endsWithSlash name
        all_goals
          simp only [hslash] at h
          cases h
  · rintro ⟨hcheck, hleads⟩
    rw [resolve_eq hcheck, walk_eq_directory_iff.2 ⟨hleads, rfl⟩]

/-- The place of a name: the directory its last component is looked for in. -/
theorem place_eq_some_iff :
    t.place name = .ok (some (dir, last)) ↔
      checkName name = .ok () ∧ ∃ p, Path.ofName name = p ++ [last] ∧
        t.Leads (start name) p ∧ dir = follow (start name) p := by
  constructor
  · intro h
    unfold place at h
    rcases hcheck : checkName name with e | ⟨⟩
    · rw [hcheck] at h
      cases h
    · rw [hcheck] at h
      rcases hlast : (Path.ofName name).getLast? with _ | c
      · rw [hlast] at h
        cases h
      · rw [hlast] at h
        rcases hwalk : t.walk (start name) (Path.ofName name).dropLast with e | ⟨p, _ | content⟩
        all_goals
          rw [hwalk] at h
          cases h
        obtain ⟨hleads, hdir⟩ := walk_eq_directory_iff.1 hwalk
        exact ⟨rfl, _, (List.dropLast_append_getLast? last hlast).symm, hleads, hdir⟩
  · rintro ⟨hcheck, p, hname, hleads, rfl⟩
    unfold place
    rw [hcheck, hname, List.getLast?_concat, List.dropLast_concat,
      walk_eq_directory_iff.2 ⟨hleads, rfl⟩]
    rfl

/-! ### Growing -/

/-- `t'` has all that `t` has, and besides only nodes that are `new`. -/
def Grows (new : Path → FileNode → Prop) (t t' : FileTree) : Prop :=
  ∀ p, t'.lookup p = t.lookup p ∨
    t.lookup p = none ∧ ∃ node, t'.lookup p = some node ∧ new p node

/-- The nodes that are directories at some of the paths. -/
def Directories (paths : Path → Prop) (p : Path) (node : FileNode) : Prop :=
  paths p ∧ node = .directory

theorem Grows.refl (new : Path → FileNode → Prop) (t : FileTree) : Grows new t t :=
  fun _ => .inl rfl

theorem Grows.lookup_eq_some (h : Grows new t t') (hp : t.lookup p = some node) :
    t'.lookup p = some node := by
  obtain heq | ⟨hnone, -⟩ := h p
  · rw [heq, hp]
  · rw [hp] at hnone
    cases hnone

theorem Grows.lookup_ne_none (h : Grows new t t') (hp : t.lookup p ≠ none) :
    t'.lookup p ≠ none := by
  obtain ⟨node, hnode⟩ := Option.ne_none_iff_exists'.1 hp
  rw [h.lookup_eq_some hnode]
  nofun

theorem Grows.trans (h : Grows new t t') (h' : Grows new t' t'') : Grows new t t'' := by
  intro p
  obtain heq | ⟨hnone, node, hnode, hnew⟩ := h p
  · rw [← heq]
    exact h' p
  · exact .inr ⟨hnone, node, h'.lookup_eq_some hnode, hnew⟩

theorem Grows.mono {new' : Path → FileNode → Prop} (h : Grows new t t')
    (hnew : ∀ p node, new p node → new' p node) : Grows new' t t' :=
  fun p => (h p).imp_right fun ⟨hnone, node, hnode, hp⟩ => ⟨hnone, node, hnode, hnew p node hp⟩

theorem Grows.insert (hnone : t.lookup p = none) (hnew : new p node) :
    Grows new t (t.insert p node) := by
  intro q
  rw [lookup_insert (not_prefix_home_of_lookup hnone)]
  split
  next hq =>
    subst hq
    exact .inr ⟨hnone, node, rfl, hnew⟩
  next => exact .inl rfl

/-- Where only directories are new, the files stay the same. -/
theorem Grows.lookup_eq_file_iff {paths : Path → Prop} {content : Content}
    (h : Grows (Directories paths) t t') :
    t'.lookup p = some (.file content) ↔ t.lookup p = some (.file content) := by
  refine ⟨fun hp => ?_, h.lookup_eq_some⟩
  obtain heq | ⟨-, node, hnode, -, rfl⟩ := h p
  · rw [← heq, hp]
  · rw [hnode] at hp
    cases hp

theorem Leads.mono (h : t.Leads dir p) (hgrows : Grows new t t') : t'.Leads dir p := by
  induction p generalizing dir with
  | nil => trivial
  | cons c p ih => exact ⟨h.1, hgrows.lookup_eq_some h.2.1, ih h.2.2⟩

end VirtualPC.FileTree
