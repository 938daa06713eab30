/-
VirtualPC/Proofs/Files/Names.lean

File names and their components.  A component is a text that can stand between slashes.  The
components of a name are read off it (`Path.ofName`), and a name is put together from components
again, either as a file in a directory (`ofName_join`) or as one of the directories on the way
(`of_mem_above`): these start where the name does, and their components are its first ones.
-/
import Mathlib
import VirtualPC.Files.Path

namespace VirtualPC.Path

variable {text first rest part : List Char} {name dir file c : String} {p : Path}
  {reversed : List String} {absolute : Bool}

/-! ### Texts between slashes -/

/-- A character that is no slash goes in front of the first text. -/
theorem exists_splitSlashes_cons {c : Char} (hc : c ≠ '/') (text : List Char) :
    ∃ first others, splitSlashes text = first :: others ∧
      splitSlashes (c :: text) = (c :: first) :: others := by
  have hne : ∀ text, splitSlashes text ≠ [] := by
    intro text
    fun_cases splitSlashes text <;> simp [*]
  obtain ⟨first, others, h⟩ := List.exists_cons_of_ne_nil (hne text)
  exact ⟨first, others, h, by rw [splitSlashes, if_neg hc, h]⟩

theorem splitSlashes_slash (text : List Char) :
    splitSlashes ('/' :: text) = [] :: splitSlashes text :=
  if_pos rfl

/-- A slash separates what is before it from what is behind it. -/
theorem splitSlashes_append (first rest : List Char) :
    splitSlashes (first ++ '/' :: rest) = splitSlashes first ++ splitSlashes rest := by
  induction first with
  | nil => exact splitSlashes_slash rest
  | cons c first ih =>
    by_cases hc : c = '/'
    · rw [hc, List.cons_append, splitSlashes_slash, splitSlashes_slash, ih]
      rfl
    · obtain ⟨text, others, hfirst, hcons⟩ := exists_splitSlashes_cons hc first
      obtain ⟨text', others', hwhole, hcons'⟩ :=
        exists_splitSlashes_cons hc (first ++ '/' :: rest)
      rw [hfirst, hwhole] at ih
      obtain ⟨rfl, rfl⟩ := List.cons.inj ih
      rw [List.cons_append, hcons', hcons]
      rfl

theorem splitSlashes_of_not_mem (h : '/' ∉ text) : splitSlashes text = [text] := by
  induction text with
  | nil => rfl
  | cons c text ih =>
    rw [List.mem_cons, not_or] at h
    obtain ⟨first, others, htext, hcons⟩ := exists_splitSlashes_cons (Ne.symm h.1) text
    rw [ih h.2] at htext
    obtain ⟨rfl, rfl⟩ := List.cons.inj htext
    exact hcons

/-- No slash stands between slashes, and every other character does. -/
theorem mem_splitSlashes_iff {c : Char} :
    (∃ part ∈ splitSlashes text, c ∈ part) ↔ c ∈ text ∧ c ≠ '/' := by
  induction text with
  | nil => simp [splitSlashes]
  | cons first text ih =>
    by_cases hslash : first = '/'
    · rw [hslash, splitSlashes_slash]
      simp only [List.mem_cons, exists_eq_or_imp, List.not_mem_nil, false_or, ih]
      grind
    · obtain ⟨part, others, htext, hcons⟩ := exists_splitSlashes_cons hslash text
      rw [htext] at ih
      rw [hcons]
      simp only [List.mem_cons, exists_eq_or_imp] at ih ⊢
      grind

/-! ### Components -/

/-- A text that can stand between slashes. -/
def IsComponent (c : String) : Prop := c ≠ "" ∧ '/' ∉ c.toList

theorem isComponent_of_mem_ofName (h : c ∈ ofName name) : IsComponent c := by
  obtain ⟨part, hpart, rfl⟩ := List.mem_map.1 h
  obtain ⟨hmem, hne⟩ := List.mem_filter.1 hpart
  constructor
  · simpa using hne
  · rw [String.toList_ofList]
    exact fun hslash => (mem_splitSlashes_iff.1 ⟨part, hmem, hslash⟩).2 rfl

theorem ofName_of_isComponent (h : IsComponent c) : ofName c = [c] := by
  rw [ofName, splitSlashes_of_not_mem h.2]
  simp [h.1]

/-- A name in two parts, a slash between them. -/
theorem ofName_append_slash (name file : String) :
    ofName (name ++ "/" ++ file) = ofName name ++ ofName file := by
  have htext : (name ++ "/" ++ file).toList = name.toList ++ '/' :: file.toList := by simp
  rw [ofName, htext, splitSlashes_append, List.filter_append, List.map_append]
  rfl

theorem eq_append_slash (h : endsWithSlash name = true) : ∃ front, name = front ++ "/" := by
  have hlast : name.toList.getLast? = some '/' := beq_iff_eq.1 h
  obtain ⟨front, hfront⟩ := List.getLast?_eq_some_iff.1 hlast
  refine ⟨String.ofList front, String.toList_injective ?_⟩
  rw [hfront, String.toList_append, String.toList_ofList]
  rfl

/-- A name without components is a name of slashes only. -/
theorem eq_slash_of_ofName_eq_nil (h : ofName name = []) : ∀ c ∈ name.toList, c = '/' := by
  intro c hc
  by_contra hslash
  obtain ⟨part, hpart, hmem⟩ := mem_splitSlashes_iff.2 ⟨hc, hslash⟩
  have hnil := List.map_eq_nil_iff.1 h
  have hpart : part ∈ (splitSlashes name.toList).filter fun c => !c.isEmpty :=
    List.mem_filter.2 ⟨hpart, by simpa using List.ne_nil_of_mem hmem⟩
  rw [hnil] at hpart
  cases hpart

/-! ### Files in directories -/

theorem ofName_join (hfile : IsComponent file) : ofName (join dir file) = ofName dir ++ [file] := by
  unfold join
  split
  next hdir =>
    obtain hempty | hslash := Bool.or_eq_true_iff.1 hdir
    · rw [String.isEmpty_iff.1 hempty, String.empty_append, ofName_of_isComponent hfile]
      rfl
    · obtain ⟨front, rfl⟩ := eq_append_slash hslash
      have hfront : ofName (front ++ "/") = ofName front := by
        rw [← String.append_empty (s := front ++ "/"), ofName_append_slash]
        exact List.append_nil _
      rw [ofName_append_slash, ofName_of_isComponent hfile, hfront]
  next => rw [ofName_append_slash, ofName_of_isComponent hfile]

/-- What is joined to a directory is its name, a slash unless it has one, and the file. -/
theorem toList_join (dir file : String) :
    ∃ slash, (slash = [] ∨ dir ≠ "" ∧ slash = ['/']) ∧
      (join dir file).toList = dir.toList ++ slash ++ file.toList := by
  unfold join
  split
  next => exact ⟨[], .inl rfl, by simp⟩
  next hdir =>
    refine ⟨['/'], .inr ⟨?_, rfl⟩, by simp⟩
    rintro rfl
    exact hdir rfl

theorem isAbsolute_join (hfile : IsComponent file) :
    isAbsolute (join dir file) = isAbsolute dir := by
  obtain ⟨slash, hslash, hjoin⟩ := toList_join dir file
  unfold isAbsolute
  rw [hjoin, List.append_assoc, List.head?_append]
  rcases hdir : dir.toList.head? with _ | c
  -- an empty name and what is joined to it start in the working directory
  · have hempty : dir = "" := by simpa using List.head?_eq_none_iff.1 hdir
    obtain rfl | ⟨hne, -⟩ := hslash
    · have hhead : file.toList.head? ≠ some '/' := fun hhead => hfile.2 (List.mem_of_head? hhead)
      simpa using hhead
    · exact absurd hempty hne
  · rfl

theorem endsWithSlash_join (hfile : IsComponent file) : endsWithSlash (join dir file) = false := by
  obtain ⟨slash, -, hjoin⟩ := toList_join dir file
  have hne : file.toList ≠ [] := by simpa using hfile.1
  have hlast : file.toList.getLast? ≠ some '/' := fun hlast => hfile.2 (List.mem_of_getLast? hlast)
  unfold endsWithSlash
  rw [hjoin, List.getLast?_append_of_ne_nil _ hne]
  simpa using hlast

theorem isEmpty_join (hfile : IsComponent file) : (join dir file).isEmpty = false := by
  obtain ⟨slash, -, hjoin⟩ := toList_join dir file
  have hne : file.toList ≠ [] := by simpa using hfile.1
  rw [Bool.eq_false_iff, Ne, String.isEmpty_iff]
  intro hempty
  rw [hempty] at hjoin
  exact hne (List.append_eq_nil_iff.1 hjoin.symm).2

theorem mem_join_iff {c : Char} (hc : c ≠ '/') :
    c ∈ (join dir file).toList ↔ c ∈ dir.toList ∨ c ∈ file.toList := by
  obtain ⟨slash, hslash, hjoin⟩ := toList_join dir file
  rw [hjoin]
  obtain rfl | ⟨-, rfl⟩ := hslash <;> simp [hc]

/-! ### Directories on the way -/

theorem ofName_intercalate (h : ∀ c ∈ p, IsComponent c) : ofName ("/".intercalate p) = p := by
  induction p with
  | nil => rfl
  | cons c p ih =>
    have hfirst := ofName_of_isComponent (h c List.mem_cons_self)
    have hrest := ih fun c hc => h c (List.mem_cons_of_mem _ hc)
    cases p with
    | nil => rw [String.intercalate_singleton, hfirst]
    | cons d p =>
      rw [String.intercalate_cons_cons, ofName_append_slash, hfirst, hrest]
      rfl

theorem ofName_toName (h : ∀ c ∈ p, IsComponent c) : ofName (toName absolute p) = p := by
  cases absolute with
  | false => exact (congrArg ofName String.empty_append).trans (ofName_intercalate h)
  | true =>
    have hslash := ofName_append_slash "" ("/".intercalate p)
    exact hslash.trans (ofName_intercalate h)

theorem isAbsolute_toName (hne : p ≠ []) (h : ∀ c ∈ p, IsComponent c) :
    isAbsolute (toName absolute p) = absolute := by
  cases absolute with
  | true => simp [isAbsolute, toName]
  | false =>
    obtain ⟨c, p, rfl⟩ := List.exists_cons_of_ne_nil hne
    have hc := h c List.mem_cons_self
    have hfirst : ∃ rest, ("/".intercalate (c :: p)).toList = c.toList ++ rest := by
      cases p with
      | nil => exact ⟨[], by simp⟩
      | cons d p => exact ⟨_, by rw [String.intercalate_cons_cons, String.append_assoc,
          String.toList_append]⟩
    obtain ⟨rest, hrest⟩ := hfirst
    have hhead : c.toList.head? ≠ some '/' := fun hhead => hc.2 (List.mem_of_head? hhead)
    have hlist : (toName false (c :: p)).toList = c.toList ++ rest :=
      (congrArg String.toList String.empty_append).trans hrest
    rw [isAbsolute, hlist, List.head?_append_of_ne_nil _ (by simpa using hc.1)]
    simpa using hhead

/-- The paths to the components are the ways to what stands before the last ones. -/
theorem isPrefix_of_mem_chain (h : p ∈ chain reversed) : p ≠ [] ∧ p <+: reversed.reverse := by
  induction reversed with
  | nil => cases h
  | cons last before ih =>
    have hbefore : before.reverse <+: (last :: before).reverse := by
      rw [List.reverse_cons]
      exact List.prefix_append _ _
    rw [chain] at h
    split at h
    · exact ⟨(ih h).1, (ih h).2.trans hbefore⟩
    · obtain rfl | h := List.mem_cons.1 h
      · exact ⟨by simp, List.prefix_refl _⟩
      · exact ⟨(ih h).1, (ih h).2.trans hbefore⟩

/-- **The directories above a name** start where it does, and are reached by its first
components. -/
theorem of_mem_above {upper : String} (h : upper ∈ above name) :
    isAbsolute upper = isAbsolute name ∧ ofName upper <+: ofName name := by
  obtain ⟨p, hp, rfl⟩ := List.mem_map.1 h
  obtain ⟨hne, hprefix⟩ := isPrefix_of_mem_chain hp
  have hwhole : p <+: ofName name := by
    refine hprefix.trans ?_
    rw [← List.reverse_suffix, List.reverse_reverse]
    exact (List.drop_suffix 1 _).trans (List.dropWhile_suffix _)
  have hcomponents : ∀ c ∈ p, IsComponent c := fun c hc =>
    isComponent_of_mem_ofName (hwhole.subset hc)
  rw [ofName_toName hcomponents]
  exact ⟨isAbsolute_toName hne hcomponents, hwhole⟩

end VirtualPC.Path
