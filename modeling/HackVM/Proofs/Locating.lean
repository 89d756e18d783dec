import Mathlib
import HackVM.Files.Tree

/-!
# Where paths lead

What is at a place changes with every file that is written, but where a path leads depends on
directories only, the working directory among them: two trees with the same directories locate
every path alike (`SameDirectories.locate_eq_ok_iff`). The name after the last slash of a path
decides what can be there. If it names something, the place ends with it; if it is empty or made of
dots, the path leads to a directory (`locate_cases`).
-/

namespace HackVM

/-! ## The name at the end of a path -/

namespace Path

/-- The part of a path after its last slash. -/
def finalName (p : Text) : Text := p.rtakeWhile (· ≠ slash)

/-- Does an element of a path name something in a directory? The others stay where they are or go
up. -/
def IsName (e : Text) : Prop := e ≠ [] ∧ e ≠ utf8 "." ∧ e ≠ utf8 ".."

theorem slash_not_mem_finalName (p : Text) : slash ∉ finalName p := by
  intro h
  simpa using List.mem_rtakeWhile_imp h

theorem finalName_append {b : Text} (hb : slash ∉ b) (a : Text) :
    finalName (a ++ b) = finalName a ++ b := by
  have hall : ∀ x ∈ b.reverse, decide (x ≠ slash) = true := by
    intro x hx
    rw [List.mem_reverse] at hx
    exact decide_eq_true fun h => hb (h ▸ hx)
  rw [finalName, List.rtakeWhile, List.reverse_append, List.takeWhile_append_of_pos hall,
    List.reverse_append, List.reverse_reverse]
  rfl

theorem finalName_append_slash (a : Text) : finalName (a ++ [slash]) = [] :=
  List.rtakeWhile_concat_neg _ _ _ (by simp)

theorem elements_of_slash_not_mem {p : Text} (h : slash ∉ p) : elements p = [p] := by
  rw [elements, List.splitOn_eq_splitOnP]
  refine List.splitOnP_eq_singleton fun b hb => ?_
  simpa using fun hslash : b = slash => h (hslash ▸ hb)

theorem elements_append_slash (a b : Text) :
    elements (a ++ slash :: b) = elements a ++ elements b := by
  simp only [elements, List.splitOn_eq_splitOnP]
  exact List.splitOnP_append_cons a b (by simp)

/-- A path without a slash is its own final name; otherwise the last slash is before it. -/
theorem eq_finalName_or (p : Text) :
    p = finalName p ∨ ∃ dir, p = dir ++ slash :: finalName p := by
  have hsplit : p.rdropWhile (· ≠ slash) ++ finalName p = p :=
    List.rdropWhile_append_rtakeWhile
  by_cases hnil : p.rdropWhile (· ≠ slash) = []
  · rw [hnil, List.nil_append] at hsplit
    exact .inl hsplit.symm
  · have hlast : (p.rdropWhile (· ≠ slash)).getLast hnil = slash := by
      simpa using List.rdropWhile_last_not _ p hnil
    rw [← List.dropLast_append_getLast hnil, hlast, List.append_assoc,
      List.singleton_append] at hsplit
    exact .inr ⟨_, hsplit.symm⟩

theorem exists_elements_eq (p : Text) : ∃ front, elements p = front ++ [finalName p] := by
  have hname := elements_of_slash_not_mem (slash_not_mem_finalName p)
  rcases eq_finalName_or p with hp | ⟨dir, hp⟩
  · exact ⟨[], by rw [List.nil_append, ← hname, ← hp]⟩
  · exact ⟨elements dir, by rw [← hname, ← elements_append_slash, ← hp]⟩

theorem lastElement_eq_finalName {p : Text} (h : finalName p ≠ []) :
    lastElement p = finalName p := by
  have hne : p ≠ [] := by
    rintro rfl
    exact h rfl
  -- the path does not end with a slash, so there are no slashes to leave aside
  have hdrop : p.reverse.dropWhile (· = slash) = p.reverse := by
    cases hp : p.reverse with
    | nil => rfl
    | cons b rest =>
      have hb : b ≠ slash := by
        rintro rfl
        apply h
        rw [← List.reverse_reverse p, hp, List.reverse_cons]
        exact finalName_append_slash _
      exact List.dropWhile_cons_of_neg (by simpa using hb)
  unfold lastElement
  rw [if_neg hne, hdrop]
  exact if_neg h

/-- The extension of a path is that of its final name. -/
theorem extension_congr {p q : Text} (h : finalName p = finalName q) :
    extension p = extension q := by
  unfold extension
  rw [show (p.reverse.takeWhile (· ≠ slash)).reverse = finalName p from rfl, h]
  rfl

theorem extension_isSuffix (p : Text) : extension p <:+ p := by
  unfold extension
  simp only
  split
  · exact List.nil_suffix
  · exact (List.drop_suffix _ _).trans (List.rtakeWhile_suffix _ _)

end Path

theorem Text.lastPosition?_eq_none {c : UInt8} {t : Text} (h : c ∉ t) :
    lastPosition? [c] t = none := by
  induction t with
  | nil => rfl
  | cons b t ih =>
    rw [List.mem_cons, not_or] at h
    rw [lastPosition?, ih h.2]
    simp [h.1]

theorem Text.lastPosition?_append_cons {c : UInt8} {t : Text} (h : c ∉ t) (s : Text) :
    lastPosition? [c] (s ++ c :: t) = some s.length := by
  induction s with
  | nil => simp [lastPosition?, lastPosition?_eq_none h]
  | cons b s ih => simp [lastPosition?, ih]

namespace Path

/-- An extension that is put at the end of a path is its extension. -/
theorem extension_append {ext : Text} (hdot : (46 : UInt8) ∉ ext) (hslash : slash ∉ ext)
    (p : Text) : extension (p ++ 46 :: ext) = 46 :: ext := by
  have hname : finalName (p ++ 46 :: ext) = finalName p ++ 46 :: ext :=
    finalName_append (List.not_mem_cons_of_ne_of_not_mem (by decide) hslash) p
  unfold extension
  rw [show ((p ++ 46 :: ext).reverse.takeWhile (· ≠ slash)).reverse = finalName (p ++ 46 :: ext)
    from rfl, hname, show utf8 "." = [46] from rfl]
  simp only [Text.lastPosition?_append_cons hdot]
  simp

end Path

/-! ## What is at a place -/

theorem lookup_filter_ne {p q : Place} (h : q ≠ p) (entries : List (Place × Node)) :
    (entries.filter fun e => e.1 ≠ p).lookup q = entries.lookup q := by
  induction entries with
  | nil => rfl
  | cons e entries ih =>
    obtain ⟨r, n⟩ := e
    by_cases hr : r = p
    · subst hr
      rw [List.filter_cons_of_neg (by simp), ih, List.lookup_cons, beq_false_of_ne h]
    · rw [List.filter_cons_of_pos (by simpa using hr), List.lookup_cons, List.lookup_cons, ih]

namespace FileTree

variable {t t' : FileTree}

theorem isAbove_iff {p : Place} : t.isAbove p = true ↔ p <+: t.workingDirectory :=
  List.isPrefixOf_iff_prefix

theorem get?_of_isAbove {p : Place} (h : t.isAbove p = true) : t.get? p = some .directory :=
  if_pos h

theorem isAbove_eq_false {p : Place} (h : t.get? p ≠ some .directory) : t.isAbove p = false := by
  by_contra habove
  exact h (get?_of_isAbove (by simpa using habove))

theorem get?_insert_self {p : Place} (h : t.isAbove p = false) (n : Node) :
    (t.insert p n).get? p = some n := by
  rw [get?, show (t.insert p n).isAbove p = t.isAbove p from rfl, h]
  simp [insert]

theorem get?_insert_of_ne {p q : Place} (h : q ≠ p) (n : Node) :
    (t.insert p n).get? q = t.get? q := by
  rw [get?, get?, show (t.insert p n).isAbove q = t.isAbove q from rfl]
  simp only [insert, List.lookup_cons, beq_false_of_ne h, lookup_filter_ne h]

/-- Nothing is taken out of a tree where nothing is. -/
theorem filter_ne_of_get?_eq_none {p : Place} (h : t.get? p = none) :
    (t.entries.filter fun e => e.1 ≠ p) = t.entries := by
  rw [List.filter_eq_self]
  intro e he
  unfold get? at h
  split at h
  · cases h
  · have hne := List.lookup_eq_none_iff.1 h e he
    simpa using fun heq : e.1 = p => by simp [heq] at hne

theorem insert_insert (p : Place) (m n : Node) : (t.insert p m).insert p n = t.insert p n := by
  simp [insert]

/-- What is put where nothing was is taken out again without a trace. -/
theorem erase_insert {p : Place} (h : t.get? p = none) (n : Node) : (t.insert p n).erase p = t := by
  have hentries := filter_ne_of_get?_eq_none h
  unfold erase insert
  rw [List.filter_cons_of_neg (by simp), hentries, hentries]

theorem stat_eq_ok_iff {path : Text} {n : Node} :
    t.stat path = .ok n ↔ ∃ p, t.locate path = .ok p ∧ t.get? p = some n := by
  unfold stat
  cases t.locate path with
  | error e => simp
  | ok p => cases hget : t.get? p <;> simp [hget]

/-! ## Following a path element by element -/

/-- One step on the way of a path. -/
theorem follow_cons_eq_ok_iff {start q : Place} {e : Text} {es : List Text} :
    t.follow start (e :: es) = .ok q ↔
      t.get? start = some .directory ∧ e.length ≤ longestName ∧
        t.follow (start.enter e) es = .ok q := by
  rw [follow]
  cases t.get? start with
  | none => simp
  | some n =>
    cases n with
    | file content mode => simp
    | directory =>
      by_cases hlong : longestName < e.length
      · simp [hlong, Nat.not_le.2 hlong]
      · simp [hlong, Nat.not_lt.1 hlong]

/-! ## Trees with the same directories -/

/-- The same places are directories in two trees, and the working directory is the same. -/
structure SameDirectories (t t' : FileTree) : Prop where
  workingDirectory_eq : t.workingDirectory = t'.workingDirectory
  get?_iff : ∀ p, t.get? p = some .directory ↔ t'.get? p = some .directory

theorem SameDirectories.refl (t : FileTree) : t.SameDirectories t := ⟨rfl, fun _ => Iff.rfl⟩

theorem SameDirectories.symm (h : t.SameDirectories t') : t'.SameDirectories t :=
  ⟨h.workingDirectory_eq.symm, fun p => (h.get?_iff p).symm⟩

theorem SameDirectories.trans {t'' : FileTree} (h : t.SameDirectories t')
    (h' : t'.SameDirectories t'') : t.SameDirectories t'' :=
  ⟨h.workingDirectory_eq.trans h'.workingDirectory_eq,
    fun p => (h.get?_iff p).trans (h'.get?_iff p)⟩

/-- A file that does not take the place of a directory leaves directories as they are. -/
theorem sameDirectories_insert {p : Place} (h : t.get? p ≠ some .directory) (content : Text)
    (mode : Nat) : t.SameDirectories (t.insert p (.file content mode)) := by
  refine ⟨rfl, fun q => ?_⟩
  by_cases hq : q = p
  · subst hq
    simp [get?_insert_self (isAbove_eq_false h), h]
  · rw [get?_insert_of_ne hq]

theorem SameDirectories.follow_eq_ok (h : t.SameDirectories t') {start q : Place}
    {es : List Text} (hf : t.follow start es = .ok q) : t'.follow start es = .ok q := by
  induction es generalizing start with
  | nil => exact hf
  | cons e es ih =>
    obtain ⟨hdir, hshort, hrest⟩ := follow_cons_eq_ok_iff.1 hf
    exact follow_cons_eq_ok_iff.2 ⟨(h.get?_iff start).1 hdir, hshort, ih hrest⟩

/-- **Where a path leads depends on directories only.** -/
theorem SameDirectories.locate_eq_ok_iff (h : t.SameDirectories t') {path : Text} {q : Place} :
    t.locate path = .ok q ↔ t'.locate path = .ok q := by
  unfold locate origin
  rw [h.workingDirectory_eq]
  split
  · simp
  · split
    · simp
    · split
      · simp
      · exact ⟨h.follow_eq_ok, h.symm.follow_eq_ok⟩

/-! ## The end of a path -/

/-- All that lies above a place is a directory. -/
def Within (t : FileTree) (p : Place) : Prop := ∀ q, q <+: p → q ≠ p → t.get? q = some .directory

theorem enter_of_isName {e : Text} (h : Path.IsName e) (start : Place) :
    start.enter e = start ++ [e] := by
  simp [Place.enter, h.1, h.2.1, h.2.2]

/-- All that lies above the place where a path begins is a directory. -/
theorem within_origin (t : FileTree) (path : Text) : t.Within (t.origin path) := by
  intro q hq hne
  apply get?_of_isAbove
  rw [isAbove_iff]
  unfold origin at hq
  split at hq
  · rw [List.prefix_nil.1 hq]
    exact List.nil_prefix
  · exact hq

theorem within_concat {start : Place} (hdir : t.get? start = some .directory)
    (h : t.Within start) (e : Text) : t.Within (start ++ [e]) := by
  intro q hq hne
  rcases List.prefix_concat_iff.1 hq with rfl | hq
  · exact absurd rfl hne
  · by_cases hstart : q = start
    · rwa [hstart]
    · exact h q hq hstart

theorem within_enter {start : Place} (hdir : t.get? start = some .directory) (h : t.Within start)
    (e : Text) : t.Within (start.enter e) := by
  unfold Place.enter
  split
  · exact h
  · split
    · intro q hq hne
      have hbelow := hq.trans (List.dropLast_prefix start)
      refine h q hbelow fun heq => hne ?_
      subst heq
      exact hq.eq_of_length_le (List.dropLast_prefix q).length_le
    · exact within_concat hdir h e

/-- An element that names nothing leads to a directory. -/
theorem get?_enter {start : Place} (hdir : t.get? start = some .directory) (h : t.Within start)
    {e : Text} (he : ¬ Path.IsName e) : t.get? (start.enter e) = some .directory := by
  unfold Place.enter
  split
  · exact hdir
  · next hstay =>
    rw [not_or] at hstay
    have hup : e = utf8 ".." := by
      by_contra hup
      exact he ⟨hstay.1, hstay.2, hup⟩
    rw [if_pos hup]
    cases start with
    | nil => exact hdir
    | cons name names =>
      refine h _ (List.dropLast_prefix _) fun heq => ?_
      have hlength := congrArg List.length heq
      simp at hlength

theorem follow_append_eq_ok {start q : Place} {es : List Text} {e : Text}
    (h : t.follow start (es ++ [e]) = .ok q) (hstart : t.Within start) :
    ∃ p, t.get? p = some .directory ∧ t.Within p ∧ q = p.enter e := by
  induction es generalizing start with
  | nil =>
    obtain ⟨hdir, -, hq⟩ := follow_cons_eq_ok_iff.1 h
    exact ⟨start, hdir, hstart, (Except.ok.inj hq).symm⟩
  | cons e' es ih =>
    obtain ⟨hdir, -, hq⟩ := follow_cons_eq_ok_iff.1 h
    exact ih hq (within_enter hdir hstart e')

/-- **The end of a path.** A path whose final name names something leads to a place with this name;
any other leads to a directory. -/
theorem locate_cases {path : Text} {q : Place} (h : t.locate path = .ok q) :
    (Path.IsName (Path.finalName path) ∧ ∃ dir, q = dir ++ [Path.finalName path]) ∨
      (¬ Path.IsName (Path.finalName path) ∧ t.get? q = some .directory) := by
  have hfollow : t.follow (t.origin path) (Path.elements path) = .ok q := by
    unfold locate at h
    split at h
    · cases h
    · split at h
      · cases h
      · split at h
        · cases h
        · exact h
  obtain ⟨front, hfront⟩ := Path.exists_elements_eq path
  rw [hfront] at hfollow
  obtain ⟨dir, hdir, hwithin, rfl⟩ := follow_append_eq_ok hfollow (t.within_origin path)
  by_cases hname : Path.IsName (Path.finalName path)
  · exact .inl ⟨hname, dir, enter_of_isName hname dir⟩
  · exact .inr ⟨hname, get?_enter hdir hwithin hname⟩

end FileTree

end HackVM
