import HackVM.Files.Commit
import HackVM.Proofs.Locating
import HackVM.Proofs.PlainText

/-!
# Committing a file

A commit goes by way of a temporary file. As long as that is there, the tree is the old one with a
file more at a place where nothing was (`createTemporary_cases`, `fill_insert`), and taking the file
out again restores it. What is left in the end is one of two things: the tree as it was, or the tree
with the new file at the place of the path, whichever step the system refuses
(`Disk.commitUnder_cases`, `Disk.commit_all_or_nothing`).

There is always a number whose temporary file is neither there nor noted (`exists_free_number`), so
`Disk.commit` is one of these commits.
-/

namespace HackVM

/-! ## The names of temporary files -/

/-- What the final names of all temporary files for a path begin with. -/
def temporaryStem (path : Text) : Text :=
  let dir := Path.parent path
  Path.finalName ((if dir.getLast? = some Path.slash then dir else dir ++ [Path.slash]) ++
    utf8 "." ++ Path.lastElement path)

theorem finalName_temporaryPath (path : Text) (n : Nat) :
    Path.finalName (temporaryPath path n) =
      temporaryStem path ++ utf8 "." ++ Text.ofNat n ++ utf8 ".tmp" := by
  have hdot : Path.slash ∉ utf8 "." := by decide
  have htmp : Path.slash ∉ utf8 ".tmp" := by decide
  have hdigits : Path.slash ∉ Text.ofNat n := (Text.plain_ofNat n).not_mem (by decide)
  unfold temporaryPath temporaryPattern temporaryName temporaryStem
  simp only [← List.append_assoc]
  rw [Path.finalName_append htmp, Path.finalName_append hdigits, Path.finalName_append hdot]

theorem finalName_temporaryPath_injective (path : Text) :
    Function.Injective fun n => Path.finalName (temporaryPath path n) := by
  intro m n h
  simp only [finalName_temporaryPath, List.append_assoc, List.append_cancel_left_eq] at h
  exact Text.ofNat_injective (List.append_cancel_right h)

theorem temporaryPath_injective (path : Text) : Function.Injective (temporaryPath path) :=
  (finalName_temporaryPath_injective path).of_comp (f := Path.finalName)

theorem isName_temporaryPath (path : Text) (n : Nat) :
    Path.IsName (Path.finalName (temporaryPath path n)) := by
  have hlength : 2 < (Path.finalName (temporaryPath path n)).length := by
    have htmp : (utf8 ".tmp").length = 4 := rfl
    rw [finalName_temporaryPath, List.length_append, htmp]
    omega
  refine ⟨?_, ?_, ?_⟩ <;> intro h <;> rw [h] at hlength <;> revert hlength <;> decide

namespace FileTree

variable {t : FileTree}

theorem mem_keys_of_get? {p : Place} {n : Node} (h : t.get? p = some n) :
    p ∈ t.nodes.map (·.1) := by
  rw [nodes, List.map_append, List.mem_append]
  by_cases habove : t.isAbove p = true
  · left
    have hprefix := isAbove_iff.1 habove
    have hlength := hprefix.length_le
    simp only [List.map_map, List.mem_map, List.mem_range, Function.comp_apply]
    exact ⟨p.length, by omega, (List.prefix_iff_eq_take.1 hprefix).symm⟩
  · right
    rw [get?, if_neg habove] at h
    obtain ⟨before, after, hentries, -⟩ := List.lookup_eq_some_iff.1 h
    refine List.mem_map.2 ⟨(p, n), List.mem_filter.2 ⟨by simp [hentries], ?_⟩, rfl⟩
    simpa using habove

/-- No more numbers are taken than there are places in the tree. -/
theorem card_taken_le (t : FileTree) (path : Text) (s : Finset Nat)
    (h : ∀ n ∈ s, ∃ node, t.stat (temporaryPath path n) = .ok node) :
    s.card ≤ t.nodes.length := by
  have hplace : ∀ n ∈ s, ∃ p ∈ (t.nodes.map (·.1)).toFinset,
      p.getLast? = some (Path.finalName (temporaryPath path n)) := by
    intro n hn
    obtain ⟨node, hstat⟩ := h n hn
    obtain ⟨p, hlocate, hget⟩ := stat_eq_ok_iff.1 hstat
    rcases locate_cases hlocate with ⟨hname, dir, rfl⟩ | ⟨hname, -⟩
    · exact ⟨_, List.mem_toFinset.2 (mem_keys_of_get? hget), by simp⟩
    · exact absurd (isName_temporaryPath path n) hname
  choose! place hmem hlast using hplace
  have hcard : s.card ≤ (t.nodes.map (·.1)).toFinset.card := by
    refine Finset.card_le_card_of_injOn place hmem fun m hm n hn h => ?_
    have hnames := (hlast m hm).symm.trans ((congrArg List.getLast? h).trans (hlast n hn))
    exact finalName_temporaryPath_injective path (Option.some.inj hnames)
  have hkeys := (t.nodes.map (·.1)).toFinset_card_le
  rw [List.length_map] at hkeys
  exact hcard.trans hkeys

/-! ## What becomes of the temporary file -/

/-- The temporary file for a path can be made. -/
structure Creatable (t : FileTree) (c : Circumstances) (path : Text) (p : Place) : Prop where
  not_mem : Path.slash ∉ Path.lastElement path
  refusal_eq : c.refusal .create = none
  locate_eq : t.locate (temporaryPath path c.number) = .ok p
  free : t.get? p = none

/-- A temporary file is made where nothing is, or not at all. -/
theorem createTemporary_cases (t : FileTree) (c : Circumstances) (path : Text) :
    (∃ p, t.Creatable c path p ∧ t.createTemporary c path =
      .ok (temporaryPath path c.number, t.insert p (.file [] temporaryMode))) ∨
    ((∀ p, ¬ t.Creatable c path p) ∧ ∃ e, t.createTemporary c path = .error e) := by
  unfold createTemporary
  by_cases hslash : Path.slash ∈ Path.lastElement path
  · exact .inr ⟨fun p h => h.not_mem hslash, _, if_pos hslash⟩
  simp only [if_neg hslash]
  cases hcreate : c.refusal .create with
  | some e =>
    exact .inr ⟨fun p h => Option.some_ne_none e (hcreate.symm.trans h.refusal_eq), _, rfl⟩
  | none =>
    cases hlocate : t.locate (temporaryPath path c.number) with
    | error e => exact .inr ⟨fun p h => (nomatch hlocate.symm.trans h.locate_eq), _, rfl⟩
    | ok p =>
      cases hget : t.get? p with
      | none => exact .inl ⟨p, ⟨hslash, hcreate, hlocate, hget⟩, by simp [hget]⟩
      | some node =>
        refine .inr ⟨fun q h => ?_, _, by simp only [hget]; rfl⟩
        obtain rfl := Except.ok.inj (hlocate.symm.trans h.locate_eq)
        exact Option.some_ne_none node (hget.symm.trans h.free)

section Temporary

variable {temp : Text} {p : Place} (hp : t.get? p = none) (htemp : t.locate temp = .ok p)

include hp htemp

/-- The temporary file is found while it is there. -/
theorem locate_insert_temporary (content : Text) (mode : Nat) :
    (t.insert p (.file content mode)).locate temp = .ok p :=
  (sameDirectories_insert (by simp [hp]) content mode).locate_eq_ok_iff.1 htemp

theorem edit_insert (content : Text) (mode : Nat) (change : Text → Nat → Node) :
    (t.insert p (.file content mode)).edit temp change = t.insert p (change content mode) := by
  have habove : t.isAbove p = false := isAbove_eq_false (by simp [hp])
  rw [edit, locate_insert_temporary hp htemp]
  simp only [get?_insert_self habove]
  exact insert_insert p _ _

/-- Taking the temporary file out restores the tree. -/
theorem remove_insert (content : Text) (mode : Nat) :
    (t.insert p (.file content mode)).remove temp = t := by
  rw [remove, locate_insert_temporary hp htemp]
  exact erase_insert hp _

/-- The temporary file stays where it is while it gets its content and permissions. -/
theorem fill_insert (c : Circumstances) (content : Text) (mode : Nat) :
    ((∃ s, c.refusal s ≠ none) ∧ ∃ content' mode' e,
      (t.insert p (.file [] temporaryMode)).fill c temp content mode =
        (t.insert p (.file content' mode'), some e)) ∨
    ((∀ s, s ≠ .create → s ≠ .rename → c.refusal s = none) ∧
      (t.insert p (.file [] temporaryMode)).fill c temp content mode =
        (t.insert p (.file content (mode % 0o1000)), none)) := by
  unfold fill
  simp only [write, chmod, edit_insert hp htemp]
  cases hwrite : c.refusal .write with
  | some e => exact .inl ⟨⟨.write, by simp [hwrite]⟩, _, _, _, rfl⟩
  | none =>
    cases hclose : c.refusal .close with
    | some e => exact .inl ⟨⟨.close, by simp [hclose]⟩, _, _, _, rfl⟩
    | none =>
      cases hchmod : c.refusal .chmod with
      | some e => exact .inl ⟨⟨.chmod, by simp [hchmod]⟩, _, _, _, rfl⟩
      | none =>
        refine .inr ⟨fun s hcreate hrename => ?_, rfl⟩
        cases s with
        | create => exact absurd rfl hcreate
        | write => exact hwrite
        | close => exact hclose
        | chmod => exact hchmod
        | rename => exact absurd rfl hrename

/-- Renaming the temporary file moves it, unless the path leads nowhere or to a directory. -/
theorem rename_insert (path content : Text) (mode : Nat) :
    ((∀ q, t.locate path = .ok q → t.get? q = some .directory) ∧
      ∃ e, (t.insert p (.file content mode)).rename temp path = .error e) ∨
    ∃ q, t.locate path = .ok q ∧ t.get? q ≠ some .directory ∧
      (t.insert p (.file content mode)).rename temp path =
        .ok (t.insert q (.file content mode)) := by
  have hdirs : t.SameDirectories (t.insert p (.file content mode)) :=
    sameDirectories_insert (by simp [hp]) content mode
  have habove : t.isAbove p = false := isAbove_eq_false (by simp [hp])
  unfold rename
  rw [locate_insert_temporary hp htemp]
  cases hpath : (t.insert p (.file content mode)).locate path with
  | error e =>
    refine .inl ⟨fun q hq => ?_, e, rfl⟩
    rw [hdirs.locate_eq_ok_iff.1 hq] at hpath
    cases hpath
  | ok q =>
    have hlocate : t.locate path = .ok q := hdirs.locate_eq_ok_iff.2 hpath
    simp only [get?_insert_self habove]
    by_cases hq : (t.insert p (.file content mode)).get? q = some .directory
    · refine .inl ⟨fun q' hq' => ?_, .alreadyExists, by rw [hq]⟩
      obtain rfl := Except.ok.inj (hlocate.symm.trans hq')
      exact (hdirs.get?_iff q).2 hq
    · refine .inr ⟨q, hlocate, fun hdir => hq ((hdirs.get?_iff q).1 hdir), ?_⟩
      rw [erase_insert hp]
      split
      · next h => cases h
      · next hdir _ => exact absurd hdir hq
      · next hnode _ =>
        cases hnode
        rfl

/-- The temporary file takes the place of the path, or it is where it was. -/
theorem replace_insert (c : Circumstances) (path content : Text) (mode : Nat) :
    (((∃ s, c.refusal s ≠ none) ∨ ∀ q, t.locate path = .ok q → t.get? q = some .directory) ∧
      ∃ content' mode' e, (t.insert p (.file [] temporaryMode)).replace c temp path content mode =
        (t.insert p (.file content' mode'), some e)) ∨
    ((∀ s, s ≠ .create → c.refusal s = none) ∧
      ∃ q, t.locate path = .ok q ∧ t.get? q ≠ some .directory ∧
        (t.insert p (.file [] temporaryMode)).replace c temp path content mode =
          (t.insert q (.file content (mode % 0o1000)), none)) := by
  unfold replace
  rcases fill_insert hp htemp c content mode with
    ⟨hrefused, content', mode', e, hfill⟩ | ⟨hnone, hfill⟩
  · exact .inl ⟨.inl hrefused, content', mode', e, by rw [hfill]⟩
  · simp only [hfill]
    cases hrefusal : c.refusal .rename with
    | some e => exact .inl ⟨.inl ⟨.rename, by simp [hrefusal]⟩, _, _, _, rfl⟩
    | none =>
      rcases rename_insert hp htemp path content (mode % 0o1000) with
        ⟨hnot, e, hrename⟩ | ⟨q, hq, hdir, hrename⟩
      · refine .inl ⟨.inr hnot, content, mode % 0o1000, .notRenamed temp path e, ?_⟩
        simp only [hrename]
      · refine .inr ⟨fun s hcreate => ?_, q, hq, hdir, by simp only [hrename]⟩
        by_cases hs : s = .rename
        · rw [hs, hrefusal]
        · exact hnone s hcreate hs

end Temporary

/-! ## What a file in a new place changes -/

theorem get?_insert {q : Place} (h : t.get? q ≠ some .directory) (content : Text) (mode : Nat) :
    (t.insert q (.file content mode)).get? =
      Function.update t.get? q (some (.file content mode)) := by
  funext p
  by_cases hp : p = q
  · rw [hp, Function.update_self, get?_insert_self (isAbove_eq_false h)]
  · rw [Function.update_of_ne hp, get?_insert_of_ne hp]

theorem stat_insert {path : Text} {q : Place} (hpath : t.locate path = .ok q)
    (h : t.get? q ≠ some .directory) (content : Text) (mode : Nat) :
    (t.insert q (.file content mode)).stat path = .ok (.file content mode) := by
  have hlocate := (sameDirectories_insert h content mode).locate_eq_ok_iff.1 hpath
  exact stat_eq_ok_iff.2 ⟨q, hlocate, get?_insert_self (isAbove_eq_false h) _⟩

end FileTree

namespace Disk

/-- Nothing is in the way of a commit: the system refuses no step, the temporary file can be made,
and the path leads to a place that no directory has. -/
structure Admits (d : Disk) (c : Circumstances) (path : Text) : Prop where
  refusal_eq : ∀ s, c.refusal s = none
  creatable : ∃ p, d.tree.Creatable c path p
  target : ∃ q, d.tree.locate path = .ok q ∧ d.tree.get? q ≠ some .directory

/-- What is noted while a temporary file is in use and what is noted after it, whether or not its
name was noted before. -/
theorem release_reserve (d : Disk) (temp : Text) (t : FileTree) :
    ∃ noted, noted.Sublist d.pending ∧ (temp ∉ d.pending → noted = d.pending) ∧
      release { d.reserve temp with tree := t } temp = { tree := t, pending := noted } := by
  refine ⟨d.pending.filter (· ≠ temp), List.filter_sublist, fun h => ?_, ?_⟩
  · rw [List.filter_eq_self]
    intro other hother
    simpa using ne_of_mem_of_not_mem hother h
  · simp only [release, reserve]
    by_cases h : temp ∈ d.pending
    · rw [List.insert_of_mem h]
    · rw [List.insert_of_not_mem h, List.filter_cons_of_neg (by simp)]

/-- **A commit replaces the file at its path or leaves the tree as it is**, whatever the system
refuses. Nothing is noted that was not noted before, and all that was is noted still, unless the
temporary name was among it. -/
theorem commitUnder_cases (c : Circumstances) (d : Disk) (path content : Text) (mode : Nat) :
    ∃ noted, noted.Sublist d.pending ∧
      (temporaryPath path c.number ∉ d.pending → noted = d.pending) ∧
      ((¬ d.Admits c path ∧
        ∃ e, d.commitUnder c path content mode = ({ d with pending := noted }, .error e)) ∨
      (d.Admits c path ∧ ∃ q, d.tree.locate path = .ok q ∧ d.tree.get? q ≠ some .directory ∧
        d.commitUnder c path content mode =
          ({ tree := d.tree.insert q (.file content (mode % 0o1000)), pending := noted },
            .ok ()))) := by
  unfold commitUnder
  rcases d.tree.createTemporary_cases c path with ⟨p, hp, hcreate⟩ | ⟨hnot, e, hcreate⟩
  · simp only [hcreate]
    rcases FileTree.replace_insert hp.free hp.locate_eq c path content mode with
      ⟨hobstacle, content', mode', e, hreplace⟩ | ⟨hnone, q, hq, hdir, hreplace⟩
    · obtain ⟨noted, hsub, hsame, hrelease⟩ :=
        d.release_reserve (temporaryPath path c.number) d.tree
      refine ⟨noted, hsub, hsame, .inl ⟨fun h => ?_, e, ?_⟩⟩
      · obtain ⟨q, hq, hdir⟩ := h.target
        rcases hobstacle with ⟨s, hs⟩ | hnot
        · exact hs (h.refusal_eq s)
        · exact hdir (hnot q hq)
      · simp only [hreplace, FileTree.remove_insert hp.free hp.locate_eq]
        rw [hrelease]
    · obtain ⟨noted, hsub, hsame, hrelease⟩ := d.release_reserve (temporaryPath path c.number)
        (d.tree.insert q (.file content (mode % 0o1000)))
      refine ⟨noted, hsub, hsame, .inr ⟨⟨fun s => ?_, ⟨p, hp⟩, q, hq, hdir⟩, q, hq, hdir, ?_⟩⟩
      · by_cases hs : s = .create
        · rw [hs, hp.refusal_eq]
        · exact hnone s hs
      · simp only [hreplace]
        rw [hrelease]
  · refine ⟨d.pending, .refl _, fun _ => rfl, .inl ⟨fun h => ?_, e, by simp only [hcreate]⟩⟩
    obtain ⟨p, hp⟩ := h.creatable
    exact hnot p hp

/-! ## Free numbers -/

/-- Some temporary file is neither there nor noted: there are more numbers to try than places in the
tree and notes. -/
theorem exists_free_number (d : Disk) (path : Text) :
    ∃ n < d.numbersToTry,
      (∀ node, d.tree.stat (temporaryPath path n) ≠ .ok node) ∧
        temporaryPath path n ∉ d.pending := by
  by_contra hall
  push Not at hall
  let numbers := Finset.range d.numbersToTry
  let noted := numbers.filter fun n => temporaryPath path n ∈ d.pending
  let taken := numbers.filter fun n => temporaryPath path n ∉ d.pending
  have htaken : taken.card ≤ d.tree.nodes.length := by
    refine d.tree.card_taken_le path taken fun n hn => ?_
    obtain ⟨hrange, hnot⟩ := Finset.mem_filter.1 hn
    by_contra hstat
    push Not at hstat
    exact hnot (hall n (Finset.mem_range.1 hrange) hstat)
  have hnoted : noted.card ≤ d.pending.length := by
    refine le_trans ?_ d.pending.toFinset_card_le
    refine Finset.card_le_card_of_injOn (temporaryPath path) (fun n hn => ?_)
      (temporaryPath_injective path).injOn
    simpa using (Finset.mem_filter.1 hn).2
  have hsplit : noted.card + taken.card = numbers.card :=
    Finset.card_filter_add_card_filter_not _
  rw [Finset.card_range, numbersToTry] at hsplit
  omega

/-- The number that is taken for a commit is free. -/
theorem freeNumber_spec (d : Disk) (path : Text) :
    (∀ node, d.tree.stat (temporaryPath path (d.freeNumber path)) ≠ .ok node) ∧
      temporaryPath path (d.freeNumber path) ∉ d.pending := by
  obtain ⟨n, hn, hfree, hnoted⟩ := d.exists_free_number path
  unfold freeNumber
  cases hfind : (List.range d.numbersToTry).find? fun n =>
      (d.tree.stat (temporaryPath path n)).toOption.isNone &&
        !d.pending.contains (temporaryPath path n) with
  | none =>
    have htaken := List.find?_eq_none.1 hfind n (List.mem_range.2 hn)
    cases hstat : d.tree.stat (temporaryPath path n) with
    | error e => simp [hstat, Except.toOption, hnoted] at htaken
    | ok node => exact absurd hstat (hfree node)
  | some m =>
    have hfound := List.find?_some hfind
    simp only [Bool.and_eq_true, Bool.not_eq_true', List.contains_eq_mem,
      decide_eq_false_iff_not] at hfound
    refine ⟨fun node hstat => ?_, hfound.2⟩
    rw [Option.getD_some] at hstat
    simp [hstat, Except.toOption] at hfound

/-! ## All or nothing -/

/-- **A commit is all or nothing.** Whatever the system refuses, if the commit fails, the tree is as
before; if it succeeds, the path holds the content with the permissions, and nothing else has
changed. The temporary files noted are those noted before. It succeeds exactly if nothing is in its
way, and `commit` is one of these commits, with a temporary name that is neither taken nor noted. -/
theorem commit_all_or_nothing {c : Circumstances} {d : Disk} {path : Text} {mode : Nat}
    (hfresh : temporaryPath path c.number ∉ d.pending) (hmode : mode < 0o1000) (content : Text) :
    let r := d.commitUnder c path content mode
    r.1.pending = d.pending ∧
    (∀ e, r.2 = .error e → r.1.tree = d.tree) ∧
    (r.2 = .ok () → ∃ q, d.tree.locate path = .ok q ∧
      r.1.tree.stat path = .ok (.file content mode) ∧
      r.1.tree.get? = Function.update d.tree.get? q (some (.file content mode))) ∧
    (r.2 = .ok () ↔ d.Admits c path) ∧
    ∃ n, d.commit path content mode = d.commitUnder { number := n } path content mode ∧
      temporaryPath path n ∉ d.pending ∧
      ∀ p, d.tree.locate (temporaryPath path n) = .ok p → d.tree.get? p = none := by
  intro r
  have hnumber : ∃ n, d.commit path content mode = d.commitUnder { number := n } path content mode ∧
      temporaryPath path n ∉ d.pending ∧
      ∀ p, d.tree.locate (temporaryPath path n) = .ok p → d.tree.get? p = none := by
    obtain ⟨hfree, hnoted⟩ := d.freeNumber_spec path
    refine ⟨d.freeNumber path, rfl, hnoted, fun p hp => ?_⟩
    by_contra hget
    obtain ⟨node, hnode⟩ := Option.ne_none_iff_exists'.1 hget
    exact hfree node (FileTree.stat_eq_ok_iff.2 ⟨p, hp, hnode⟩)
  obtain ⟨noted, -, hsame, hcases⟩ := commitUnder_cases c d path content mode
  rw [Nat.mod_eq_of_lt hmode, hsame hfresh] at hcases
  rcases hcases with ⟨hobstacle, e, hr⟩ | ⟨hadmits, q, hq, hdir, hr⟩
  · rw [show r = _ from hr]
    exact ⟨rfl, fun _ _ => rfl, fun hok => (nomatch hok),
      iff_of_false (fun hok => (nomatch hok)) hobstacle, hnumber⟩
  · have hstat := FileTree.stat_insert hq hdir content mode
    have hget := FileTree.get?_insert hdir content mode
    rw [show r = _ from hr]
    exact ⟨rfl, fun _ herror => (nomatch herror), fun _ => ⟨q, hq, hstat, hget⟩,
      iff_of_true rfl hadmits, hnumber⟩

/-- A path that holds a file, while another commit is under way. If the permissions of the temporary
file are refused, all is as before; if not, the file is replaced. -/
theorem commit_all_or_nothing_chmod_refused :
    let d : Disk := {
      tree := {
        entries := [([utf8 "home", utf8 "out"], .directory),
          ([utf8 "home", utf8 "out", utf8 "A.asm"], .file (utf8 "old") 0o644),
          ([utf8 "home", utf8 "out", utf8 ".B.asm.7.tmp"], .file (utf8 "n") 0o600)]
        workingDirectory := [utf8 "home"] }
      pending := [utf8 "out/.B.asm.7.tmp"] }
    let refusing : Circumstances :=
      { number := 7, refusal := fun s => if s = .chmod then some .notPermitted else none }
    let r := d.commitUnder refusing (utf8 "out/A.asm") (utf8 "new") 0o600
    let r' := d.commitUnder { number := 7 } (utf8 "out/A.asm") (utf8 "new") 0o600
    (r.2 = .error (.refused (utf8 "chmod") (utf8 "out/.A.asm.7.tmp") .notPermitted) ∧
      r.1.tree = d.tree ∧ r.1.pending = d.pending) ∧
    r'.2 = .ok () ∧ r'.1.tree.stat (utf8 "out/A.asm") = .ok (.file (utf8 "new") 0o600) ∧
      r'.1.pending = d.pending := by
  intro d refusing r
  have hfresh : temporaryPath (utf8 "out/A.asm") 7 ∉ d.pending := by decide
  have hrefused :
      r.2 = .error (.refused (utf8 "chmod") (utf8 "out/.A.asm.7.tmp") .notPermitted) := by
    decide +kernel
  have hdone :
      (d.commitUnder { number := 7 } (utf8 "out/A.asm") (utf8 "new") 0o600).2 = .ok () := by
    decide +kernel
  obtain ⟨hpending, htree, -⟩ :=
    commit_all_or_nothing (c := refusing) (d := d) hfresh (show 0o600 < 0o1000 by decide)
      (utf8 "new")
  obtain ⟨hpending', -, hwritten, -⟩ :=
    commit_all_or_nothing (c := { number := 7 }) (d := d) hfresh (show 0o600 < 0o1000 by decide)
      (utf8 "new")
  obtain ⟨q, -, hstat, -⟩ := hwritten hdone
  exact ⟨⟨hrefused, htree _ hrefused, hpending⟩, hdone, hstat, hpending'⟩

end Disk

end HackVM
