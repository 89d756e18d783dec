import HackVM.Batch
import HackVM.Proofs.Committing

/-!
# The trials of a run

A run goes through source files one after the other. The turn of a file is a `Trial`: the file, its
number and the disk as it is when the turn comes. What the host refuses can make a trial fail at any
step. A trial that fails leaves the tree as it is, and one that succeeds puts the assembly at the
place of its target (`Trial.attempt_cases`). `Turns` follows the disk from trial to trial. Along the
turns of a run directories stay what they are, a place to which no trial writes keeps what it has
(`Turns.get?_eq`), and any other has what the last trial wrote to it (`Turns.get?_of_writes`). A
path on which outputs come to lie has the assembly of the last of them
(`Turns.exists_last_output`).

`trials` are those of a list of files, up to the first failure unless the run is to keep going
(`sources_trials`), and `runTrials` those of a whole run (`run_cases`).
-/

namespace HackVM

namespace Batch

variable {host : Host}

/-! ## One trial -/

/-- A source file of a run, with its number and the disk on which its turn comes. -/
structure Trial where
  options : Options
  number : Nat
  disk : Disk
  source : Text
  deriving DecidableEq, Repr

namespace Trial

/-- The compilation of the source. -/
def compilation (host : Host) (t : Trial) : Compilation :=
  t.disk.tree.compileFile host.codecs (host.read t.number) t.options.encoding t.source
    (compilationOptions t.options t.source)

/-- The output path. -/
def target (t : Trial) : Text := targetPath t.options t.source

/-- The circumstances under which the output is written. -/
def circumstances (host : Host) (t : Trial) : Circumstances :=
  host.commit t.number t.disk t.target

/-- The path of the temporary file for the output. -/
def temporary (host : Host) (t : Trial) : Text :=
  temporaryPath t.target (t.circumstances host).number

/-- What comes of the trial. -/
def attempt (host : Host) (t : Trial) : Attempt :=
  compileOne host t.options t.number t.disk t.source

/-- Is the file counted as compiled? -/
def succeeded (host : Host) (t : Trial) : Bool := (t.attempt host).succeeded

/-- Is this the last trial, whatever files are left? -/
def stops (host : Host) (t : Trial) : Bool := !t.succeeded host && !t.options.keepGoing

/-- What the log says about the trial. -/
def log (host : Host) (t : Trial) : List LogRecord :=
  (t.attempt host).log ++
    if t.stops host then
      [⟨.warn, utf8 "Stopping after first failed file", [(utf8 "file", .text t.source)]⟩]
    else []

/-- The trial puts an assembly text at a place. -/
structure Writes (host : Host) (t : Trial) (p : Place) (asm : Text) : Prop where
  succeeded : t.succeeded host = true
  assembly : (t.compilation host).assembly = .ok asm
  locate : t.disk.tree.locate t.target = .ok p

theorem attempt_of_error {t : Trial} {e : Diagnostic}
    (h : (t.compilation host).assembly = .error e) :
    t.succeeded host = false ∧ (t.attempt host).disk = t.disk := by
  unfold compilation at h
  simp [succeeded, attempt, compileOne, h]

/-- A source that compiles is as good as the commit of its assembly. -/
theorem attempt_of_ok {t : Trial} {asm : Text} (h : (t.compilation host).assembly = .ok asm) :
    let r := t.disk.commitUnder (t.circumstances host) t.target asm assemblyMode
    (t.attempt host).disk = r.1 ∧ (t.succeeded host = true ↔ r.2 = .ok ()) := by
  intro r
  have hr : t.disk.commitUnder (host.commit t.number t.disk (targetPath t.options t.source))
      (targetPath t.options t.source) asm assemblyMode = (r.1, r.2) := rfl
  unfold compilation at h
  rw [succeeded, attempt, compileOne, h]
  simp only [hr]
  cases r.2 with
  | error e => simp
  | ok u => simp

/-- **A trial fails and leaves the tree as it is, or it puts the assembly at the place of its
target.** No temporary file is noted after it that was not noted before, and those that were are
still noted, unless the name for the trial was among them. -/
theorem attempt_cases (host : Host) (t : Trial) :
    ∃ noted, noted.Sublist t.disk.pending ∧
      (t.temporary host ∉ t.disk.pending → noted = t.disk.pending) ∧
      ((t.succeeded host = false ∧ (t.attempt host).disk = { t.disk with pending := noted }) ∨
        ∃ p asm, t.Writes host p asm ∧ t.disk.tree.get? p ≠ some .directory ∧
          (t.attempt host).disk =
            { tree := t.disk.tree.insert p (.file asm assemblyMode), pending := noted }) := by
  cases hasm : (t.compilation host).assembly with
  | error e => exact ⟨t.disk.pending, .refl _, fun _ => rfl, .inl (attempt_of_error hasm)⟩
  | ok asm =>
    obtain ⟨hdisk, hs⟩ := attempt_of_ok hasm
    obtain ⟨noted, hsub, hsame, hcommit⟩ :=
      t.disk.commitUnder_cases (t.circumstances host) t.target asm assemblyMode
    refine ⟨noted, hsub, hsame, ?_⟩
    rcases hcommit with ⟨-, e, hr⟩ | ⟨-, p, hp, hdir, hr⟩
    · rw [hr] at hs hdisk
      exact .inl ⟨by simpa using hs, hdisk⟩
    · rw [hr] at hs hdisk
      exact .inr ⟨p, asm, ⟨hs.2 rfl, hasm, hp⟩, hdir, hdisk⟩

theorem pending_attempt (host : Host) (t : Trial) :
    (t.attempt host).disk.pending.Sublist t.disk.pending ∧
      (t.temporary host ∉ t.disk.pending →
        (t.attempt host).disk.pending = t.disk.pending) := by
  obtain ⟨noted, hsub, hsame, ⟨-, hdisk⟩ | ⟨p, asm, -, -, hdisk⟩⟩ := t.attempt_cases host
  · rw [hdisk]
    exact ⟨hsub, hsame⟩
  · rw [hdisk]
    exact ⟨hsub, hsame⟩

theorem tree_of_failed {t : Trial} (h : t.succeeded host = false) :
    (t.attempt host).disk.tree = t.disk.tree := by
  obtain ⟨noted, -, -, ⟨-, hdisk⟩ | ⟨p, asm, hwrites, -, -⟩⟩ := t.attempt_cases host
  · rw [hdisk]
  · simp [hwrites.succeeded] at h

theorem exists_writes {t : Trial} (h : t.succeeded host = true) :
    ∃ p asm, t.Writes host p asm := by
  obtain ⟨noted, -, -, ⟨hfailed, -⟩ | ⟨p, asm, hwrites, -, -⟩⟩ := t.attempt_cases host
  · simp [hfailed] at h
  · exact ⟨p, asm, hwrites⟩

theorem Writes.tree_eq {t : Trial} {p : Place} {asm : Text} (h : t.Writes host p asm) :
    t.disk.tree.get? p ≠ some .directory ∧
      (t.attempt host).disk.tree = t.disk.tree.insert p (.file asm assemblyMode) := by
  obtain ⟨noted, -, -, ⟨hfailed, -⟩ | ⟨p', asm', hwrites, hdir, hdisk⟩⟩ := t.attempt_cases host
  · simp [h.succeeded] at hfailed
  · obtain rfl := Except.ok.inj (h.locate.symm.trans hwrites.locate)
    obtain rfl := Except.ok.inj (h.assembly.symm.trans hwrites.assembly)
    exact ⟨hdir, by rw [hdisk]⟩

theorem sameDirectories (host : Host) (t : Trial) :
    t.disk.tree.SameDirectories (t.attempt host).disk.tree := by
  obtain ⟨noted, -, -, ⟨-, hdisk⟩ | ⟨p, asm, -, hdir, hdisk⟩⟩ := t.attempt_cases host
  · rw [hdisk]
    exact .refl _
  · rw [hdisk]
    exact FileTree.sameDirectories_insert hdir asm assemblyMode

theorem get?_of_not_writes {t : Trial} {p : Place} (h : ∀ asm, ¬ t.Writes host p asm) :
    (t.attempt host).disk.tree.get? p = t.disk.tree.get? p := by
  obtain ⟨noted, -, -, ⟨-, hdisk⟩ | ⟨q, asm, hwrites, -, hdisk⟩⟩ := t.attempt_cases host
  · rw [hdisk]
  · have hne : p ≠ q := by
      rintro rfl
      exact h asm hwrites
    rw [hdisk]
    exact FileTree.get?_insert_of_ne hne _

theorem Writes.get?_eq {t : Trial} {p : Place} {asm : Text} (h : t.Writes host p asm) :
    (t.attempt host).disk.tree.get? p = some (.file asm assemblyMode) := by
  obtain ⟨hdir, htree⟩ := h.tree_eq
  rw [htree]
  exact FileTree.get?_insert_self (FileTree.isAbove_eq_false hdir) _

end Trial

/-! ## Trials in turn -/

/-- The trials follow each other from one disk to another. -/
inductive Turns (host : Host) : Disk → List Trial → Disk → Prop
  | nil (d : Disk) : Turns host d [] d
  | cons {t : Trial} {ts : List Trial} {d : Disk} (h : Turns host (t.attempt host).disk ts d) :
      Turns host t.disk (t :: ts) d

namespace Turns

variable {d d' : Disk} {ts : List Trial}

theorem split {front back : List Trial} (h : Turns host d (front ++ back) d') :
    ∃ middle, Turns host d front middle ∧ Turns host middle back d' := by
  induction front generalizing d with
  | nil => exact ⟨d, .nil d, h⟩
  | cons t front ih =>
    cases h with
    | cons h =>
      obtain ⟨middle, hfront, hback⟩ := ih h
      exact ⟨middle, .cons hfront, hback⟩

/-- The disk on which a trial's turn comes is the one that the trials before it leave. -/
theorem split_cons {front back : List Trial} {t : Trial}
    (h : Turns host d (front ++ t :: back) d') :
    Turns host d front t.disk ∧ Turns host (t.attempt host).disk back d' := by
  obtain ⟨middle, hfront, hback⟩ := h.split
  cases hback with
  | cons hback => exact ⟨hfront, hback⟩

theorem sameDirectories (h : Turns host d ts d') : d.tree.SameDirectories d'.tree := by
  induction h with
  | nil d => exact .refl _
  | cons h ih => exact (Trial.sameDirectories host _).trans ih

theorem sameDirectories_of_mem (h : Turns host d ts d') {t : Trial} (ht : t ∈ ts) :
    d.tree.SameDirectories t.disk.tree := by
  obtain ⟨front, back, rfl⟩ := List.append_of_mem ht
  exact h.split_cons.1.sameDirectories

theorem pending_sublist (h : Turns host d ts d') : d'.pending.Sublist d.pending := by
  induction h with
  | nil d => exact .refl _
  | cons h ih => exact ih.trans (Trial.pending_attempt host _).1

theorem pending_eq (h : Turns host d ts d') (hfresh : ∀ t ∈ ts, t.temporary host ∉ d.pending) :
    d'.pending = d.pending := by
  induction h with
  | nil d => rfl
  | cons h ih =>
    rw [List.forall_mem_cons] at hfresh
    have hsame := (Trial.pending_attempt host _).2 hfresh.1
    rw [ih (by rw [hsame]; exact hfresh.2), hsame]

/-- **A place to which no trial writes keeps what it has.** -/
theorem get?_eq (h : Turns host d ts d') {p : Place} (hp : ∀ t ∈ ts, ∀ asm, ¬ t.Writes host p asm) :
    d'.tree.get? p = d.tree.get? p := by
  induction h with
  | nil d => rfl
  | cons h ih =>
    rw [List.forall_mem_cons] at hp
    rw [ih hp.2, Trial.get?_of_not_writes hp.1]

/-- **A place has what the last trial wrote to it.** -/
theorem get?_of_writes {front back : List Trial} {t : Trial}
    (h : Turns host d (front ++ t :: back) d') {p : Place} {asm : Text} (ht : t.Writes host p asm)
    (hlast : ∀ u ∈ back, ∀ asm, ¬ u.Writes host p asm) :
    d'.tree.get? p = some (.file asm assemblyMode) := by
  rw [h.split_cons.2.get?_eq hlast, ht.get?_eq]

/-- A trial writes to the place where its target lies already before the run. -/
theorem writes_iff (h : Turns host d ts d') {t : Trial} (ht : t ∈ ts) {p : Place} :
    (∃ asm, t.Writes host p asm) ↔ t.succeeded host = true ∧ d.tree.locate t.target = .ok p := by
  rw [(h.sameDirectories_of_mem ht).locate_eq_ok_iff]
  constructor
  · rintro ⟨asm, hwrites⟩
    exact ⟨hwrites.succeeded, hwrites.locate⟩
  · rintro ⟨hs, hp⟩
    obtain ⟨q, asm, hwrites⟩ := Trial.exists_writes hs
    obtain rfl := Except.ok.inj (hp.symm.trans hwrites.locate)
    exact ⟨asm, hwrites⟩

/-- A path to which no output leads keeps what is at its end. -/
theorem stat_eq_ok_iff (h : Turns host d ts d') {path : Text} {n : Node}
    (hpath : ∀ t ∈ ts, t.succeeded host = true → d.tree.locate t.target ≠ d.tree.locate path) :
    d'.tree.stat path = .ok n ↔ d.tree.stat path = .ok n := by
  rw [FileTree.stat_eq_ok_iff, FileTree.stat_eq_ok_iff]
  refine exists_congr fun p => ?_
  rw [← h.sameDirectories.locate_eq_ok_iff]
  refine and_congr_right fun hp => ?_
  rw [h.get?_eq]
  intro t ht asm hwrites
  obtain ⟨hs, hlocate⟩ := (h.writes_iff ht).1 ⟨asm, hwrites⟩
  exact hpath t ht hs (hlocate.trans hp.symm)

theorem stat_of_writes {front back : List Trial} {t : Trial}
    (h : Turns host d (front ++ t :: back) d') {p : Place} {asm : Text} (ht : t.Writes host p asm)
    (hlast : ∀ u ∈ back, ∀ asm, ¬ u.Writes host p asm) {path : Text}
    (hpath : d.tree.locate path = .ok p) :
    d'.tree.stat path = .ok (.file asm assemblyMode) :=
  FileTree.stat_eq_ok_iff.2
    ⟨p, h.sameDirectories.locate_eq_ok_iff.1 hpath, h.get?_of_writes ht hlast⟩

end Turns

/-- Among trials that write to a place there is a last one. -/
theorem exists_last_writer {ts : List Trial} {p : Place}
    (h : ∃ t ∈ ts, ∃ asm, t.Writes host p asm) :
    ∃ front u back asm, ts = front ++ u :: back ∧ u.Writes host p asm ∧
      ∀ v ∈ back, ∀ asm, ¬ v.Writes host p asm := by
  induction ts with
  | nil => simp at h
  | cons s ts ih =>
    by_cases hlater : ∃ t ∈ ts, ∃ asm, t.Writes host p asm
    · obtain ⟨front, u, back, asm, hts, hu, hlast⟩ := ih hlater
      exact ⟨s :: front, u, back, asm, by rw [hts]; rfl, hu, hlast⟩
    · have hnone : ∀ v ∈ ts, ∀ asm, ¬ v.Writes host p asm :=
        fun v hv asm hwrites => hlater ⟨v, hv, asm, hwrites⟩
      obtain ⟨t, ht, asm, hwrites⟩ := h
      rcases List.mem_cons.1 ht with rfl | ht
      · exact ⟨[], t, ts, asm, rfl, hwrites, hnone⟩
      · exact absurd hwrites (hnone t ht asm)

/-- **A path on which outputs come to lie has the assembly of the last of them.** -/
theorem Turns.exists_last_output {d d' : Disk} {ts : List Trial} (h : Turns host d ts d')
    {t : Trial} (ht : t ∈ ts) (hs : t.succeeded host = true) {path : Text}
    (hpath : d.tree.locate t.target = d.tree.locate path) :
    ∃ (front : List Trial) (u : Trial) (back : List Trial) (asm : Text),
      ts = front ++ u :: back ∧ u.succeeded host = true ∧ (u.compilation host).assembly = .ok asm ∧
        d.tree.locate u.target = d.tree.locate path ∧
        (∀ v ∈ back, v.succeeded host = true → d.tree.locate v.target ≠ d.tree.locate path) ∧
        d'.tree.stat path = .ok (.file asm assemblyMode) := by
  obtain ⟨p, asm, hwrites⟩ := Trial.exists_writes hs
  have hp : d.tree.locate path = .ok p :=
    hpath.symm.trans ((h.writes_iff ht).1 ⟨asm, hwrites⟩).2
  obtain ⟨front, u, back, asm', rfl, hu, hlast⟩ := exists_last_writer ⟨t, ht, asm, hwrites⟩
  refine ⟨front, u, back, asm', rfl, hu.succeeded, hu.assembly, ?_, ?_,
    h.stat_of_writes hu hlast hp⟩
  · exact ((h.writes_iff (by simp)).1 ⟨asm', hu⟩).2.trans hp.symm
  · intro v hv hsv hplace
    obtain ⟨asm'', hv'⟩ := (h.writes_iff (by simp [hv])).2 ⟨hsv, hplace.trans hp⟩
    exact hlast v hv asm'' hv'

/-! ## The trials of a list of files -/

/-- The trials of source files, up to the first that stops the run. The first of them has the number
`n`. -/
def trials (host : Host) (o : Options) (n : Nat) (d : Disk) : List Text → List Trial
  | [] => []
  | source :: rest =>
    let t : Trial := ⟨o, n, d, source⟩
    t :: if t.stops host then [] else trials host o (n + 1) (t.attempt host).disk rest

theorem compileAll_cons (host : Host) (o : Options) (n : Nat) (d : Disk) (source : Text)
    (rest : List Text) :
    let t : Trial := ⟨o, n, d, source⟩
    let later := if t.stops host then { disk := (t.attempt host).disk }
      else compileAll host o (n + 1) (t.attempt host).disk rest
    compileAll host o n d (source :: rest) =
      { disk := later.disk
        succeeded := later.succeeded + if t.succeeded host then 1 else 0
        failed := later.failed + if t.succeeded host then 0 else 1
        log := t.log host ++ later.log } := by
  intro t later
  have hattempt : compileOne host o n d source = t.attempt host := rfl
  have hkeep : o.keepGoing = t.options.keepGoing := rfl
  rw [compileAll, hattempt, hkeep]
  cases hs : (t.attempt host).succeeded with
  | true => simp [later, Trial.log, Trial.stops, Trial.succeeded, hs]
  | false =>
    cases hk : t.options.keepGoing with
    | true => simp [later, Trial.log, Trial.stops, Trial.succeeded, hs, hk]
    | false =>
      have hsource : t.source = source := rfl
      simp [later, Trial.log, Trial.stops, Trial.succeeded, hs, hk, hsource]

/-- **Compiling files one after the other is going through their trials.** -/
theorem compileAll_trials (host : Host) (o : Options) (n : Nat) (d : Disk) (files : List Text) :
    Turns host d (trials host o n d files) (compileAll host o n d files).disk ∧
      (compileAll host o n d files).succeeded =
        (trials host o n d files).countP (·.succeeded host) ∧
      (compileAll host o n d files).failed =
        (trials host o n d files).countP (!·.succeeded host) ∧
      (compileAll host o n d files).log = (trials host o n d files).flatMap (·.log host) := by
  induction files generalizing n d with
  | nil => exact ⟨.nil d, rfl, rfl, rfl⟩
  | cons source rest ih =>
    let t : Trial := ⟨o, n, d, source⟩
    rw [compileAll_cons, trials]
    split
    · next hstops =>
      refine ⟨.cons (t := t) (.nil _), ?_, ?_, ?_⟩
      · cases hs : t.succeeded host <;> simp [hs, t]
      · cases hs : t.succeeded host <;> simp [hs, t]
      · simp
    · next hstops =>
      obtain ⟨hturns, hsucceeded, hfailed, hlog⟩ := ih (n + 1) (t.attempt host).disk
      refine ⟨.cons (t := t) hturns, ?_, ?_, ?_⟩
      · rw [List.countP_cons, ← hsucceeded]
      · rw [List.countP_cons, ← hfailed]
        cases t.succeeded host <;> simp [t]
      · rw [List.flatMap_cons, ← hlog]

theorem options_of_mem_trials {o : Options} {n : Nat} {d : Disk} {files : List Text} {t : Trial}
    (h : t ∈ trials host o n d files) : t.options = o := by
  induction files generalizing n d with
  | nil => cases h
  | cons source rest ih =>
    rw [trials, List.mem_cons] at h
    rcases h with rfl | h
    · rfl
    · split at h
      · cases h
      · exact ih h

/-- The files that are tried come first in the list. No trial but the last stops the run, and the
last one does if files are left. -/
theorem sources_trials (host : Host) (o : Options) (n : Nat) (d : Disk) (files : List Text) :
    ∃ rest, files = (trials host o n d files).map Trial.source ++ rest ∧
      (∀ t ∈ (trials host o n d files).dropLast, t.stops host = false) ∧
      (rest ≠ [] → ∃ t, (trials host o n d files).getLast? = some t ∧ t.stops host = true) := by
  induction files generalizing n d with
  | nil => exact ⟨[], rfl, by simp [trials], by simp⟩
  | cons source files ih =>
    let t : Trial := ⟨o, n, d, source⟩
    rw [trials]
    split
    · next hstops => exact ⟨files, rfl, by simp, fun _ => ⟨t, rfl, hstops⟩⟩
    · next hstops =>
      obtain ⟨rest, hfiles, hdrop, hlast⟩ := ih (n + 1) (t.attempt host).disk
      refine ⟨rest, ?_, ?_, ?_⟩
      · rw [List.map_cons, List.cons_append, ← hfiles]
      · intro u hu
        cases hts : trials host o (n + 1) (t.attempt host).disk files with
        | nil => simp [t, hts] at hu
        | cons v vs =>
          rw [show trials host o (n + 1) ((Trial.mk o n d source).attempt host).disk files = v :: vs
            from hts, List.dropLast_cons_cons, List.mem_cons] at hu
          rcases hu with rfl | hu
          · simpa using hstops
          · exact hdrop u (hts ▸ hu)
      · intro hrest
        obtain ⟨u, hu, hstop⟩ := hlast hrest
        exact ⟨u, by rw [List.getLast?_cons, hu]; rfl, hstop⟩

/-! ## The trials of a run -/

/-- The inputs that a run looks at; help is shown without looking at any. -/
def attendedInputs (o : Options) : List Text := if o.help then [] else o.inputs

/-- The source files that a run resolves its inputs to. -/
def resolvedFiles (host : Host) (o : Options) (d : Disk) : List Text :=
  (expandInputs host d.tree (attendedInputs o)).files

/-- The trials of a run; it has none if it ends with a usage error. -/
def runTrials (host : Host) (env : Environment) (args : List Text) (d : Disk) : List Trial :=
  match Options.parse host.codecs env args with
  | .error _ => []
  | .ok o =>
    if o.output ≠ [] ∧ 1 < (resolvedFiles host o d).length then []
    else trials host o 0 d (resolvedFiles host o d)

/-- **What a run can come to.** It ends with a usage error and does nothing, or it goes through the
trials of the files that it resolves and counts what failed. -/
theorem run_cases (host : Host) (env : Environment) (args : List Text) (d : Disk) :
    let r := run host env args d
    (∃ e, r.error = some e ∧ e.isUsage = true ∧ r.disk = d ∧ r.succeeded = 0 ∧
      runTrials host env args d = []) ∨
    ∃ o, Options.parse host.codecs env args = .ok o ∧
      (o.output ≠ [] → (resolvedFiles host o d).length ≤ 1) ∧
      runTrials host env args d = trials host o 0 d (resolvedFiles host o d) ∧
      r.disk = (compileAll host o 0 d (resolvedFiles host o d)).disk ∧
      r.succeeded = (compileAll host o 0 d (resolvedFiles host o d)).succeeded ∧
      r.failed = (expandInputs host d.tree (attendedInputs o)).failed +
        (compileAll host o 0 d (resolvedFiles host o d)).failed ∧
      (r.error = if r.failed = 0 then none
        else some (.failedFiles r.failed (r.succeeded + r.failed))) ∧
      (o.help = false → r.log = (expandInputs host d.tree o.inputs).log ++
        (compileAll host o 0 d (resolvedFiles host o d)).log ++
          [summaryRecord r.succeeded r.failed]) := by
  unfold run runTrials
  cases hparse : Options.parse host.codecs env args with
  | error e => exact .inl ⟨.usage e, rfl, rfl, rfl, rfl, rfl⟩
  | ok o =>
    by_cases hhelp : o.help = true
    · have hinputs : attendedInputs o = [] := if_pos hhelp
      have hfiles : resolvedFiles host o d = [] := by rw [resolvedFiles, hinputs]; rfl
      refine .inr ⟨o, rfl, ?_⟩
      simp only [hhelp, hfiles, hinputs]
      exact ⟨by simp, by simp, rfl, rfl, rfl, rfl, by simp⟩
    · have hinputs : attendedInputs o = o.inputs := if_neg hhelp
      by_cases hempty : o.inputs = []
      · refine .inl ⟨.noInputs, ?_⟩
        have hfiles : resolvedFiles host o d = [] := by rw [resolvedFiles, hinputs, hempty]; rfl
        simp [hhelp, hempty, hfiles, RunError.isUsage, trials]
      · simp only [hhelp, hempty, runWith, resolvedFiles, hinputs]
        by_cases hmany : o.output ≠ [] ∧ 1 < (expandInputs host d.tree o.inputs).files.length
        · refine .inl ⟨.outputForManyFiles (expandInputs host d.tree o.inputs).files.length, ?_⟩
          simp [hmany, RunError.isUsage]
        · refine .inr ⟨o, rfl, fun houtput => ?_, ?_⟩
          · rw [hinputs]
            exact Nat.not_lt.1 fun hlt => hmany ⟨houtput, hlt⟩
          · simp [hmany, hinputs]

theorem turns_run (host : Host) (env : Environment) (args : List Text) (d : Disk) :
    Turns host d (runTrials host env args d) (run host env args d).disk := by
  rcases run_cases host env args d with ⟨e, -, -, hdisk, -, hts⟩ | ⟨o, -, -, hts, hdisk, -⟩
  · rw [hts, hdisk]
    exact .nil d
  · rw [hts, hdisk]
    exact (compileAll_trials host o 0 d _).1

theorem succeeded_run (host : Host) (env : Environment) (args : List Text) (d : Disk) :
    (run host env args d).succeeded = (runTrials host env args d).countP (·.succeeded host) := by
  rcases run_cases host env args d with
    ⟨e, -, -, -, hsucceeded, hts⟩ | ⟨o, -, -, hts, -, hsucceeded, -⟩
  · rw [hts, hsucceeded]
    rfl
  · rw [hts, hsucceeded]
    exact (compileAll_trials host o 0 d _).2.1

end Batch

end HackVM
