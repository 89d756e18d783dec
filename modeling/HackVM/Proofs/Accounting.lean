import HackVM.Encoding.Basic
import HackVM.Proofs.Trials

/-!
# What a run changes and counts

A run that ends with a usage error does nothing. Any other changes the places of the outputs that it
counts, and no others; no temporary file is left. It counts every source file that it tries and
every input without source files once, as a success or as a failure. When it is to keep going it
tries all source files, and otherwise it stops at the first failure. All of this holds whatever the
system refuses when the run looks up its inputs, reads a source or writes an output
(`accounting_of_run`).
-/

namespace HackVM

namespace Batch

variable {host : Host}

/-! ## Inputs without source files -/

/-- The inputs of a run that stand for no source file, with their numbers. -/
def emptyInputs (host : Host) (o : Options) (d : Disk) : List (Text × Nat) :=
  (attendedInputs o).zipIdx.filter fun (i, n) => (expandInput (host.lookup n) d.tree i).files = []

theorem failed_expandInput (refusal : LookupStep → Option SystemError) (t : FileTree)
    (input : Text) :
    (expandInput refusal t input).failed =
      if (expandInput refusal t input).files = [] then 1 else 0 := by
  unfold expandInput
  split
  · split
    · rfl
    · rfl
    · next files hne _ => exact (if_neg hne).symm
  · split <;> rfl

/-- An input counts as a failure if it stands for no source file. -/
theorem failed_expandInputs (host : Host) (t : FileTree) (inputs : List Text) :
    (expandInputs host t inputs).failed =
      (inputs.zipIdx.filter fun (i, n) =>
        (expandInput (host.lookup n) t i).files = []).length := by
  rw [← List.countP_eq_length_filter]
  have hfold (numbered : List (Text × Nat)) (k : Nat) :
      (numbered.map fun (i, n) => expandInput (host.lookup n) t i).foldl
          (fun k r => k + r.failed) k =
        k + numbered.countP fun (i, n) => (expandInput (host.lookup n) t i).files = [] := by
    induction numbered generalizing k with
    | nil => rfl
    | cons i numbered ih =>
      rw [List.map_cons, List.foldl_cons, ih, failed_expandInput, List.countP_cons]
      simp only [decide_eq_true_eq]
      omega
  exact (hfold inputs.zipIdx 0).trans (Nat.zero_add _)

/-! ## The files that are tried -/

/-- A run that is to keep going tries all files. -/
theorem sources_trials_of_keepGoing {o : Options} (ho : o.keepGoing = true) (n : Nat) (d : Disk)
    (files : List Text) : (trials host o n d files).map Trial.source = files := by
  obtain ⟨rest, hfiles, -, hlast⟩ := sources_trials host o n d files
  have hrest : rest = [] := by
    by_contra hne
    obtain ⟨t, ht, hstops⟩ := hlast hne
    have hoptions := options_of_mem_trials (List.mem_of_getLast? ht)
    simp [Trial.stops, hoptions, ho] at hstops
  rw [hrest, List.append_nil] at hfiles
  exact hfiles.symm

/-- A run that is not to keep going tries files up to the first that fails. -/
theorem sources_trials_of_not_keepGoing {o : Options} (ho : o.keepGoing = false) (n : Nat)
    (d : Disk) (files : List Text) :
    ∃ rest, files = (trials host o n d files).map Trial.source ++ rest ∧
      (∀ t ∈ (trials host o n d files).dropLast, t.succeeded host = true) ∧
      (rest ≠ [] → ∃ t, (trials host o n d files).getLast? = some t ∧
        t.succeeded host = false) := by
  have hstops {t : Trial} (ht : t ∈ trials host o n d files) :
      t.stops host = !t.succeeded host := by
    simp [Trial.stops, options_of_mem_trials ht, ho]
  obtain ⟨rest, hfiles, hdrop, hlast⟩ := sources_trials host o n d files
  refine ⟨rest, hfiles, fun t ht => ?_, fun hne => ?_⟩
  · simpa [hstops (List.mem_of_mem_dropLast ht)] using hdrop t ht
  · obtain ⟨t, ht, hstop⟩ := hlast hne
    exact ⟨t, ht, by simpa [hstops (List.mem_of_getLast? ht)] using hstop⟩

/-! ## Frame and counts -/

/-- A run that was called the wrong way does nothing. -/
theorem disk_of_isUsage {env : Environment} {args : List Text} {d : Disk} {e : RunError}
    (herror : (run host env args d).error = some e) (husage : e.isUsage = true) :
    (run host env args d).disk = d := by
  rcases run_cases host env args d with ⟨-, -, -, hdisk, -⟩ | ⟨o, -, -, -, -, -, -, herror', -⟩
  · exact hdisk
  · rw [herror'] at herror
    split at herror
    · cases herror
    · cases herror
      cases husage

/-- What a run counts, if the way it was called is not at fault. -/
theorem counts_of_run {env : Environment} {args : List Text} {d : Disk}
    (h : ∀ e, (run host env args d).error = some e → e.isUsage = false) :
    let r := run host env args d
    let ts := runTrials host env args d
    ∃ o, Options.parse host.codecs env args = .ok o ∧
      ts = trials host o 0 d (resolvedFiles host o d) ∧
      r.failed = (emptyInputs host o d).length + ts.countP (!·.succeeded host) ∧
      (r.error = none ↔ r.failed = 0) ∧
      (o.help = false → r.log = (expandInputs host d.tree o.inputs).log ++
        ts.flatMap (·.log host) ++ [summaryRecord r.succeeded r.failed]) := by
  intro r ts
  rcases run_cases host env args d with
    ⟨e, herror, husage, -⟩ | ⟨o, hparse, -, hts, -, -, hfailed, herror, hlog⟩
  · simp [h e herror] at husage
  · obtain ⟨-, -, hcount, hlogs⟩ := compileAll_trials host o 0 d (resolvedFiles host o d)
    refine ⟨o, hparse, hts, ?_, ?_, fun hhelp => ?_⟩
    · rw [hfailed, failed_expandInputs, show ts = _ from hts, hcount]
      rfl
    · rw [herror, ite_eq_left_iff]
      simp [r]
    · rw [hlog hhelp, show ts = _ from hts, hlogs]

/-- **What a run changes and counts**, whatever the system refuses. A usage error changes nothing.
Otherwise all places but the outputs of files that count as compiled stay as they are, the counts
are those of the files that were tried and of the inputs without files, the log tells of these
files, and the run succeeds if nothing failed. -/
theorem accounting_of_run (host : Host) (env : Environment) (args : List Text) (d : Disk) :
    let r := run host env args d
    let ts := runTrials host env args d
    (∀ e, r.error = some e → e.isUsage = true → r.disk = d) ∧
    ((∀ e, r.error = some e → e.isUsage = false) →
      ∃ o, Options.parse host.codecs env args = .ok o ∧
        -- only outputs of files that count as compiled change
        (∀ p, (∀ t ∈ ts, t.succeeded host = true → d.tree.locate t.target ≠ .ok p) →
          r.disk.tree.get? p = d.tree.get? p) ∧
        (∀ path n, (∀ t ∈ ts, t.succeeded host = true →
            d.tree.locate t.target ≠ d.tree.locate path) →
          (r.disk.tree.stat path = .ok n ↔ d.tree.stat path = .ok n)) ∧
        (∀ t ∈ ts, t.succeeded host = false → (t.attempt host).disk.tree = t.disk.tree) ∧
        -- no temporary file is left, and none of those in use elsewhere is forgotten
        r.disk.pending.Sublist d.pending ∧
        ((∀ t ∈ ts, t.temporary host ∉ d.pending) → r.disk.pending = d.pending) ∧
        -- every file that is tried counts once
        r.succeeded = ts.countP (·.succeeded host) ∧
        r.failed = (emptyInputs host o d).length + ts.countP (!·.succeeded host) ∧
        (o.keepGoing = true → ts.map Trial.source = resolvedFiles host o d ∧
          r.succeeded + r.failed =
            (resolvedFiles host o d).length + (emptyInputs host o d).length) ∧
        (o.keepGoing = false → ∃ rest, resolvedFiles host o d = ts.map Trial.source ++ rest ∧
          (∀ t ∈ ts.dropLast, t.succeeded host = true) ∧
          (rest ≠ [] → ∃ t, ts.getLast? = some t ∧ t.succeeded host = false)) ∧
        (r.error = none ↔ r.failed = 0) ∧
        (o.help = false → r.log = (expandInputs host d.tree o.inputs).log ++
          ts.flatMap (·.log host) ++ [summaryRecord r.succeeded r.failed])) := by
  intro r ts
  have hturns : Turns host d ts r.disk := turns_run host env args d
  refine ⟨fun e => disk_of_isUsage, fun hnone => ?_⟩
  obtain ⟨o, hparse, (hts : ts = trials host o 0 d _), hfailed, herror, hlog⟩ :=
    counts_of_run hnone
  have hsucceeded : r.succeeded = ts.countP (·.succeeded host) := succeeded_run host env args d
  change r.failed = (emptyInputs host o d).length + ts.countP (!·.succeeded host) at hfailed
  refine ⟨o, hparse, ?_, ?_, ?_, hturns.pending_sublist, hturns.pending_eq, hsucceeded, hfailed,
    ?_, ?_, herror, hlog⟩
  · intro p hp
    refine hturns.get?_eq fun t ht asm hwrites => ?_
    obtain ⟨hs, hlocate⟩ := (hturns.writes_iff ht).1 ⟨asm, hwrites⟩
    exact hp t ht hs hlocate
  · exact fun path n hpath => hturns.stat_eq_ok_iff hpath
  · exact fun t _ hs => Trial.tree_of_failed hs
  · intro ho
    have hsources : ts.map Trial.source = resolvedFiles host o d := by
      rw [hts]
      exact sources_trials_of_keepGoing ho 0 d _
    have hlength : ts.length = (resolvedFiles host o d).length := by
      rw [← hsources, List.length_map]
    have hcount : ts.length =
        ts.countP (·.succeeded host) + ts.countP (!·.succeeded host) := by
      rw [List.length_eq_countP_add_countP (·.succeeded host)]
      simp
    exact ⟨hsources, by omega⟩
  · intro ho
    rw [hts]
    exact sources_trials_of_not_keepGoing ho 0 d _

/-- A run on which the system refuses to read one source, to write the output of another and to open
a directory: all three count, next to a source that compiles, and the old outputs stay. -/
theorem accounting_of_run_mixed :
    let host : Host := {
      codecs := Encoding.library
      lookup := fun n s => if n = 3 ∧ s = .openDirectory then some .permissionDenied else none
      read := fun n s => if n = 0 ∧ s = .readFile then some .inputOutput else none
      commit := fun n d path => {
        number := d.freeNumber path
        refusal := fun s => if n = 1 ∧ s = .write then some .noSpace else none
        written := 3 } }
    let d : Disk := { tree := { entries := [
      ([utf8 "A.vm"], .file (utf8 "push constant 1\n") 0o644),
      ([utf8 "A.asm"], .file (utf8 "a") 0o644),
      ([utf8 "B.vm"], .file (utf8 "push constant 2\n") 0o644),
      ([utf8 "B.asm"], .file (utf8 "b") 0o644),
      ([utf8 "C.vm"], .file (utf8 "push constant 3\n") 0o644), ([utf8 "D"], .directory)] } }
    let args := [utf8 "A.vm", utf8 "B.vm", utf8 "C.vm", utf8 "D"]
    let r := run host {} args d
    (∀ e, r.error = some e → e.isUsage = false) ∧ r.succeeded = 1 ∧ r.succeeded + r.failed = 4 ∧
      r.error ≠ none ∧ r.disk.tree.stat (utf8 "A.asm") = .ok (.file (utf8 "a") 0o644) ∧
      r.disk.tree.stat (utf8 "B.asm") = .ok (.file (utf8 "b") 0o644) ∧ r.disk.pending = [] := by
  intro host d args r
  have herror : r.error = some (.failedFiles 3 4) := by decide +kernel
  have hnone : ∀ e, r.error = some e → e.isUsage = false := by
    intro e he
    obtain rfl := Option.some.inj (herror.symm.trans he)
    rfl
  have hparse : Options.parse host.codecs {} args = .ok { inputs := args } := by decide +kernel
  obtain ⟨o, ho, -, hframe, -, -, hpending, -, -, hkeep, -⟩ :=
    (accounting_of_run host {} args d).2 hnone
  obtain rfl := Except.ok.inj (hparse.symm.trans ho)
  refine ⟨hnone, by decide +kernel, ?_, by simp [herror], ?_, ?_, hpending (by simp [d])⟩
  · rw [(hkeep rfl).2]
    decide +kernel
  · rw [hframe _ _ (by decide +kernel)]
    decide
  · rw [hframe _ _ (by decide +kernel)]
    decide

end Batch

end HackVM
