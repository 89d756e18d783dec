import HackVM.Encoding.Basic
import HackVM.Proofs.Trials

/-!
# The outputs of a run

The assembly of a source goes next to it, under the stem of its name with the extension for
assembly (`Trial.Writes.getLast?_eq`). Two sources of one directory that differ in their
extensions only have the same output path, and then the later one prevails: after a run an output
path has the assembly of the last source that was compiled to it. A source keeps an output of its
own if no later one has the same stem (`outputs_of_run`).
-/

namespace HackVM

/-! ## Names with another extension -/

namespace Path

theorem finalName_finalName (p : Text) : finalName (finalName p) = finalName p :=
  List.rtakeWhile_idempotent _ p

theorem extension_finalName (p : Text) : extension (finalName p) = extension p :=
  extension_congr (finalName_finalName p)

theorem withExtension_extension (p : Text) : withExtension p (extension p) = p := by
  obtain ⟨front, hp⟩ := extension_isSuffix p
  rw [withExtension]
  nth_rewrite 2 [← hp]
  rw [Text.dropEnding_append, hp]

/-- Another extension takes the place of the old one at the end of the name. -/
theorem finalName_withExtension {ext : Text} (hext : slash ∉ ext) (p : Text) :
    finalName (withExtension p ext) = Text.dropEnding (extension p) (finalName p) ++ ext := by
  have hslash : slash ∉ extension p := by
    intro hmem
    rw [← extension_finalName] at hmem
    exact slash_not_mem_finalName p ((extension_isSuffix _).subset hmem)
  have hp : Text.dropEnding (extension p) p ++ extension p = p := withExtension_extension p
  have hname : finalName p = finalName (Text.dropEnding (extension p) p) ++ extension p := by
    rw [← finalName_append hslash, hp]
  rw [withExtension, finalName_append hext, hname, Text.dropEnding_append]

theorem stem_eq {p : Text} (h : finalName p ≠ []) :
    stem p = Text.dropEnding (extension p) (finalName p) := by
  rw [stem, lastElement_eq_finalName h, extension_finalName]

end Path

/-! ## The places of outputs -/

namespace FileTree

/-- A path that does not lead to a directory ends with the name of its place. -/
theorem getLast?_of_locate {t : FileTree} {path : Text} {p : Place}
    (h : t.locate path = .ok p) (hp : t.get? p ≠ some .directory) :
    Path.finalName path ≠ [] ∧ p.getLast? = some (Path.finalName path) := by
  rcases locate_cases h with ⟨hname, dir, rfl⟩ | ⟨-, hdir⟩
  · exact ⟨hname.1, List.getLast?_concat⟩
  · exact absurd hdir hp

/-- Only a file has content. -/
theorem stat_of_readContent {t : FileTree} {refusal : ReadStep → Option SystemError}
    {path content : Text} (h : t.readContent refusal path = .ok content) :
    ∃ mode, t.stat path = .ok (.file content mode) := by
  unfold readContent at h
  split at h
  · cases h
  · cases h
  · cases h
  · next content' mode _ hstat =>
    split at h
    · cases h
    · cases h
    · obtain rfl := Except.ok.inj h
      exact ⟨mode, hstat⟩

/-- Only a file can be compiled. -/
theorem stat_of_compileFile {t : FileTree} {lib : Codecs} {refusal : ReadStep → Option SystemError}
    {label path asm : Text} {opts : CompilationOptions}
    (h : (t.compileFile lib refusal label path opts).assembly = .ok asm) :
    ∃ content mode, t.stat path = .ok (.file content mode) := by
  unfold compileFile at h
  split at h
  · simp [unreadable] at h
  · next l _ =>
    unfold readSource at h
    cases hread : t.readContent refusal path with
    | error e => simp [hread, unreadable] at h
    | ok content => exact ⟨content, stat_of_readContent hread⟩

end FileTree

namespace Batch

variable {host : Host}

/-- Without an output path of its own, a run writes assembly under the stem of the source. -/
theorem Trial.Writes.getLast?_eq {t : Trial} {p : Place} {asm : Text} (h : t.Writes host p asm)
    (ho : t.options.output = []) :
    p.getLast? = some (Path.stem t.source ++ assemblyExtension) := by
  obtain ⟨content, mode, hstat⟩ := FileTree.stat_of_compileFile h.assembly
  obtain ⟨q, hq, hfile⟩ := FileTree.stat_eq_ok_iff.1 hstat
  have hsource := (FileTree.getLast?_of_locate hq (by simp [hfile])).1
  have htarget : t.target = Path.withExtension t.source assemblyExtension := if_pos ho
  rw [(FileTree.getLast?_of_locate h.locate h.tree_eq.1).2, htarget,
    Path.finalName_withExtension (by decide), Path.stem_eq hsource]

/-- Sources that are compiled to one place have the same stem. -/
theorem stem_eq_of_writes {t u : Trial} {p : Place} {asm asm' : Text} (ht : t.Writes host p asm)
    (hu : u.Writes host p asm') (hto : t.options.output = []) (huo : u.options.output = []) :
    Path.stem u.source = Path.stem t.source := by
  have hname := (hu.getLast?_eq huo).symm.trans (ht.getLast?_eq hto)
  exact List.append_cancel_right (Option.some.inj hname)

/-- A run with an output path of its own has one trial at most. -/
theorem back_eq_nil_of_output {env : Environment} {args : List Text} {d : Disk}
    {front back : List Trial} {t : Trial} (hts : runTrials host env args d = front ++ t :: back)
    (ho : t.options.output ≠ []) : back = [] := by
  rcases run_cases host env args d with ⟨e, -, -, -, -, hnone⟩ | ⟨o, -, hsingle, htrials, -⟩
  · simp [hnone] at hts
  · have hmem : t ∈ trials host o 0 d (resolvedFiles host o d) := by
      rw [← htrials, hts]
      simp
    rw [options_of_mem_trials hmem] at ho
    obtain ⟨rest, hfiles, -⟩ := sources_trials host o 0 d (resolvedFiles host o d)
    have hlength := congrArg List.length hfiles
    rw [← htrials, hts] at hlength
    simp only [List.length_append, List.length_map, List.length_cons] at hlength
    have hle := hsingle ho
    exact List.eq_nil_of_length_eq_zero (by omega)

theorem options_eq_of_mem_runTrials {env : Environment} {args : List Text} {d : Disk} {t u : Trial}
    (ht : t ∈ runTrials host env args d) (hu : u ∈ runTrials host env args d) :
    u.options = t.options := by
  rcases run_cases host env args d with ⟨e, -, -, -, -, hnone⟩ | ⟨o, -, -, htrials, -⟩
  · simp [hnone] at ht
  · rw [htrials] at ht hu
    rw [options_of_mem_trials ht, options_of_mem_trials hu]

/-! ## What outputs hold -/

/-- **An output path has the assembly of the last source compiled to it**, whatever the system
refuses. A run counts the sources that it compiled. Each of them finds its own assembly at its
output path after the run if every later one has another stem or another place for its assembly. In
any case the assembly there is that of the last source compiled to that place. -/
theorem outputs_of_run (host : Host) (env : Environment) (args : List Text) (d : Disk) :
    let r := run host env args d
    let ts := runTrials host env args d
    r.succeeded = ts.countP (·.succeeded host) ∧
    ∀ (front : List Trial) (t : Trial) (back : List Trial), ts = front ++ t :: back →
      t.succeeded host = true →
      ∃ asm, (t.compilation host).assembly = .ok asm ∧
        ((∀ u ∈ back, u.succeeded host = true → Path.stem u.source ≠ Path.stem t.source ∨
            d.tree.locate u.target ≠ d.tree.locate t.target) →
          r.disk.tree.stat t.target = .ok (.file asm assemblyMode)) ∧
        ∃ (earlier : List Trial) (u : Trial) (later : List Trial) (asm' : Text),
          ts = earlier ++ u :: later ∧ u.succeeded host = true ∧
          (u.compilation host).assembly = .ok asm' ∧
          d.tree.locate u.target = d.tree.locate t.target ∧
          (∀ v ∈ later, v.succeeded host = true →
            d.tree.locate v.target ≠ d.tree.locate t.target) ∧
          r.disk.tree.stat t.target = .ok (.file asm' assemblyMode) := by
  intro r ts
  refine ⟨succeeded_run host env args d, ?_⟩
  intro front t back (hts : runTrials host env args d = front ++ t :: back) hs
  have hturns : Turns host d (front ++ t :: back) r.disk := hts ▸ turns_run host env args d
  have ht : t ∈ front ++ t :: back := by simp
  obtain ⟨p, asm, hwrites⟩ := Trial.exists_writes hs
  have hp : d.tree.locate t.target = .ok p := ((hturns.writes_iff ht).1 ⟨asm, hwrites⟩).2
  refine ⟨asm, hwrites.assembly, fun hlast => ?_, ?_⟩
  · refine hturns.stat_of_writes hwrites (fun u hu asm' hu' => ?_) hp
    have hmem : u ∈ front ++ t :: back := by simp [hu]
    rcases hlast u hu hu'.succeeded with hstem | hplace
    · by_cases ho : t.options.output = []
      · have huo : u.options = t.options := options_eq_of_mem_runTrials (hts ▸ ht) (hts ▸ hmem)
        exact hstem (stem_eq_of_writes hwrites hu' ho (huo ▸ ho))
      · rw [back_eq_nil_of_output hts ho] at hu
        cases hu
    · exact hplace (((hturns.writes_iff hmem).1 ⟨asm', hu'⟩).2.trans hp.symm)
  · rw [show ts = _ from hts]
    exact hturns.exists_last_output ht hs rfl

/-- Sources with different names have an output each. -/
theorem outputs_of_run_two_stems :
    let host : Host := { codecs := Encoding.library }
    let d : Disk := { tree := { entries := [([utf8 "A.vm"], .file (utf8 "push constant 1\n") 0o644),
      ([utf8 "B.vm"], .file (utf8 "push constant 2\n") 0o644)] } }
    let args := [utf8 "A.vm", utf8 "B.vm"]
    let t : Trial := ⟨{ inputs := args }, 0, d, utf8 "A.vm"⟩
    let u : Trial := ⟨{ inputs := args }, 1, (t.attempt host).disk, utf8 "B.vm"⟩
    runTrials host {} args d = [t, u] ∧ t.succeeded host = true ∧
      ∃ asm, (t.compilation host).assembly = .ok asm ∧
        (run host {} args d).disk.tree.stat (utf8 "A.asm") = .ok (.file asm assemblyMode) := by
  intro host d args t u
  have hts : runTrials host {} args d = [t, u] := by decide +kernel
  have hs : t.succeeded host = true := by decide +kernel
  obtain ⟨asm, hasm, hown, -⟩ := (outputs_of_run host {} args d).2 [] t [u] hts hs
  refine ⟨hts, hs, asm, hasm, hown fun v hv _ => .inl ?_⟩
  rw [List.mem_singleton.1 hv]
  decide

/-- Two sources of one directory whose names differ in the case of the extension: the run counts
both, but the output path of the first has the assembly of the second. -/
theorem output_lost_to_equal_stem :
    let host : Host := { codecs := Encoding.library }
    let d : Disk := { tree := { entries := [([utf8 "A.vm"], .file (utf8 "push constant 1\n") 0o644),
      ([utf8 "A.VM"], .file (utf8 "push constant 2\n") 0o644)] } }
    let args := [utf8 "A.vm", utf8 "A.VM"]
    let t : Trial := ⟨{ inputs := args }, 0, d, utf8 "A.vm"⟩
    let u : Trial := ⟨{ inputs := args }, 1, (t.attempt host).disk, utf8 "A.VM"⟩
    runTrials host {} args d = [t, u] ∧ (run host {} args d).succeeded = 2 ∧ t.target = u.target ∧
      ∃ asm, (u.compilation host).assembly.toOption = some asm ∧
        (t.compilation host).assembly.toOption ≠ some asm ∧
        (run host {} args d).disk.tree.stat t.target = .ok (.file asm assemblyMode) := by
  refine ⟨by decide +kernel, by decide +kernel, by decide, ?_⟩
  exact ⟨utf8 "// push constant 2\n@2\nD=A\n@SP\nA=M\nM=D\n@SP\nM=M+1\n", by decide +kernel,
    by decide +kernel, by decide +kernel⟩

end Batch

end HackVM
