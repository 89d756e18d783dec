import HackVM.Proofs.Outputs

/-!
# When a run overwrites a source

A run writes to its outputs only, so a source is safe unless an output comes to lie on it. Outputs
get the extension for assembly: a source with another extension keeps its content, if the run has no
output path of its own. A source with this extension is its own output, and its assembly takes its
place (`sources_of_run`).
-/

namespace HackVM

namespace Batch

variable {host : Host}

/-- What a run writes next to its sources has the extension for assembly. -/
theorem Trial.Writes.extension_eq {t : Trial} {p : Place} {asm path : Text}
    (h : t.Writes host p asm) (ho : t.options.output = [])
    (hpath : t.disk.tree.locate path = .ok p) :
    Path.extension path = assemblyExtension := by
  have hlast := (FileTree.getLast?_of_locate hpath h.tree_eq.1).2
  have hname : Path.finalName path = Path.stem t.source ++ assemblyExtension :=
    Option.some.inj (hlast.symm.trans (h.getLast?_eq ho))
  have hasm : assemblyExtension = 46 :: utf8 "asm" := rfl
  rw [← Path.extension_finalName, hname, hasm]
  exact Path.extension_append (by decide) (by decide) _

/-- A source with the extension for assembly is its own output. -/
theorem Trial.target_eq_source {t : Trial} (ho : t.options.output = [])
    (hext : Path.extension t.source = assemblyExtension) : t.target = t.source := by
  have htarget : t.target = Path.withExtension t.source assemblyExtension := if_pos ho
  rw [htarget, ← hext, Path.withExtension_extension]

/-- **A source that a run reads keeps its content unless an output comes to lie on it**, and then it
has the assembly of a source at the end. Without an output path of its own the run spares every
source whose extension is not that of assembly files. -/
theorem sources_of_run (host : Host) (env : Environment) (args : List Text) (d : Disk) :
    let r := run host env args d
    let ts := runTrials host env args d
    ∀ t ∈ ts, ∀ content mode, t.disk.tree.stat t.source = .ok (.file content mode) →
      ((∀ u ∈ ts, u.succeeded host = true → d.tree.locate u.target ≠ d.tree.locate t.source) →
        d.tree.stat t.source = .ok (.file content mode) ∧
          r.disk.tree.stat t.source = .ok (.file content mode)) ∧
      ((∃ u ∈ ts, u.succeeded host = true ∧ d.tree.locate u.target = d.tree.locate t.source) →
        ∃ u ∈ ts, ∃ asm, u.succeeded host = true ∧ (u.compilation host).assembly = .ok asm ∧
          d.tree.locate u.target = d.tree.locate t.source ∧
          r.disk.tree.stat t.source = .ok (.file asm assemblyMode)) ∧
      (t.options.output = [] →
        (Path.extension t.source ≠ assemblyExtension →
          ∀ u ∈ ts, u.succeeded host = true → d.tree.locate u.target ≠ d.tree.locate t.source) ∧
        (Path.extension t.source = assemblyExtension → t.target = t.source)) := by
  intro r ts t ht content mode hread
  have hturns : Turns host d ts r.disk := turns_run host env args d
  obtain ⟨p, hp, -⟩ := FileTree.stat_eq_ok_iff.1 hread
  rw [← (hturns.sameDirectories_of_mem ht).locate_eq_ok_iff] at hp
  refine ⟨fun hnone => ?_, ?_, fun ho => ⟨fun hext u hu hs hplace => ?_,
    Trial.target_eq_source ho⟩⟩
  · obtain ⟨front, back, hsplit⟩ := List.append_of_mem ht
    have hfront : Turns host d front t.disk := (hsplit ▸ hturns).split_cons.1
    have hbefore : d.tree.stat t.source = .ok (.file content mode) :=
      (hfront.stat_eq_ok_iff fun u hu => hnone u (by simp [hsplit, hu])).1 hread
    exact ⟨hbefore, (hturns.stat_eq_ok_iff hnone).2 hbefore⟩
  · rintro ⟨u, hu, hs, hplace⟩
    obtain ⟨front, v, back, asm, hsplit, hsv, hasm, hplace', -, hstat⟩ :=
      hturns.exists_last_output hu hs hplace
    exact ⟨v, by simp [hsplit], asm, hsv, hasm, hplace', hstat⟩
  · obtain ⟨asm, hwrites⟩ := (hturns.writes_iff hu).2 ⟨hs, hplace.trans hp⟩
    have huo : u.options.output = [] := by rw [options_eq_of_mem_runTrials ht hu, ho]
    exact hext (hwrites.extension_eq huo ((hturns.sameDirectories_of_mem hu).locate_eq_ok_iff.1 hp))

/-- A source that is compiled next to an older output of its own keeps its content. -/
theorem sources_of_run_plain :
    let host : Host := { codecs := Encoding.library }
    let source := utf8 "push constant 1\n"
    let d : Disk := { tree := { entries := [([utf8 "A.vm"], .file source 0o644),
      ([utf8 "A.asm"], .file (utf8 "@1\n") 0o644)] } }
    let args := [utf8 "A.vm"]
    let t : Trial := ⟨{ inputs := args }, 0, d, utf8 "A.vm"⟩
    runTrials host {} args d = [t] ∧ t.succeeded host = true ∧
      (run host {} args d).disk.tree.stat t.source = .ok (.file source 0o644) := by
  intro host source d args t
  have hts : runTrials host {} args d = [t] := by decide +kernel
  obtain ⟨hkept, -, hplain⟩ :=
    sources_of_run host {} args d t (by rw [hts]; exact List.mem_singleton_self t) source 0o644
      (by decide +kernel)
  exact ⟨hts, by decide +kernel, (hkept ((hplain rfl).1 (by decide))).2⟩

/-- A source with the extension for assembly: the run counts a success and puts the assembly in the
place of the source. -/
theorem assembly_source_overwritten :
    let host : Host := { codecs := Encoding.library }
    let d : Disk :=
      { tree := { entries := [([utf8 "Main.asm"], .file (utf8 "push constant 1\n") 0o644)] } }
    let args := [utf8 "Main.asm"]
    let t : Trial := ⟨{ inputs := args }, 0, d, utf8 "Main.asm"⟩
    runTrials host {} args d = [t] ∧ (run host {} args d).succeeded = 1 ∧
      (run host {} args d).error = none ∧
      (run host {} args d).disk.tree.stat t.source ≠ d.tree.stat t.source := by
  refine ⟨by decide +kernel, by decide +kernel, by decide +kernel, by decide +kernel⟩

end Batch

end HackVM
