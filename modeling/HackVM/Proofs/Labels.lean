import HackVM.Proofs.Remarks
import HackVM.Proofs.Statics

/-!
# The labels of an assembly

A symbol that emitted code loads is a label of the same assembly or names a memory cell
(`mem_loadedSymbols_listing`), and no name is both (`IsCellSymbol.not_mem_labelsFrom`). A line that
is neither a label nor a comment becomes one word (`wordCount_add`). So the assembly of a decoded
program is accepted wherever the numbers of its comparisons begin, also if they wrap around on the
way, and its size can be told from the number of its lines (`emitAll_assembles`).
-/

namespace HackVM

/-! ## The symbols that a listing loads -/

theorem mem_loadedSymbols_code {k : Int64} {op : Operation} {name : Text}
    (h : name ∈ loadedSymbols (Block.code [] k op)) :
    name ∈ declaredLabels (Block.code [] k op) ∨ IsCellSymbol name := by
  have hcells {names : List Text} (hall : ∀ s ∈ names, IsCellSymbol s) (hname : name ∈ names) :
      name ∈ declaredLabels (Block.code [] k op) ∨ IsCellSymbol name := Or.inr (hall name hname)
  rw [loadedSymbols_code] at h
  cases op with
  | literal n => exact hcells (by simp [IsCellSymbol.stackPointer]) h
  | push r n => exact hcells (by simp [IsCellSymbol.stackPointer, IsCellSymbol.element]) h
  | pop r n =>
    exact hcells (by simp [IsCellSymbol.stackPointer, IsCellSymbol.spare, IsCellSymbol.element]) h
  | unary op => exact hcells (by simp [IsCellSymbol.stackPointer]) h
  | binary op => exact hcells (by simp [IsCellSymbol.stackPointer]) h
  | compare rel =>
    rw [declaredLabels_code]
    by_cases hsp : name = utf8 "SP"
    · exact Or.inr (hsp ▸ .stackPointer)
    · exact Or.inl (by simpa [hsp] using h)

/-- A symbol that a listing loads is one of its labels or names a cell. -/
theorem mem_loadedSymbols_listing {p : List Instruction}
    (hp : ∀ i ∈ p, ∃ op, i.operation = .ok op) {k : Int64} {name : Text}
    (h : name ∈ loadedSymbols (listing [] k p)) :
    name ∈ declaredLabels (listing [] k p) ∨ IsCellSymbol name := by
  induction p generalizing k with
  | nil => simp [listing, loadedSymbols] at h
  | cons i is ih =>
    obtain ⟨op, hop⟩ := hp i (by simp)
    have hcomment : (AsmLine.comment i.text).symbol?.toList = [] := rfl
    rw [listing_cons hop, List.cons_append, loadedSymbols_cons, loadedSymbols_append, hcomment,
      List.nil_append, List.mem_append] at h
    rw [listing_cons hop, List.cons_append, declaredLabels_cons, declaredLabels_append]
    rcases h with h | h
    · exact (mem_loadedSymbols_code h).imp_left fun hlabel => by simp [hlabel]
    · exact (ih (fun j hj => hp j (by simp [hj])) h).imp_left fun hlabel => by simp [hlabel]

/-! ## Counting lines -/

@[simp]
theorem length_labelsFrom (k : Int64) (n : Nat) : (labelsFrom k n).length = 2 * n := by
  induction n generalizing k with
  | zero => rfl
  | succ n ih =>
    rw [labelsFrom, List.length_cons, List.length_cons, ih]
    omega

/-- Every line becomes a word, declares a label or makes a remark. -/
theorem wordCount_add (ls : List AsmLine) :
    wordCount ls + (declaredLabels ls).length + (ls.filterMap AsmLine.remark?).length =
      ls.length := by
  induction ls with
  | nil => rfl
  | cons l ls ih =>
    have hline : l.words + l.label?.toList.length + l.remark?.toList.length = 1 := by
      cases l <;> rfl
    have hremarks : ((l :: ls).filterMap AsmLine.remark?).length =
        l.remark?.toList.length + (ls.filterMap AsmLine.remark?).length := by
      cases h : l.remark? <;> simp [h, Nat.add_comm]
    rw [wordCount_cons, declaredLabels_cons, hremarks, List.length_append, List.length_cons]
    omega

theorem Emitter.lines_emitAll {e : Emitter} (hroom : e.sink.room = none)
    (hfailed : e.failed = false) {p : List Instruction}
    (h : ∀ i ∈ p, ∃ op, i.operation = .ok op) :
    (e.emitAll p).emitter.lines = e.lines + (e.emitAll p).written.length := by
  induction p generalizing e with
  | nil => rfl
  | cons i is ih =>
    obtain ⟨op, hop⟩ := h i (by simp)
    rw [emitAll, emit_of_room_none hroom hfailed hop]
    simp only [List.length_append]
    rw [ih (by exact hroom) (by exact hfailed) fun j hj => h j (by simp [hj]), Nat.add_assoc]

/-! ## Assembling from any number on -/

/-- **What is emitted for a decoded program assembles**, whatever the number of its first
comparison: its labels are different from each other, from the cells that it names and from the
predefined symbols, and every line but the comments and the labels becomes a word. -/
theorem emitAll_assembles {lines : List CommandLine} {p : List Instruction}
    (hdecode : CommandLine.decodeAll false lines = .ok p) (hlength : p.length < 2 ^ 63)
    (base : Int64) :
    let out := ({ labels := base } : Emitter).emitAll p
    let comparisons := p.countP Instruction.isComparison
    out.error = none ∧
      (declaredLabels out.written).length = 2 * comparisons ∧
      (declaredLabels out.written).Nodup ∧
      (∀ name ∈ loadedSymbols out.written,
        name ∈ declaredLabels out.written ∨ IsCellSymbol name) ∧
      (∀ name ∈ declaredLabels out.written,
        ¬ IsCellSymbol name ∧ ∀ address, (name, address) ∉ predefinedSymbols) ∧
      ∃ rom, assemble (AsmLine.render out.written) = .ok rom ∧
        rom.length + p.length + 2 * comparisons = out.written.length ∧
        out.emitter.lines = out.written.length := by
  intro out comparisons
  have hdecoded := CommandLine.decodeAll_decoded hdecode
  have hops := operation_of_decoded hdecoded
  have hwritten : out.written = listing [] base p := Emitter.emitAll_written rfl rfl p
  have hlabels : declaredLabels out.written = labelsFrom base comparisons := by
    rw [hwritten, declaredLabels_listing hops]
  have hcount : comparisons ≤ 2 ^ 64 := by
    have : comparisons ≤ p.length := List.countP_le_length
    omega
  have hnodup : (declaredLabels out.written).Nodup := hlabels ▸ nodup_labelsFrom base hcount
  have hnew : ∀ name ∈ declaredLabels out.written, ({} : Assembler).lookup name = none :=
    fun name hname => lookup_predefined_labelsFrom (hlabels ▸ hname)
  have hread : ∀ l ∈ out.written, l.Readable := hwritten ▸ readable_listing hdecoded base
  obtain ⟨rom, hrom, hsize, -⟩ := Assembler.assemble_render hread hnodup {} hnew
  have hremarks : (out.written.filterMap AsmLine.remark?).length = p.length := by
    rw [hwritten, filterMap_remark?_listing hops, List.length_map]
  have hlines := wordCount_add out.written
  rw [← hsize, hremarks, hlabels, length_labelsFrom] at hlines
  refine ⟨Emitter.emitAll_error rfl rfl hops, by rw [hlabels, length_labelsFrom], hnodup,
    fun name hname => ?_, fun name hname => ⟨fun hcell => ?_, fun address hmem => ?_⟩,
    rom, by rw [assemble, hrom], by omega, ?_⟩
  · rw [hwritten] at hname ⊢
    exact mem_loadedSymbols_listing hops hname
  · exact hcell.not_mem_labelsFrom base comparisons (hlabels ▸ hname)
  · exact absurd rfl (bne_iff_ne.1 (List.lookup_eq_none_iff.1 (hnew name hname) _ hmem))
  · rw [Emitter.lines_emitAll rfl rfl hops, Nat.zero_add]

/-- The second comparison has the number after the largest one, and the temporary cell lies beyond
the registers that have predefined symbols. -/
theorem emitAll_assembles_wraparound :
    let p := [(Operation.compare .eq).instruction 1, (Operation.pop .temp 20).instruction 2,
      (Operation.compare .lt).instruction 3]
    let out := ({ labels := Int64.maxValue } : Emitter).emitAll p
    CommandLine.decodeAll false
        [⟨1, 1, utf8 "eq"⟩, ⟨2, 1, utf8 "pop temp 20"⟩, ⟨3, 1, utf8 "lt"⟩] = .ok p ∧
      declaredLabels out.written =
        [utf8 "LABEL_9223372036854775807", utf8 "ENDLABEL_9223372036854775807",
          utf8 "LABEL_-9223372036854775808", utf8 "ENDLABEL_-9223372036854775808"] ∧
      utf8 "R25" ∈ loadedSymbols out.written ∧
      ∃ rom, assemble (AsmLine.render out.written) = .ok rom ∧ rom.length = 53 := by
  intro p out
  have hdecode : CommandLine.decodeAll false
      [⟨1, 1, utf8 "eq"⟩, ⟨2, 1, utf8 "pop temp 20"⟩, ⟨3, 1, utf8 "lt"⟩] = .ok p := by
    decide +kernel
  obtain ⟨-, -, -, -, -, rom, hrom, hsize, -⟩ :=
    emitAll_assembles hdecode (by decide) Int64.maxValue
  have hwords : rom.length + 3 + 2 * 2 = 60 := hsize
  exact ⟨hdecode, by decide, by decide, rom, hrom, by omega⟩

end HackVM
