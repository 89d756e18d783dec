import HackVM.Compilation
import HackVM.Proofs.Comments
import HackVM.Proofs.Layout

/-!
# Compiling in passes

`compile` decodes a line and emits its code before it looks at the next line. That comes to the same
as reading all lines, decoding all of them and emitting the whole program (`compile_in_passes`). The
reason is that every instruction that decoding yields has code, so emitting never stops the
compilation: `compileLines_append` moves decoded lines from the front of a compilation into an
emitter, and what is left begins with the line that does not decode, or is empty.
-/

namespace HackVM

/-! ## Decoding up to the first error -/

namespace CommandLine

theorem decodeAll_cons (strict : Bool) (line : CommandLine) (lines : List CommandLine) :
    decodeAll strict (line :: lines) =
      match line.decode strict, decodeAll strict lines with
      | .error e, _ => .error e
      | .ok _, .error e => .error e
      | .ok i, .ok is => .ok (i :: is) := by
  rw [decodeAll, List.mapM_cons]
  cases line.decode strict with
  | error e => rfl
  | ok i =>
    rw [decodeAll]
    cases lines.mapM (decode strict) <;> rfl

theorem decodeAll_cons_eq_ok {strict : Bool} {line : CommandLine} {lines : List CommandLine}
    {p : List Instruction} (h : decodeAll strict (line :: lines) = .ok p) :
    ∃ i is, line.decode strict = .ok i ∧ decodeAll strict lines = .ok is ∧ p = i :: is := by
  rw [decodeAll_cons] at h
  cases hi : line.decode strict with
  | error e => simp [hi] at h
  | ok i =>
    cases his : decodeAll strict lines with
    | error e => simp [hi, his] at h
    | ok is =>
      simp only [hi, his, Except.ok.injEq] at h
      exact ⟨i, is, rfl, rfl, h.symm⟩

theorem length_of_decodeAll {strict : Bool} {lines : List CommandLine} {p : List Instruction}
    (h : decodeAll strict lines = .ok p) : p.length = lines.length := by
  induction lines generalizing p with
  | nil =>
    obtain rfl : [] = p := Except.ok.inj h
    rfl
  | cons line lines ih =>
    obtain ⟨i, is, -, his, rfl⟩ := decodeAll_cons_eq_ok h
    rw [List.length_cons, List.length_cons, ih his]

/-- Decoding stops at the first line that does not decode; the lines before it do. -/
theorem decodeAll_eq_error {strict : Bool} {lines : List CommandLine} {e : DecodeError}
    (h : decodeAll strict lines = .error e) :
    ∃ before line after p, lines = before ++ line :: after ∧
      decodeAll strict before = .ok p ∧ line.decode strict = .error e := by
  induction lines with
  | nil => cases h
  | cons line lines ih =>
    rw [decodeAll_cons] at h
    cases hi : line.decode strict with
    | error e' =>
      simp only [hi, Except.error.injEq] at h
      subst h
      exact ⟨[], line, lines, [], rfl, rfl, hi⟩
    | ok i =>
      cases his : decodeAll strict lines with
      | ok is => simp [hi, his] at h
      | error e' =>
        simp only [hi, his, Except.error.injEq] at h
        subst h
        obtain ⟨before, bad, after, p, rfl, hp, hbad⟩ := ih his
        refine ⟨line :: before, bad, after, i :: p, rfl, ?_, hbad⟩
        rw [decodeAll_cons, hi, hp]

end CommandLine

/-! ## Emitting decoded programs -/

theorem Instruction.isComparison_eq {i : Instruction} {op : Operation} (h : i.operation = .ok op) :
    i.isComparison = op.command.compares := by
  cases op <;> simp [isComparison, h, Operation.command, Command.compares]

theorem Operation.nextLabel_eq (k : Int64) (op : Operation) :
    op.nextLabel k = if op.command.compares then k + 1 else k := by
  cases op <;> rfl

/-- The number of the next comparison counts the comparisons before it. -/
theorem labelAfter_eq {p : List Instruction} (h : ∀ i ∈ p, ∃ op, i.operation = .ok op) (k : Int64) :
    labelAfter k p = k + Int64.ofNat (p.countP Instruction.isComparison) := by
  induction p generalizing k with
  | nil => simp [labelAfter]
  | cons i is ih =>
    obtain ⟨op, hop⟩ := h i (by simp)
    simp only [labelAfter, hop]
    rw [ih fun j hj => h j (by simp [hj]), List.countP_cons, Instruction.isComparison_eq hop,
      Operation.nextLabel_eq]
    cases op.command.compares with
    | true => exact (add_ofNat_succ k _).symm
    | false => rfl

namespace Emitter

theorem labels_emitAll {e : Emitter} (hroom : e.sink.room = none) (hfailed : e.failed = false)
    {p : List Instruction} (h : ∀ i ∈ p, ∃ op, i.operation = .ok op) :
    (e.emitAll p).emitter.labels = labelAfter e.labels p := by
  induction p generalizing e with
  | nil => rfl
  | cons i is ih =>
    obtain ⟨op, hop⟩ := h i (by simp)
    rw [emitAll, emit_of_room_none hroom hfailed hop, labelAfter, hop]
    exact ih (by exact hroom) (by exact hfailed) fun j hj => h j (by simp [hj])

end Emitter

/-- Lines that decode are compiled as their program is emitted, whatever comes after them. -/
theorem compileLines_append {strict : Bool} {e : Emitter} (hroom : e.sink.room = none)
    (hfailed : e.failed = false) {before : List CommandLine} {p : List Instruction}
    (h : CommandLine.decodeAll strict before = .ok p) (rest : List CommandLine) :
    compileLines strict e (before ++ rest) =
      let r := compileLines strict (e.emitAll p).emitter rest
      ⟨p ++ r.instructions, (e.emitAll p).written ++ r.written, r.labels, r.error⟩ := by
  induction before generalizing e p with
  | nil =>
    obtain rfl : [] = p := Except.ok.inj h
    rfl
  | cons line before ih =>
    obtain ⟨i, is, hi, his, rfl⟩ := CommandLine.decodeAll_cons_eq_ok h
    obtain ⟨op, -, hop⟩ := (CommandLine.decode_isDecoded hi).operation
    have hemit := Emitter.emit_of_room_none hroom hfailed hop
    simp only [List.cons_append, compileLines, hi, hemit, Emitter.emitAll]
    rw [ih (by exact hroom) (by exact hfailed) his]
    simp only [List.append_assoc]

/-! ## The outcome of a compilation -/

namespace CommandLine

theorem read_lines_eq_ok_iff {raw : List Text} {lines : List CommandLine} :
    (read raw).lines = .ok lines ↔ lines ≠ [] ∧ ∃ b, readFrom 1 false raw = (b, .ok lines) := by
  simp only [read, SourceReader.read, SourceReader.reset]
  rcases readFrom 1 false raw with ⟨b, e | lines'⟩
  · simp
  · cases lines' with
    | nil => simp
    | cons l ls => simp; rintro rfl; simp

theorem length_of_readFrom {number : Nat} {inBlock b : Bool} {raw : List Text}
    {lines : List CommandLine} (h : readFrom number inBlock raw = (b, .ok lines)) :
    lines.length ≤ raw.length := by
  induction raw generalizing number inBlock lines with
  | nil =>
    simp only [readFrom, Prod.mk.injEq, Except.ok.injEq] at h
    simp [← h.2]
  | cons s rest ih =>
    obtain ⟨b₁, text, linesRest, -, hrest, rfl⟩ := readFrom_cons_eq_ok h
    have hle := ih hrest
    rw [List.length_cons]
    split
    · omega
    · rw [List.length_cons]
      omega

end CommandLine

/-- The emitter that a compilation begins with. -/
def CompilationOptions.emitter (opts : CompilationOptions) : Emitter :=
  { staticNamespace := opts.staticNamespace }

section Outcome

variable (file : Text) {raw : List Text} (opts : CompilationOptions)

theorem compile_of_read_error {e : SourceError} (h : (CommandLine.read raw).lines = .error e) :
    (∃ d, (compile file raw opts).assembly = .error d ∧ d.error = .source e) ∧
      (compile file raw opts).instructions = [] ∧ (compile file raw opts).labels = 0 := by
  simp [compile, h]

theorem compile_of_decodeAll_ok {lines : List CommandLine} {p : List Instruction}
    (h : (CommandLine.read raw).lines = .ok lines)
    (hp : CommandLine.decodeAll opts.strict lines = .ok p) :
    (compile file raw opts).assembly = .ok (AsmLine.render (opts.emitter.emitAll p).written) ∧
      (compile file raw opts).instructions = p ∧
      (compile file raw opts).labels = (opts.emitter.emitAll p).emitter.labels := by
  have hcompiled := compileLines_append (e := opts.emitter) rfl rfl hp []
  rw [List.append_nil, CompilationOptions.emitter] at hcompiled
  simp [compile, h, hcompiled, compileLines, CompilationOptions.emitter]

theorem compile_of_decodeAll_error {lines before after : List CommandLine} {line : CommandLine}
    {p : List Instruction} {e : DecodeError} (h : (CommandLine.read raw).lines = .ok lines)
    (hlines : lines = before ++ line :: after)
    (hp : CommandLine.decodeAll opts.strict before = .ok p)
    (hline : line.decode opts.strict = .error e) :
    (∃ d, (compile file raw opts).assembly = .error d ∧ d.error = .decode e) ∧
      (compile file raw opts).instructions = p ∧
      (compile file raw opts).labels = (opts.emitter.emitAll p).emitter.labels := by
  have hcompiled := compileLines_append (e := opts.emitter) rfl rfl hp (line :: after)
  rw [← hlines, CompilationOptions.emitter] at hcompiled
  simp [compile, h, hcompiled, compileLines, hline, CompilationOptions.emitter]

/-- A compilation stops at an error of reading or of decoding, or it comes to the end. The
instructions it has compiled then are those of the first lines, if lines were read at all. -/
theorem compile_cases (raw : List Text) :
    (∃ e, (CommandLine.read raw).lines = .error e ∧ (compile file raw opts).instructions = [] ∧
      (compile file raw opts).labels = 0 ∧
      ∃ d, (compile file raw opts).assembly = .error d ∧ d.error = .source e) ∨
    ∃ lines before after, (CommandLine.read raw).lines = .ok lines ∧ lines = before ++ after ∧
      CommandLine.decodeAll opts.strict before = .ok (compile file raw opts).instructions ∧
      (compile file raw opts).labels =
        (opts.emitter.emitAll (compile file raw opts).instructions).emitter.labels ∧
      ((after = [] ∧ ∃ asm, (compile file raw opts).assembly = .ok asm) ∨
        ∃ e, CommandLine.decodeAll opts.strict lines = .error e ∧
          ∃ d, (compile file raw opts).assembly = .error d ∧ d.error = .decode e) := by
  cases hread : (CommandLine.read raw).lines with
  | error e =>
    obtain ⟨hfail, hinstructions, hlabels⟩ := compile_of_read_error file opts hread
    exact .inl ⟨e, rfl, hinstructions, hlabels, hfail⟩
  | ok lines =>
    right
    cases hp : CommandLine.decodeAll opts.strict lines with
    | ok p =>
      obtain ⟨hasm, hinstructions, hlabels⟩ := compile_of_decodeAll_ok file opts hread hp
      rw [← hinstructions] at hp hlabels
      exact ⟨lines, lines, [], rfl, (List.append_nil lines).symm, hp, hlabels, .inl ⟨rfl, _, hasm⟩⟩
    | error e =>
      obtain ⟨before, line, after, p, hlines, hbefore, hline⟩ := CommandLine.decodeAll_eq_error hp
      obtain ⟨hfail, hinstructions, hlabels⟩ :=
        compile_of_decodeAll_error file opts hread hlines hbefore hline
      rw [← hinstructions] at hbefore hlabels
      exact ⟨lines, before, line :: after, rfl, hlines, hbefore, hlabels, .inr ⟨e, hp, hfail⟩⟩

theorem compile_ok_iff : (∃ asm, (compile file raw opts).assembly = .ok asm) ↔
    ∃ lines p, (CommandLine.read raw).lines = .ok lines ∧
      CommandLine.decodeAll opts.strict lines = .ok p := by
  constructor
  · rintro ⟨asm, hasm⟩
    rcases compile_cases file opts raw with
      ⟨e, -, -, -, d, hd, -⟩ | ⟨lines, before, after, hread, hlines, hp, -, hend⟩
    · simp [hd] at hasm
    · rcases hend with ⟨rfl, -⟩ | ⟨e, -, d, hd, -⟩
      · rw [List.append_nil] at hlines
        exact ⟨lines, _, hread, hlines ▸ hp⟩
      · simp [hd] at hasm
  · rintro ⟨lines, p, hread, hp⟩
    exact ⟨_, (compile_of_decodeAll_ok file opts hread hp).1⟩

/-- Emitting never stops a compilation. -/
theorem phase_ne_emit {d : Diagnostic} (h : (compile file raw opts).assembly = .error d) :
    d.error.phase ≠ .emit := by
  rcases compile_cases file opts raw with
    ⟨e, -, -, -, d', hd, he⟩ | ⟨-, -, -, -, -, -, -, ⟨-, asm, hasm⟩ | ⟨e, -, d', hd, he⟩⟩
  · obtain rfl := Except.error.inj (hd.symm.trans h)
    simp [he, CompilationError.phase]
  · simp [hasm] at h
  · obtain rfl := Except.error.inj (hd.symm.trans h)
    simp [he, CompilationError.phase]

/-- A compilation counts the comparisons that it has compiled. -/
theorem labels_compile : (compile file raw opts).labels =
    Int64.ofNat ((compile file raw opts).instructions.countP Instruction.isComparison) := by
  rcases compile_cases file opts raw with
    ⟨e, -, hinstructions, hlabels, -⟩ | ⟨lines, before, after, -, -, hp, hlabels, -⟩
  · rw [hlabels, hinstructions]
    rfl
  · have hcode := operation_of_decoded (CommandLine.decodeAll_decoded hp)
    rw [hlabels, Emitter.labels_emitAll rfl rfl hcode, labelAfter_eq hcode]
    exact Int64.zero_add _

theorem length_instructions_compile :
    (compile file raw opts).instructions.length ≤ raw.length := by
  rcases compile_cases file opts raw with
    ⟨e, -, hinstructions, -, -⟩ | ⟨lines, before, after, hread, hlines, hp, -, -⟩
  · simp [hinstructions]
  · obtain ⟨-, b, hread⟩ := CommandLine.read_lines_eq_ok_iff.1 hread
    have hle := CommandLine.length_of_readFrom hread
    rw [hlines, List.length_append] at hle
    rw [CommandLine.length_of_decodeAll hp]
    omega

end Outcome

/-- **Compiling line by line is compiling in three passes.** A compilation succeeds exactly if all
lines are read and then all are decoded; its assembly is what a new emitter writes for the decoded
program, and emitting reports no error. Otherwise its error is that of reading, or the first one of
decoding, and its instructions are those of the lines before. In every case it counts the
comparisons among its instructions. -/
theorem compile_in_passes (file : Text) (raw : List Text) (opts : CompilationOptions) :
    let c := compile file raw opts
    ((∃ asm, c.assembly = .ok asm) ↔ ∃ lines p, (CommandLine.read raw).lines = .ok lines ∧
      CommandLine.decodeAll opts.strict lines = .ok p) ∧
    (∀ lines p, (CommandLine.read raw).lines = .ok lines →
      CommandLine.decodeAll opts.strict lines = .ok p →
      (opts.emitter.emitAll p).error = none ∧
        c.assembly = .ok (AsmLine.render (opts.emitter.emitAll p).written) ∧
        c.instructions = p) ∧
    (∀ e, (CommandLine.read raw).lines = .error e →
      (∃ d, c.assembly = .error d ∧ d.error = .source e ∧ d.error.phase = .preprocess ∧
        d.error.text = e.text ∧
        ∀ bad, e = .comment bad → d.error.place = ((bad.line : Int), (bad.column : Int))) ∧
      c.instructions = []) ∧
    (∀ lines e, (CommandLine.read raw).lines = .ok lines →
      CommandLine.decodeAll opts.strict lines = .error e →
      (∃ d, c.assembly = .error d ∧ d.error = .decode e ∧ d.error.phase = .decode ∧
        d.error.place = (e.line, (e.column : Int)) ∧ d.error.text = e.problem.text) ∧
      ∃ before line after, lines = before ++ line :: after ∧
        line.decode opts.strict = .error e ∧
        CommandLine.decodeAll opts.strict before = .ok c.instructions) ∧
    (∀ d, c.assembly = .error d → d.error.phase ≠ .emit) ∧
    c.labels = Int64.ofNat (c.instructions.countP Instruction.isComparison) ∧
    (raw.length < 2 ^ 63 → c.labels.toInt = c.instructions.countP Instruction.isComparison) := by
  intro c
  refine ⟨compile_ok_iff file opts, fun lines p hread hp => ?_, fun e hread => ?_,
    fun lines e hread hp => ?_, fun d => phase_ne_emit file opts, labels_compile file opts,
    fun hlength => ?_⟩
  · obtain ⟨hasm, hinstructions, -⟩ := compile_of_decodeAll_ok file opts hread hp
    have hcode := operation_of_decoded (CommandLine.decodeAll_decoded hp)
    exact ⟨Emitter.emitAll_error rfl rfl hcode, hasm, hinstructions⟩
  · obtain ⟨⟨d, hd, he⟩, hinstructions, -⟩ := compile_of_read_error file opts hread
    exact ⟨⟨d, hd, he, by rw [he]; rfl, by rw [he]; rfl, fun bad hbad => by rw [he, hbad]; rfl⟩,
      hinstructions⟩
  · obtain ⟨before, line, after, p, hlines, hbefore, hline⟩ := CommandLine.decodeAll_eq_error hp
    obtain ⟨⟨d, hd, he⟩, hinstructions, -⟩ :=
      compile_of_decodeAll_error file opts hread hlines hbefore hline
    rw [← hinstructions] at hbefore
    exact ⟨⟨d, hd, he, by rw [he]; rfl, by rw [he]; rfl, by rw [he]; rfl⟩,
      before, line, after, hlines, hline, hbefore⟩
  · have hle : c.instructions.countP Instruction.isComparison ≤ raw.length :=
      List.countP_le_length.trans (length_instructions_compile file opts)
    rw [labels_compile file opts, Int64.toInt_ofNat_of_lt (hle.trans_lt hlength)]

end HackVM
