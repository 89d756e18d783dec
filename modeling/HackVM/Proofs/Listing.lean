import Mathlib
import HackVM.Assembly.Emitter
import HackVM.Source.Decode

/-!
# Decoded programs and their listings

Decoding yields only instructions that write out an operation with its offset in range
(`decodeAll_decoded`), so every decoded program has code. The lines that an emitter writes for a
program form its `listing`: each instruction gives a comment and a block, and the comparisons are
numbered one after the other. An emitter whose sink has no limit writes exactly the listing
(`emitAll_written`), and it reports no error if every instruction has an operation
(`emitAll_error`).
-/

namespace HackVM

/-! ## What decoding yields -/

/-- The offset of an operation is one that decoding lets pass. -/
def Operation.InRange (strict : Bool) : Operation → Prop
  | literal n => n ≤ largestOffset
  | push r n | pop r n => n ≤ largestOffset ∧ slotProblem? strict r n = none
  | unary _ | binary _ | compare _ => True

/-- The instruction writes out an operation whose offset is in range. -/
def Instruction.IsDecoded (strict : Bool) (i : Instruction) : Prop :=
  ∃ op line, Operation.InRange strict op ∧ i = op.instruction line

/-- The segment and the offset that an operation is written with. -/
def Operation.operands? : Operation → Option (Segment × Nat)
  | literal n => some (.constant, n)
  | push r n | pop r n => some (.region r, n)
  | unary _ | binary _ | compare _ => none

theorem decodeCommand_eq_ok_iff {tok : Token} {c : Command} :
    decodeCommand tok = .ok c ↔ tok.literal = c.word := by
  rw [← Command.ofWord?_eq_some_iff, decodeCommand]
  cases Command.ofWord? tok.literal <;> simp

theorem decodeSegment_eq_ok_iff {tok : Token} {s : Segment} :
    decodeSegment tok = .ok s ↔ tok.literal = s.word := by
  rw [← Segment.ofWord?_eq_some_iff, decodeSegment]
  cases Segment.ofWord? tok.literal <;> simp

theorem decodeOffset_eq_ok_iff {tok : Token} {n : Nat} :
    decodeOffset tok = .ok n ↔
      tok.isNumber = true ∧ tok.literal.value = n ∧ n ≤ largestOffset := by
  unfold decodeOffset
  split
  · next hnot => simp_all
  · next hnumber =>
    split
    · next hlarge =>
      simp only [reduceCtorEq, false_iff]
      rintro ⟨-, rfl, hle⟩
      exact Nat.not_lt.2 hle hlarge
    · next hle =>
      simp only [Except.ok.injEq]
      constructor
      · rintro rfl
        exact ⟨by simpa using hnumber, rfl, Nat.not_lt.1 hle⟩
      · exact fun h => h.2.1

/-- One token decodes to the operation without operands whose command it names. -/
theorem decodeSingle_eq_ok_iff {tok : Token} {op : Operation} :
    decodeSingle tok = .ok op ↔ op.operands? = none ∧ tok.literal = op.command.word := by
  unfold decodeSingle
  cases hc : decodeCommand tok with
  | error e =>
    simp only [bind, Except.bind, reduceCtorEq, false_iff, not_and]
    intro _ hword
    rw [decodeCommand_eq_ok_iff.2 hword] at hc
    cases hc
  | ok c =>
    have hword := decodeCommand_eq_ok_iff.1 hc
    -- a token names one command only
    have hcommand (op : Operation) : tok.literal = op.command.word ↔ c = op.command := by
      rw [← decodeCommand_eq_ok_iff, hc, Except.ok.injEq]
    rw [hcommand]
    cases c <;> cases op <;> simp [bind, Except.bind, Operation.operands?, Operation.command]

/-- Three tokens decode to the operation whose command, segment and offset they write out, if the
offset is in range. -/
theorem decodeTriple_eq_ok_iff {strict : Bool} {cmd seg off : Token} {op : Operation} :
    decodeTriple strict cmd seg off = .ok op ↔
      ∃ s n, op.operands? = some (s, n) ∧ cmd.literal = op.command.word ∧ seg.literal = s.word ∧
        decodeOffset off = .ok n ∧ op.InRange strict := by
  unfold decodeTriple
  simp only [← decodeCommand_eq_ok_iff, ← decodeSegment_eq_ok_iff]
  cases hc : decodeCommand cmd with
  | error e => simp [bind, Except.bind]
  | ok c =>
  cases hs : decodeSegment seg with
  | error e =>
    cases c <;> simp [bind, Except.bind, throw, throwThe, MonadExceptOf.throw,
      Command.takesOperands]
  | ok s =>
  cases ho : decodeOffset off with
  | error e =>
    cases c <;> cases s <;> simp [bind, Except.bind, throw, throwThe, MonadExceptOf.throw,
      Command.takesOperands]
  | ok n =>
    have hn : n ≤ largestOffset := (decodeOffset_eq_ok_iff.1 ho).2.2
    cases s with
    | constant =>
      cases c <;> cases op <;> simp [bind, Except.bind, pure, Except.pure, throw, throwThe,
        MonadExceptOf.throw, Command.takesOperands, Operation.operands?, Operation.command,
        Operation.InRange]
      grind
    | region r =>
      cases hp : slotProblem? strict r n <;> cases c <;> cases op <;> simp [bind, Except.bind, pure,
        Except.pure, throw, throwThe, MonadExceptOf.throw, Command.takesOperands, hp,
        Operation.operands?, Operation.command, Operation.InRange] <;> grind

theorem Operation.InRange.le_of_operands? {strict : Bool} {op : Operation} (h : op.InRange strict)
    {s : Segment} {n : Nat} (hop : op.operands? = some (s, n)) : n ≤ largestOffset := by
  cases op with
  | literal m =>
    cases hop
    exact h
  | push r m =>
    cases hop
    exact h.1
  | pop r m =>
    cases hop
    exact h.1
  | unary op => cases hop
  | binary op => cases hop
  | compare rel => cases hop

/-- Tokens decode alone or in threes. -/
theorem decodeTokens_eq_ok_iff {strict : Bool} {toks : List Token} {op : Operation} :
    decodeTokens strict toks = .ok op ↔
      (∃ tok, toks = [tok] ∧ decodeSingle tok = .ok op) ∨
        ∃ cmd seg off, toks = [cmd, seg, off] ∧ decodeTriple strict cmd seg off = .ok op := by
  unfold decodeTokens
  split
  · simp
  · simp
  · simp
  · next tok rest hsingle htriple =>
    simp only [reduceCtorEq, false_iff, not_or, not_exists, not_and]
    exact ⟨fun tok' h => absurd h (by simp_all), fun cmd seg off h => absurd h (by simp_all)⟩

theorem decodeTokens_inRange {strict : Bool} {toks : List Token} {op : Operation}
    (h : decodeTokens strict toks = .ok op) : op.InRange strict := by
  rcases decodeTokens_eq_ok_iff.1 h with ⟨tok, -, hsingle⟩ | ⟨cmd, seg, off, -, htriple⟩
  · obtain ⟨hop, -⟩ := decodeSingle_eq_ok_iff.1 hsingle
    cases op <;> simp_all [Operation.operands?, Operation.InRange]
  · obtain ⟨s, n, -, -, -, -, hop⟩ := decodeTriple_eq_ok_iff.1 htriple
    exact hop

theorem CommandLine.decode_eq_ok_iff {strict : Bool} {line : CommandLine} {i : Instruction} :
    line.decode strict = .ok i ↔
      ∃ op, decodeTokens strict (tokenize line.text) = .ok op ∧ i = op.instruction line.number := by
  rw [decode]
  cases decodeTokens strict (tokenize line.text) <;> simp [eq_comm]

theorem CommandLine.decode_isDecoded {strict : Bool} {line : CommandLine} {i : Instruction}
    (h : line.decode strict = .ok i) : i.IsDecoded strict := by
  obtain ⟨op, hop, rfl⟩ := decode_eq_ok_iff.1 h
  exact ⟨op, line.number, decodeTokens_inRange hop, rfl⟩

/-- **Every instruction of a decoded program writes out an operation in range.** -/
theorem CommandLine.decodeAll_decoded {strict : Bool} {lines : List CommandLine}
    {p : List Instruction} (h : CommandLine.decodeAll strict lines = .ok p) :
    ∀ i ∈ p, i.IsDecoded strict := by
  unfold CommandLine.decodeAll at h
  induction lines generalizing p with
  | nil =>
    obtain rfl : [] = p := Except.ok.inj h
    simp
  | cons line lines ih =>
    rw [List.mapM_cons] at h
    cases hi : line.decode strict with
    | error e => simp [hi, bind, Except.bind] at h
    | ok i =>
    cases hp : lines.mapM (CommandLine.decode strict) with
    | error e => simp [hi, hp, bind, Except.bind] at h
    | ok is =>
      simp only [hi, hp, bind, Except.bind, pure, Except.pure, Except.ok.injEq] at h
      obtain rfl := h
      intro j hj
      rcases List.mem_cons.1 hj with rfl | hj
      · exact decode_isDecoded hi
      · exact ih hp j hj

theorem Instruction.IsDecoded.operation {strict : Bool} {i : Instruction} (h : i.IsDecoded strict) :
    ∃ op, op.InRange strict ∧ i.operation = .ok op := by
  obtain ⟨op, line, hop, rfl⟩ := h
  exact ⟨op, hop, Instruction.operation_instruction line op⟩

/-! ## Listings -/

/-- The number of the next comparison after an operation. -/
def Operation.nextLabel (k : Int64) : Operation → Int64
  | compare _ => k + 1
  | _ => k

/-- The lines of a program whose comparisons are numbered from `k` on, up to the first instruction
that has no code. -/
def listing (ns : Text) (k : Int64) : List Instruction → List AsmLine
  | [] => []
  | i :: is =>
    match i.operation with
    | .error _ => []
    | .ok op => .comment i.text :: Block.code ns k op ++ listing ns (op.nextLabel k) is

/-- The number of the first comparison after a program whose comparisons are numbered from `k`. -/
def labelAfter (k : Int64) : List Instruction → Int64
  | [] => k
  | i :: is =>
    match i.operation with
    | .error _ => k
    | .ok op => labelAfter (op.nextLabel k) is

theorem listing_cons {i : Instruction} {op : Operation} (h : i.operation = .ok op) (ns : Text)
    (k : Int64) (is : List Instruction) :
    listing ns k (i :: is) =
      .comment i.text :: Block.code ns k op ++ listing ns (op.nextLabel k) is := by
  simp [listing, h]

theorem listing_append {p : List Instruction} (h : ∀ i ∈ p, ∃ op, i.operation = .ok op) (ns : Text)
    (k : Int64) (q : List Instruction) :
    listing ns k (p ++ q) = listing ns k p ++ listing ns (labelAfter k p) q := by
  induction p generalizing k with
  | nil => rfl
  | cons i is ih =>
    obtain ⟨op, hop⟩ := h i (by simp)
    rw [List.cons_append, listing_cons hop, listing_cons hop, ih (fun j hj => h j (by simp [hj])),
      labelAfter, hop, List.append_assoc]

namespace Emitter

theorem write_of_room_none {e : Emitter} (h : e.sink.room = none) (ls : List AsmLine) :
    e.write ls = ({ e with lines := e.lines + ls.length }, ls) := by
  induction ls generalizing e with
  | nil => rfl
  | cons l ls ih =>
    have haccept : e.accept? = some { e with lines := e.lines + 1 } := by
      obtain ⟨_, _, _, ⟨room, _⟩, _⟩ := e
      obtain rfl : room = none := h
      rfl
    rw [write, haccept]
    simp only [ih (e := { e with lines := e.lines + 1 }) h, List.length_cons]
    rw [Nat.add_right_comm, Nat.add_assoc]

theorem countLabel_eq (e : Emitter) (op : Operation) :
    e.countLabel op = { e with labels := op.nextLabel e.labels } := by
  cases op <;> rfl

theorem emit_of_room_none {e : Emitter} (hroom : e.sink.room = none) (hfailed : e.failed = false)
    {i : Instruction} {op : Operation} (h : i.operation = .ok op) :
    e.emit i = ⟨{ e with
      labels := op.nextLabel e.labels
      lines := e.lines + (e.block i op).length }, e.block i op, none⟩ := by
  simp [emit, h, hfailed, countLabel_eq, write_of_room_none, hroom, writeError]

/-- An emitter whose sink has no limit writes the listing of the program. -/
theorem emitAll_written {e : Emitter} (hroom : e.sink.room = none) (hfailed : e.failed = false)
    (p : List Instruction) :
    (e.emitAll p).written = listing e.staticNamespace e.labels p := by
  induction p generalizing e with
  | nil => rfl
  | cons i is ih =>
    rw [emitAll, listing]
    cases h : i.operation with
    | error err => simp [emit, h, hfailed]
    | ok op =>
      rw [emit_of_room_none hroom hfailed h]
      simp only [block, List.cons_append, List.cons.injEq, List.append_cancel_left_eq, true_and]
      rw [ih (by exact hroom) (by exact hfailed)]

theorem emitAll_error {e : Emitter} (hroom : e.sink.room = none) (hfailed : e.failed = false)
    {p : List Instruction} (h : ∀ i ∈ p, ∃ op, i.operation = .ok op) :
    (e.emitAll p).error = none := by
  induction p generalizing e with
  | nil => rfl
  | cons i is ih =>
    obtain ⟨op, hop⟩ := h i (by simp)
    rw [emitAll, emit_of_room_none hroom hfailed hop]
    exact ih (by exact hroom) (by exact hfailed) fun j hj => h j (by simp [hj])

end Emitter

/-- The assembly of a program, as a fresh emitter writes it. -/
def assembly (p : List Instruction) : Text := AsmLine.render (({} : Emitter).emitAll p).written

theorem assembly_eq (p : List Instruction) : assembly p = AsmLine.render (listing [] 0 p) := by
  rw [assembly, Emitter.emitAll_written rfl rfl]

end HackVM
