import HackVM.Proofs.Assembling
import HackVM.Proofs.Interpreter

/-!
# Compute instructions

A compute instruction is written `dest=comp;jump`, where the first and the last part may be missing.
`ComputeInstruction` says what there is to write, and `ComputeInstruction.text` how. The operand of
an expression is the register `A` or the cell that it addresses, and the letter tells which.
Expressions are found in a table that has one letter for both, and this letter is taken as well.
With the three letters, reading accepts just the expressions (`Expression.ofText?_eq_some_iff`), and
encoding just the instructions (`ComputeInstruction.encodeCompute_eq_ok_iff_text`).
-/

namespace HackVM

/-! ## What is written -/

/-- What an expression combines: the register `D` and the operand. -/
inductive Input
  | d
  | x
  deriving DecidableEq

namespace Input

/-- The other one. -/
def other : Input → Input
  | d => x
  | x => d

/-- How it is written, if the operand is written with this letter. -/
def letter (operand : UInt8) : Input → UInt8
  | d => letterD
  | x => operand

/-- Its value. -/
def value (d x : Int16) : Input → Int16
  | .d => d
  | .x => x

end Input

/-- The sign of a binary operation. -/
def Binary.sign : Binary → Text
  | add => utf8 "+"
  | sub => utf8 "-"
  | and => utf8 "&"
  | or => utf8 "|"

/-- The expressions that a compute instruction can evaluate. -/
inductive Expression
  | zero
  | one
  | minusOne
  | input (i : Input)
  | not (i : Input)
  | neg (i : Input)
  | succ (i : Input)
  | pred (i : Input)
  /-- Combines one input, which is written first, and the other. -/
  | binary (op : Binary) (first : Input)
  deriving DecidableEq

namespace Expression

/-- How the expression is written, if the operand is written with this letter. -/
def text (operand : UInt8) : Expression → Text
  | zero => utf8 "0"
  | one => utf8 "1"
  | minusOne => utf8 "-1"
  | input i => [i.letter operand]
  | not i => utf8 "!" ++ [i.letter operand]
  | neg i => utf8 "-" ++ [i.letter operand]
  | succ i => [i.letter operand] ++ utf8 "+1"
  | pred i => [i.letter operand] ++ utf8 "-1"
  | binary op first => [first.letter operand] ++ op.sign ++ [first.other.letter operand]

/-- The value of the expression in 16-bit two's complement. -/
def value (d x : Int16) : Expression → Int16
  | zero => 0
  | one => 1
  | minusOne => -1
  | input i => i.value d x
  | not i => ~~~(i.value d x)
  | neg i => -(i.value d x)
  | succ i => i.value d x + 1
  | pred i => i.value d x - 1
  | binary op first => op.apply (first.value d x) (first.other.value d x)

/-- Does the expression use the operand? -/
def usesOperand : Expression → Bool
  | zero | one | minusOne => false
  | input i | not i | neg i | succ i | pred i => i = .x
  | binary _ _ => true

end Expression

/-- The places where a value can be stored. -/
inductive Destination
  | a
  | m
  | d
  deriving DecidableEq

/-- The letter of a destination. -/
def Destination.letter : Destination → UInt8
  | a => letterA
  | m => letterM
  | d => letterD

/-- The conditions for a jump. -/
inductive JumpCondition
  | gt
  | eq
  | ge
  | lt
  | ne
  | le
  | always
  deriving DecidableEq

namespace JumpCondition

/-- The name of a condition. -/
def word : JumpCondition → Text
  | gt => utf8 "JGT"
  | eq => utf8 "JEQ"
  | ge => utf8 "JGE"
  | lt => utf8 "JLT"
  | ne => utf8 "JNE"
  | le => utf8 "JLE"
  | always => utf8 "JMP"

/-- Does a value satisfy the condition? -/
def Holds (v : Int16) : JumpCondition → Prop
  | gt => 0 < v
  | eq => v = 0
  | ge => 0 ≤ v
  | lt => v < 0
  | ne => v ≠ 0
  | le => v ≤ 0
  | always => True

end JumpCondition

/-- A compute instruction: what it evaluates, where the value is stored, and when it jumps. -/
structure ComputeInstruction where
  /-- The destinations in the order in which they are written, possibly none. -/
  dest : List Destination
  expression : Expression
  jump : Option JumpCondition
  deriving DecidableEq

namespace ComputeInstruction

/-- The part of an instruction that says where the value is stored. -/
def destPart (ds : List Destination) : Text :=
  if ds = [] then [] else ds.map Destination.letter ++ utf8 "="

/-- The part of an instruction that says when it jumps. -/
def jumpPart (j : Option JumpCondition) : Text := j.elim [] fun j => utf8 ";" ++ j.word

/-- The destinations as they are written. -/
def destText (i : ComputeInstruction) : Text := i.dest.map Destination.letter

/-- The name of the jump condition, empty if there is none. -/
def jumpText (i : ComputeInstruction) : Text := i.jump.elim [] JumpCondition.word

/-- The instruction as it is written, `dest=comp;jump`, if the operand is written with this
letter. -/
def text (i : ComputeInstruction) (operand : UInt8) : Text :=
  destPart i.dest ++ i.expression.text operand ++ jumpPart i.jump

/-- The word of the instruction. -/
def word (i : ComputeInstruction) (operand : UInt8) (number : Nat) : Word :=
  .compute i.destText (i.expression.text operand) i.jumpText number

end ComputeInstruction

/-! ## Reading expressions -/

/-- The letters that are taken for an operand: those of the register `A` and of the cell it
addresses, and the letter that stands for both in the table of functions. -/
def operandLetters : List UInt8 := [letterA, letterM, letterX]

/-- The letter as it stands in the table of functions. -/
def tableLetter (b : UInt8) : UInt8 := if b = letterA ∨ b = letterM then letterX else b

/-- The text with another letter for the operand. -/
def withOperand (operand : UInt8) (t : Text) : Text :=
  t.map fun b => if b = letterX then operand else b

theorem tableLetter_eq_letterX_iff {b : UInt8} :
    tableLetter b = letterX ↔ b ∈ operandLetters := by
  unfold tableLetter operandLetters
  split
  · next h => simp only [true_iff, List.mem_cons]; tauto
  · next h => simp only [List.mem_cons, List.not_mem_nil, or_false]; tauto

theorem tableLetter_of_not_mem {b : UInt8} (h : b ∉ operandLetters) : tableLetter b = b := by
  refine if_neg fun hor => h ?_
  unfold operandLetters
  simp only [List.mem_cons]
  tauto

theorem withOperand_cons (operand b : UInt8) (t : Text) :
    withOperand operand (b :: t) =
      (if b = letterX then operand else b) :: withOperand operand t := rfl

theorem withOperand_of_not_mem {t : Text} (h : letterX ∉ t) (operand : UInt8) :
    withOperand operand t = t := by
  refine (List.map_congr_left fun b hb => ?_).trans (List.map_id t)
  refine if_neg ?_
  rintro rfl
  exact h hb

theorem letterX_not_mem_withOperand {operand : UInt8} (h : operand ≠ letterX) (t : Text) :
    letterX ∉ withOperand operand t := by
  intro hmem
  obtain ⟨b, -, hb⟩ := List.mem_map.1 hmem
  split at hb
  · exact h hb
  · next hne => exact hne hb

theorem map_tableLetter_of_not_mem {t : Text} (h : letterX ∉ t.map tableLetter) :
    t.map tableLetter = t := by
  refine (List.map_congr_left fun b hb => ?_).trans (List.map_id t)
  refine tableLetter_of_not_mem fun hmem => h ?_
  rw [← tableLetter_eq_letterX_iff.2 hmem]
  exact List.mem_map_of_mem hb

/-- A text that is written in the table with one operand at most has that operand only. -/
theorem exists_withOperand {t : Text} (h : (t.map tableLetter).count letterX ≤ 1) :
    ∃ operand ∈ operandLetters, t = withOperand operand (t.map tableLetter) := by
  induction t with
  | nil => exact ⟨letterA, by simp [operandLetters], rfl⟩
  | cons b t ih =>
    rw [List.map_cons] at h ⊢
    by_cases hb : b ∈ operandLetters
    · have hX := tableLetter_eq_letterX_iff.2 hb
      have hrest : letterX ∉ t.map tableLetter := by
        rw [hX, List.count_cons_self] at h
        exact List.count_eq_zero.1 (by omega)
      refine ⟨b, hb, ?_⟩
      rw [hX, withOperand_cons, if_pos rfl, withOperand_of_not_mem hrest,
        map_tableLetter_of_not_mem hrest]
    · have hself := tableLetter_of_not_mem hb
      have hne : b ≠ letterX := fun he => hb (by simp [he, operandLetters])
      rw [hself, List.count_cons_of_ne hne] at h
      obtain ⟨operand, hoperand, ht⟩ := ih h
      refine ⟨operand, hoperand, ?_⟩
      rw [hself, withOperand_cons, if_neg hne, ← ht]

namespace Expression

/-- The function that evaluates the expression. -/
def function : Expression → AluFunction
  | zero => .zero
  | one => .one
  | minusOne => .minusOne
  | input .d => .d
  | input .x => .x
  | not .d => .notD
  | not .x => .notX
  | neg .d => .negD
  | neg .x => .negX
  | succ .d => .succD
  | succ .x => .succX
  | pred .d => .predD
  | pred .x => .predX
  | binary .add _ => .sum
  | binary .sub .d => .dMinusX
  | binary .sub .x => .xMinusD
  | binary .and _ => .conj
  | binary .or _ => .disj

theorem eval_function (e : Expression) (d x : Int16) : e.function.eval d x = e.value d x := by
  cases e with
  | zero | one | minusOne => rfl
  | input i | not i | neg i | succ i | pred i => cases i <;> rfl
  | binary op first =>
    cases first with
    | d => cases op <;> rfl
    | x =>
      -- the table has one function for both orders of a sum, a conjunction or a disjunction
      cases op with
      | add => exact Int16.add_comm d x
      | sub => rfl
      | and => exact Int16.and_comm d x
      | or => exact Int16.or_comm d x

/-- All expressions, in the order of the table of functions. -/
def all : List Expression :=
  [zero, one, minusOne, input .d, input .x, not .d, not .x, neg .d, neg .x, succ .d, succ .x,
    pred .d, pred .x, binary .add .d, binary .add .x, binary .sub .d, binary .sub .x,
    binary .and .d, binary .and .x, binary .or .d, binary .or .x]

/-- The table of functions lists the expressions. -/
theorem table_eq : AluFunction.table = all.map fun e => (e.text letterX, e.function) := by
  rfl

theorem text_eq_withOperand (e : Expression) (operand : UInt8) :
    e.text operand = withOperand operand (e.text letterX) := by
  cases e with
  | zero | one | minusOne => rfl
  | input i | not i | neg i | succ i | pred i => cases i <;> rfl
  | binary op first => cases op <;> cases first <;> rfl

theorem mem_all (e : Expression) : e ∈ all := by
  cases e with
  | zero | one | minusOne => decide
  | input i | not i | neg i | succ i | pred i => cases i <;> decide
  | binary op first => cases op <;> cases first <;> decide

theorem count_text_le_one (e : Expression) : (e.text letterX).count letterX ≤ 1 := by
  have hall : ∀ e ∈ all, (e.text letterX).count letterX ≤ 1 := by decide
  exact hall e e.mem_all

theorem ofText?_text (e : Expression) {operand : UInt8} (h : operand ∈ operandLetters) :
    Computation.ofText? (e.text operand) =
      some ⟨e.function, e.usesOperand && operand == letterM⟩ := by
  have hall : ∀ operand ∈ operandLetters, ∀ e ∈ all, Computation.ofText? (e.text operand) =
      some ⟨e.function, e.usesOperand && operand == letterM⟩ := by
    decide +kernel
  exact hall operand h e e.mem_all

/-- No expression holds an equals sign or a semicolon. -/
theorem not_mem_text (e : Expression) {operand : UInt8} (h : operand ∈ operandLetters) :
    59 ∉ e.text operand ∧ 61 ∉ e.text operand := by
  have hall : ∀ operand ∈ operandLetters, ∀ e ∈ all,
      59 ∉ e.text operand ∧ 61 ∉ e.text operand := by
    decide +kernel
  exact hall operand h e e.mem_all

/-- **Reading accepts the expressions**, with one of the three letters for the operand. -/
theorem ofText?_eq_some_iff {t : Text} {c : Computation} :
    Computation.ofText? t = some c ↔
      ∃ e : Expression, ∃ operand ∈ operandLetters, t = e.text operand ∧
        c = ⟨e.function, e.usesOperand && operand == letterM⟩ := by
  constructor
  · intro h
    have hread := h
    unfold Computation.ofText? at h
    split at h
    · cases h
    · obtain ⟨f, hf, -⟩ := Option.map_eq_some_iff.1 h
      have hform : (t.map fun b => if b = letterA ∨ b = letterM then letterX else b) =
          t.map tableLetter := rfl
      rw [hform, table_eq] at hf
      obtain ⟨e, he⟩ : ∃ e : Expression, e.text letterX = t.map tableLetter := by
        obtain ⟨before, after, hsplit, -⟩ := List.lookup_eq_some_iff.1 hf
        have hmem : (t.map tableLetter, f) ∈ all.map fun e => (e.text letterX, e.function) := by
          simp [hsplit]
        obtain ⟨e, -, he⟩ := List.mem_map.1 hmem
        exact ⟨e, congrArg Prod.fst he⟩
      obtain ⟨operand, hoperand, ht⟩ := exists_withOperand (t := t) (he ▸ e.count_text_le_one)
      rw [← he, ← text_eq_withOperand] at ht
      rw [ht, e.ofText?_text hoperand] at hread
      exact ⟨e, operand, hoperand, ht, (Option.some.inj hread).symm⟩
  · rintro ⟨e, operand, hoperand, rfl, rfl⟩
    exact e.ofText?_text hoperand

end Expression

/-! ## Reading instructions -/

theorem Text.cut?_singleton {c : UInt8} {s : Text} (h : c ∉ s) (t : Text) :
    cut? [c] (s ++ c :: t) = some (s, t) := by
  induction s with
  | nil => simp [cut?]
  | cons b s ih =>
    rw [List.mem_cons, not_or] at h
    simp [cut?, h.1, ih h.2]

theorem exists_destinations {t : Text}
    (h : (t.all fun b => b == letterA || b == letterM || b == letterD) = true) :
    ∃ ds : List Destination, t = ds.map Destination.letter := by
  induction t with
  | nil => exact ⟨[], rfl⟩
  | cons b t ih =>
    rw [List.all_cons, Bool.and_eq_true] at h
    obtain ⟨ds, rfl⟩ := ih h.2
    simp only [Bool.or_eq_true, beq_iff_eq] at h
    rcases h.1 with (rfl | rfl) | rfl
    · exact ⟨.a :: ds, rfl⟩
    · exact ⟨.m :: ds, rfl⟩
    · exact ⟨.d :: ds, rfl⟩

theorem all_destinations (ds : List Destination) :
    ((ds.map Destination.letter).all fun b => b == letterA || b == letterM || b == letterD) =
      true := by
  rw [List.all_map, List.all_eq_true]
  intro place _
  cases place <;> rfl

theorem contains_jumpConditions_iff {t : Text} :
    jumpConditions.contains t = true ↔ ∃ j : JumpCondition, t = j.word := by
  rw [List.contains_iff_mem]
  constructor
  · intro h
    simp only [jumpConditions, List.mem_cons, List.not_mem_nil, or_false] at h
    rcases h with rfl | rfl | rfl | rfl | rfl | rfl | rfl
    · exact ⟨.gt, rfl⟩
    · exact ⟨.eq, rfl⟩
    · exact ⟨.ge, rfl⟩
    · exact ⟨.lt, rfl⟩
    · exact ⟨.ne, rfl⟩
    · exact ⟨.le, rfl⟩
    · exact ⟨.always, rfl⟩
  · rintro ⟨j, rfl⟩
    cases j <;> decide

namespace ComputeInstruction

theorem exists_of_splitDest {t dest rest : Text} (h : splitDest t = .ok (dest, rest)) :
    ∃ ds : List Destination, dest = ds.map Destination.letter ∧ t = destPart ds ++ rest := by
  unfold splitDest at h
  split at h
  · obtain ⟨rfl, rfl⟩ := Prod.mk.inj (Except.ok.inj h)
    exact ⟨[], rfl, rfl⟩
  · next before after hcut =>
    split at h
    · cases h
    · next hdest =>
      obtain ⟨rfl, rfl⟩ := Prod.mk.inj (Except.ok.inj h)
      rw [not_or, Bool.not_eq_true', Bool.not_eq_false] at hdest
      obtain ⟨ds, rfl⟩ := exists_destinations hdest.2
      refine ⟨ds, rfl, ?_⟩
      rw [Text.cut?_eq_some hcut, destPart, if_neg fun hds => hdest.1 (by rw [hds]; rfl)]

theorem splitDest_destPart (ds : List Destination) {rest : Text} (h : 61 ∉ rest) :
    splitDest (destPart ds ++ rest) = .ok (ds.map Destination.letter, rest) := by
  unfold splitDest destPart
  by_cases hds : ds = []
  · have hcut : Text.cut? (utf8 "=") rest = none := Text.cut?_eq_none_of_not_mem h
    simp [hds, hcut]
  · have hnot : 61 ∉ ds.map Destination.letter := by
      intro hmem
      obtain ⟨place, -, hplace⟩ := List.mem_map.1 hmem
      cases place <;> cases hplace
    have hcut : Text.cut? (utf8 "=") (ds.map Destination.letter ++ utf8 "=" ++ rest) =
        some (ds.map Destination.letter, rest) := by
      rw [List.append_assoc]
      exact Text.cut?_singleton hnot rest
    rw [if_neg hds, hcut]
    simp only
    rw [if_neg (by rw [all_destinations]; simp [hds])]

theorem exists_of_splitJump {t comp jump : Text} (h : splitJump t = .ok (comp, jump)) :
    ∃ j : Option JumpCondition, jump = j.elim [] JumpCondition.word ∧ t = comp ++ jumpPart j := by
  unfold splitJump at h
  split at h
  · obtain ⟨rfl, rfl⟩ := Prod.mk.inj (Except.ok.inj h)
    exact ⟨none, rfl, (List.append_nil t).symm⟩
  · next before after hcut =>
    split at h
    · next hjump =>
      obtain ⟨rfl, rfl⟩ := Prod.mk.inj (Except.ok.inj h)
      obtain ⟨j, rfl⟩ := contains_jumpConditions_iff.1 hjump
      refine ⟨some j, rfl, ?_⟩
      rw [Text.cut?_eq_some hcut, List.append_assoc]
      rfl
    · cases h

theorem splitJump_jumpPart {comp : Text} (h : 59 ∉ comp) (j : Option JumpCondition) :
    splitJump (comp ++ jumpPart j) = .ok (comp, j.elim [] JumpCondition.word) := by
  unfold splitJump
  cases j with
  | none =>
    have hcut : Text.cut? (utf8 ";") comp = none := Text.cut?_eq_none_of_not_mem h
    simp [jumpPart, hcut]
  | some j =>
    have hcut : Text.cut? (utf8 ";") (comp ++ jumpPart (some j)) = some (comp, j.word) :=
      Text.cut?_singleton h j.word
    rw [hcut]
    simp only
    rw [if_pos (contains_jumpConditions_iff.2 ⟨j, rfl⟩)]
    rfl

theorem not_mem_jumpPart (j : Option JumpCondition) : 61 ∉ jumpPart j := by
  rcases j with _ | (_ | _ | _ | _ | _ | _ | _) <;> decide

/-- **Encoding accepts the compute instructions**, with one of the three letters for the operand. -/
theorem encodeCompute_eq_ok_iff_text {number : Nat} {t : Text} {w : Word} :
    encodeCompute number t = .ok w ↔
      ∃ i : ComputeInstruction, ∃ operand ∈ operandLetters,
        t = i.text operand ∧ w = i.word operand number := by
  rw [encodeCompute_eq_ok_iff]
  constructor
  · rintro ⟨dest, rest, comp, jump, c, hdest, hjump, hcomp, rfl⟩
    obtain ⟨ds, rfl, rfl⟩ := exists_of_splitDest hdest
    obtain ⟨j, rfl, rfl⟩ := exists_of_splitJump hjump
    obtain ⟨e, operand, hoperand, rfl, -⟩ := Expression.ofText?_eq_some_iff.1 hcomp
    exact ⟨⟨ds, e, j⟩, operand, hoperand, (List.append_assoc _ _ _).symm, rfl⟩
  · rintro ⟨⟨ds, e, j⟩, operand, hoperand, rfl, rfl⟩
    obtain ⟨hsemicolon, hequals⟩ := e.not_mem_text hoperand
    have hrest : 61 ∉ e.text operand ++ jumpPart j := by
      rw [List.mem_append, not_or]
      exact ⟨hequals, not_mem_jumpPart j⟩
    refine ⟨_, _, _, _, _, ?_, splitJump_jumpPart hsemicolon j, e.ofText?_text hoperand, rfl⟩
    rw [text, List.append_assoc]
    exact splitDest_destPart ds hrest

end ComputeInstruction

end HackVM
