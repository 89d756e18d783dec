import HackVM.Assembly.Block
import HackVM.Proofs.Symbols

/-!
# The two passes of the assembler

The assembler is given raw text, but all that counts is the line of assembly that it takes each raw
line for (`AsmLine.Reads`). The first pass accepts lines whose labels are new and all different
(`bindLabels_eq_ok_iff`), the second one lines of code that have a meaning
(`encodeLines_eq_ok_iff`). So a text is accepted exactly if its lines pass both
(`assemble_eq_ok_iff`). The words are then the `image` of the lines under the symbols that are known
in the end, although they were encoded when only some of these symbols were known: a binding, once
made, stays.
-/

namespace HackVM

/-! ## Lines -/

namespace AsmLine

/-- The number of words that a line becomes. -/
def words : AsmLine → Nat
  | load _ | compute _ => 1
  | comment _ | label _ => 0

/-- The label that a line declares. -/
def label? : AsmLine → Option Text
  | label name => some name
  | _ => none

/-- The symbol that a line loads. -/
def symbol? : AsmLine → Option Text
  | load operand => if startsWithDigit operand then none else some operand
  | _ => none

theorem words_eq_zero_or_one (l : AsmLine) : l.words = 0 ∨ l.words = 1 := by
  cases l <;> simp [words]

theorem symbol?_eq_none {l : AsmLine} (h : l.words = 0) : l.symbol? = none := by
  cases l <;> simp_all [words, symbol?]

theorem label?_eq_none {l : AsmLine} (h : l.words = 1) : l.label? = none := by
  cases l <;> simp_all [words, label?]

theorem text_load (operand : Text) : (load operand).text = 64 :: operand := rfl

/-- The assembler takes a raw line for the line. -/
def Reads (raw : Text) : AsmLine → Prop
  | comment _ => codeText raw = []
  | load operand => codeText raw = 64 :: operand
  | compute code =>
    codeText raw = code ∧ code ≠ [] ∧ code.head? ≠ some 40 ∧ code.head? ≠ some 64
  | label name => codeText raw = 40 :: (name ++ [41]) ∧ name ≠ []

/-- The operand or the computation of the line has a meaning. -/
def Encodable : AsmLine → Prop
  | load operand =>
    operand ≠ [] ∧ (startsWithDigit operand = true → ∃ n ≤ largestConstant, operand.value? = some n)
  | compute code =>
    ∃ dest comp jump, ∀ number, encodeCompute number code = .ok (.compute dest comp jump number)
  | comment _ | label _ => True

theorem Reads.of_words {raw : Text} {l : AsmLine} (h : l.Reads raw) (hwords : l.words = 1) :
    codeText raw = l.text ∧ l.text ≠ [] ∧ l.text.head? ≠ some 40 := by
  cases l with
  | comment t => cases hwords
  | load operand => exact ⟨h, by simp [text_load], by simp [text_load]⟩
  | compute code => exact ⟨h.1, h.2.1, h.2.2.1⟩
  | label name => cases hwords

theorem encodable_of_words_eq_zero {l : AsmLine} (h : l.words = 0) : l.Encodable := by
  cases l with
  | comment t => trivial
  | load operand => cases h
  | compute code => cases h
  | label name => trivial

end AsmLine

/-- The number of words that lines become. -/
def wordCount (ls : List AsmLine) : Nat := (ls.map AsmLine.words).sum

/-- The labels that lines declare. -/
def declaredLabels (ls : List AsmLine) : List Text := ls.filterMap AsmLine.label?

/-- The symbols that lines load. -/
def loadedSymbols (ls : List AsmLine) : List Text := ls.filterMap AsmLine.symbol?

@[simp]
theorem wordCount_nil : wordCount [] = 0 := rfl

@[simp]
theorem wordCount_cons (l : AsmLine) (ls : List AsmLine) :
    wordCount (l :: ls) = l.words + wordCount ls := by
  simp [wordCount]

@[simp]
theorem wordCount_append (ls ms : List AsmLine) :
    wordCount (ls ++ ms) = wordCount ls + wordCount ms := by
  simp [wordCount]

theorem declaredLabels_cons (l : AsmLine) (ls : List AsmLine) :
    declaredLabels (l :: ls) = l.label?.toList ++ declaredLabels ls := by
  cases h : l.label? <;> simp [declaredLabels, h]

theorem loadedSymbols_cons (l : AsmLine) (ls : List AsmLine) :
    loadedSymbols (l :: ls) = l.symbol?.toList ++ loadedSymbols ls := by
  cases h : l.symbol? <;> simp [loadedSymbols, h]

@[simp]
theorem declaredLabels_append (ls ms : List AsmLine) :
    declaredLabels (ls ++ ms) = declaredLabels ls ++ declaredLabels ms := by
  simp [declaredLabels]

@[simp]
theorem loadedSymbols_append (ls ms : List AsmLine) :
    loadedSymbols (ls ++ ms) = loadedSymbols ls ++ loadedSymbols ms := by
  simp [loadedSymbols]

/-- The lines of code, with their numbers in a text whose first line is numbered `number`. -/
def codeLines (number : Nat) : List AsmLine → List CodeLine
  | [] => []
  | l :: ls =>
    if l.words = 0 then codeLines (number + 1) ls
    else ⟨number, l.text⟩ :: codeLines (number + 1) ls

theorem codeLines_cons_of_words {l : AsmLine} (h : l.words = 1) (number : Nat)
    (ls : List AsmLine) :
    codeLines number (l :: ls) = ⟨number, l.text⟩ :: codeLines (number + 1) ls := by
  rw [codeLines, if_neg (by simp [h])]

theorem codeLines_append (number : Nat) (ls ms : List AsmLine) :
    codeLines number (ls ++ ms) = codeLines number ls ++ codeLines (number + ls.length) ms := by
  induction ls generalizing number with
  | nil => rfl
  | cons l ls ih =>
    have hlength : number + (l :: ls).length = number + 1 + ls.length := by
      rw [List.length_cons, Nat.add_right_comm, Nat.add_assoc]
    rw [List.cons_append, codeLines, codeLines, ih, hlength]
    split <;> rfl

/-! ## The first pass -/

namespace Assembler

/-- The assembler with the labels of the lines bound, `address` words standing before them. -/
def bindAll (a : Assembler) (address : Nat) : List AsmLine → Assembler
  | [] => a
  | l :: ls =>
    (l.label?.elim a fun name => a.bind name address).bindAll (address + l.words) ls

theorem bindAll_append (a : Assembler) (address : Nat) (ls ms : List AsmLine) :
    a.bindAll address (ls ++ ms) =
      (a.bindAll address ls).bindAll (address + wordCount ls) ms := by
  induction ls generalizing a address with
  | nil => rfl
  | cons l ls ih => rw [List.cons_append, bindAll, bindAll, ih, wordCount_cons, Nat.add_assoc]

theorem lookup_bindAll_of_not_mem (a : Assembler) (address : Nat) {ls : List AsmLine} {name : Text}
    (h : name ∉ declaredLabels ls) : (a.bindAll address ls).lookup name = a.lookup name := by
  induction ls generalizing a address with
  | nil => rfl
  | cons l ls ih =>
    rw [declaredLabels_cons, List.mem_append, not_or] at h
    rw [bindAll, ih _ _ h.2]
    cases hl : l.label? with
    | none => rfl
    | some other => exact lookup_bind_of_ne a (by simpa [hl] using h.1) address

theorem isSome_lookup_bindAll {ls : List AsmLine} {name : Text}
    (h : name ∈ declaredLabels ls) (a : Assembler) (address : Nat) :
    ((a.bindAll address ls).lookup name).isSome = true := by
  induction ls generalizing a address with
  | nil => simp [declaredLabels] at h
  | cons l ls ih =>
    rw [bindAll]
    by_cases hrest : name ∈ declaredLabels ls
    · exact ih hrest _ _
    · rw [declaredLabels_cons, List.mem_append, Option.mem_toList] at h
      rw [lookup_bindAll_of_not_mem _ _ hrest, h.resolve_right hrest, Option.elim_some,
        lookup_bind_self]
      rfl

/-- A label is bound to the number of words before it. -/
theorem lookup_bindAll_label {before after : List AsmLine} {name : Text}
    (h : (declaredLabels (before ++ .label name :: after)).Nodup) (a : Assembler) (address : Nat) :
    (a.bindAll address (before ++ .label name :: after)).lookup name =
      some (address + wordCount before) := by
  have hnot : name ∉ declaredLabels after := by
    rw [declaredLabels_append] at h
    exact (List.nodup_cons.1 (List.nodup_append.1 h).2.1).1
  rw [bindAll_append, bindAll, lookup_bindAll_of_not_mem _ _ hnot]
  exact lookup_bind_self _ name _

@[simp]
theorem nextVariable_bindAll (a : Assembler) (address : Nat) (ls : List AsmLine) :
    (a.bindAll address ls).nextVariable = a.nextVariable := by
  induction ls generalizing a address with
  | nil => rfl
  | cons l ls ih =>
    rw [bindAll, ih]
    cases l.label? <;> rfl

theorem labelName?_text {name : Text} (h : name ≠ []) :
    labelName? (40 :: (name ++ [41])) = some name := by
  have hlen : 3 ≤ (40 :: (name ++ [41])).length := by
    have := List.length_pos_iff.2 h
    simp only [List.length_cons, List.length_append, List.length_nil]
    omega
  rw [labelName?, if_pos ⟨hlen, by rw [← List.cons_append, List.getLast?_concat]⟩]
  simp

theorem labelName?_eq_some {t name : Text} (h : labelName? (40 :: t) = some name) :
    t = name ++ [41] ∧ name ≠ [] := by
  unfold labelName? at h
  split at h
  · next hform =>
    obtain ⟨hlen, hlast⟩ := hform
    obtain rfl : t.dropLast = name := Option.some.inj h
    have ht : t ≠ [] := by
      rintro rfl
      simp at hlen
    rw [List.getLast?_cons_of_ne_nil ht] at hlast
    refine ⟨(List.dropLast_append_getLast? 41 hlast).symm, fun hnil => ?_⟩
    have := congrArg List.length hnil
    simp only [List.length_dropLast, List.length_nil, List.length_cons] at this hlen
    omega
  · cases h

theorem bindLabels_cons_comment {raw : Text} (h : codeText raw = []) (a : Assembler)
    (number address : Nat) (raws : List Text) :
    a.bindLabels number address (raw :: raws) = a.bindLabels (number + 1) address raws := by
  rw [bindLabels, h, if_pos rfl]

theorem bindLabels_cons_code {raw : Text} (hne : codeText raw ≠ [])
    (hparen : (codeText raw).head? ≠ some 40) {a a' : Assembler} {number address : Nat}
    {raws : List Text} {lines : List CodeLine} :
    a.bindLabels number address (raw :: raws) = (a', .ok lines) ↔
      ∃ rest, a.bindLabels (number + 1) (address + 1) raws = (a', .ok rest) ∧
        lines = ⟨number, codeText raw⟩ :: rest := by
  rw [bindLabels, if_neg hne, if_neg hparen]
  rcases a.bindLabels (number + 1) (address + 1) raws with ⟨b, e | rest⟩
  · simp
  · simp [eq_comm]

theorem bindLabels_cons_label {raw name : Text} (h : codeText raw = 40 :: (name ++ [41]))
    (hne : name ≠ []) {a a' : Assembler} {number address : Nat} {raws : List Text}
    {lines : List CodeLine} :
    a.bindLabels number address (raw :: raws) = (a', .ok lines) ↔
      a.lookup name = none ∧
        (a.bind name address).bindLabels (number + 1) address raws = (a', .ok lines) := by
  rw [bindLabels, h, if_neg (by simp), if_pos (by simp), labelName?_text hne]
  cases hname : a.lookup name <;> simp [hname]

/-- **The first pass** accepts lines whose labels are new and different from each other. It binds
the labels and keeps the lines of code. -/
theorem bindLabels_eq_ok_iff {raws : List Text} {ls : List AsmLine}
    (h : List.Forall₂ AsmLine.Reads raws ls) {a a' : Assembler} {number address : Nat}
    {lines : List CodeLine} :
    a.bindLabels number address raws = (a', .ok lines) ↔
      (declaredLabels ls).Nodup ∧ (∀ name ∈ declaredLabels ls, a.lookup name = none) ∧
        a' = a.bindAll address ls ∧ lines = codeLines number ls := by
  induction h generalizing a number address lines with
  | nil => simp [bindLabels, declaredLabels, bindAll, codeLines, eq_comm]
  | @cons raw l raws ls hl _ ih =>
    rcases l.words_eq_zero_or_one with hwords | hwords
    · cases l with
      | load operand => cases hwords
      | compute code => cases hwords
      | comment t =>
        rw [bindLabels_cons_comment hl, ih]
        rfl
      | label name =>
        have hlabels : declaredLabels (.label name :: ls) = name :: declaredLabels ls := rfl
        rw [bindLabels_cons_label hl.1 hl.2, ih, hlabels, List.nodup_cons, List.forall_mem_cons]
        constructor
        · rintro ⟨hname, hnodup, hnew, rfl, rfl⟩
          have hnot : name ∉ declaredLabels ls := fun hmem => by simpa using hnew name hmem
          refine ⟨⟨hnot, hnodup⟩, ⟨hname, fun other hother => ?_⟩, rfl, rfl⟩
          have hne : other ≠ name := fun he => hnot (he ▸ hother)
          rw [← lookup_bind_of_ne a hne address]
          exact hnew other hother
        · rintro ⟨⟨hnot, hnodup⟩, ⟨hname, hnew⟩, rfl, rfl⟩
          refine ⟨hname, hnodup, fun other hother => ?_, rfl, rfl⟩
          have hne : other ≠ name := fun he => hnot (he ▸ hother)
          rw [lookup_bind_of_ne a hne, hnew other hother]
    · -- a line of code declares no label and is kept
      obtain ⟨hcode, hne, hparen⟩ := hl.of_words hwords
      have hlabel := AsmLine.label?_eq_none hwords
      rw [bindLabels_cons_code (hcode ▸ hne) (hcode ▸ hparen), hcode, declaredLabels_cons, hlabel,
        bindAll, hlabel, hwords, codeLines_cons_of_words hwords]
      simp only [ih, Option.toList_none, List.nil_append, Option.elim_none]
      constructor
      · rintro ⟨_, ⟨hnodup, hnew, rfl, rfl⟩, rfl⟩
        exact ⟨hnodup, hnew, rfl, rfl⟩
      · rintro ⟨hnodup, hnew, rfl, rfl⟩
        exact ⟨_, ⟨hnodup, hnew, rfl, rfl⟩, rfl⟩

/-- The first pass accepts only lines that it takes for something. -/
theorem exists_reads_of_bindLabels_ok {a a' : Assembler} {number address : Nat} {raws : List Text}
    {lines : List CodeLine} (h : a.bindLabels number address raws = (a', .ok lines)) :
    ∃ ls, List.Forall₂ AsmLine.Reads raws ls := by
  induction raws generalizing a number address lines with
  | nil => exact ⟨[], .nil⟩
  | cons raw raws ih =>
    by_cases hnil : codeText raw = []
    · rw [bindLabels_cons_comment hnil] at h
      obtain ⟨ls, hls⟩ := ih h
      exact ⟨.comment [] :: ls, .cons hnil hls⟩
    · by_cases hparen : (codeText raw).head? = some 40
      · obtain ⟨t, ht⟩ := List.head?_eq_some_iff.1 hparen
        cases hname : labelName? (codeText raw) with
        | none =>
          rw [bindLabels, if_neg hnil, if_pos hparen, hname] at h
          cases h
        | some name =>
          rw [ht] at hname
          obtain ⟨rfl, hne⟩ := labelName?_eq_some hname
          rw [bindLabels_cons_label ht hne] at h
          obtain ⟨ls, hls⟩ := ih h.2
          exact ⟨.label name :: ls, .cons ⟨ht, hne⟩ hls⟩
      · rw [bindLabels_cons_code hnil hparen] at h
        obtain ⟨rest, hrest, -⟩ := h
        obtain ⟨ls, hls⟩ := ih hrest
        by_cases hat : (codeText raw).head? = some 64
        · obtain ⟨operand, hoperand⟩ := List.head?_eq_some_iff.1 hat
          exact ⟨.load operand :: ls, .cons hoperand hls⟩
        · exact ⟨.compute (codeText raw) :: ls, .cons ⟨rfl, hnil, hparen, hat⟩ hls⟩

/-! ## The second pass -/

/-- What an operand stands for: a number, or the address of a symbol. -/
def operandValue? (a : Assembler) (operand : Text) : Option Int16 :=
  (if startsWithDigit operand then operand.value? else a.lookup operand).map Int16.ofNat

theorem operandValue?_of_lookup {a : Assembler} {name : Text} {n : Nat}
    (hdigit : startsWithDigit name = false) (h : a.lookup name = some n) :
    a.operandValue? name = some (Int16.ofNat n) := by
  simp [operandValue?, hdigit, h]

end Assembler

/-! ### Compute lines -/

/-- The destinations of a compute line, and what stands behind them. -/
def splitDest (t : Text) : Except AsmProblem (Text × Text) :=
  match Text.cut? (utf8 "=") t with
  | none => .ok ([], t)
  | some (dest, rest) =>
    if dest = [] ∨ !dest.all fun b => b == letterA || b == letterM || b == letterD then
      .error (.invalidDestination dest)
    else .ok (dest, rest)

/-- The computation, and the jump condition behind it. -/
def splitJump (t : Text) : Except AsmProblem (Text × Text) :=
  match Text.cut? (utf8 ";") t with
  | none => .ok (t, [])
  | some (comp, jump) =>
    if jumpConditions.contains jump then .ok (comp, jump) else .error (.invalidJump jump)

/-- The word with these parts. -/
def encodeParts (number : Nat) (dest comp jump : Text) : Except AsmProblem Word :=
  match Computation.ofText? comp with
  | none => .error (.invalidComputation comp)
  | some _ => .ok (.compute dest comp jump number)

theorem encodeCompute_eq (number : Nat) (t : Text) :
    encodeCompute number t = (splitDest t).bind fun p => (splitJump p.2).bind fun q =>
      encodeParts number p.1 q.1 q.2 := by
  -- what the rest of the line becomes, whatever stands before it
  have hrest (dest rest : Text) :
      (match Text.cut? (utf8 ";") rest with
        | none => encodeParts number dest rest []
        | some (comp, jump) =>
          if jumpConditions.contains jump then encodeParts number dest comp jump
          else .error (.invalidJump jump)) =
        (splitJump rest).bind fun q => encodeParts number dest q.1 q.2 := by
    unfold splitJump
    split
    · rfl
    · split <;> rfl
  unfold encodeCompute splitDest
  rcases Text.cut? (utf8 "=") t with _ | ⟨dest, rest⟩
  · exact hrest [] t
  · simp only
    split
    · rfl
    · exact hrest dest rest

/-- A compute line is accepted if it falls apart in the right way and its computation has a
meaning. -/
theorem encodeCompute_eq_ok_iff {number : Nat} {t : Text} {w : Word} :
    encodeCompute number t = .ok w ↔
      ∃ dest rest comp jump c, splitDest t = .ok (dest, rest) ∧ splitJump rest = .ok (comp, jump) ∧
        Computation.ofText? comp = some c ∧ w = .compute dest comp jump number := by
  rw [encodeCompute_eq]
  constructor
  · intro h
    rcases hdest : splitDest t with p | ⟨dest, rest⟩
    · simp [hdest, Except.bind] at h
    · rcases hjump : splitJump rest with p | ⟨comp, jump⟩
      · simp [hdest, hjump, Except.bind] at h
      · cases hcomp : Computation.ofText? comp with
        | none => simp [hdest, hjump, hcomp, encodeParts, Except.bind] at h
        | some c =>
          simp only [hdest, hjump, hcomp, encodeParts, Except.bind, Except.ok.injEq] at h
          exact ⟨dest, rest, comp, jump, c, rfl, hjump, hcomp, h.symm⟩
  · rintro ⟨dest, rest, comp, jump, c, hdest, hjump, hcomp, rfl⟩
    simp [hdest, hjump, hcomp, encodeParts, Except.bind]

/-- The number of a compute line stands in its word and matters for nothing else. -/
theorem encodeCompute_eq_ok {number : Nat} {t : Text} {w : Word}
    (h : encodeCompute number t = .ok w) :
    ∃ dest comp jump, w = .compute dest comp jump number ∧
      ∀ other, encodeCompute other t = .ok (.compute dest comp jump other) := by
  obtain ⟨dest, rest, comp, jump, c, hdest, hjump, hcomp, rfl⟩ := encodeCompute_eq_ok_iff.1 h
  exact ⟨dest, comp, jump, rfl, fun other =>
    encodeCompute_eq_ok_iff.2 ⟨dest, rest, comp, jump, c, hdest, hjump, hcomp, rfl⟩⟩

namespace AsmLine

/-- The word that a line with this number becomes under the symbols of an assembler. -/
def word? (a : Assembler) (number : Nat) : AsmLine → Option Word
  | load operand => (a.operandValue? operand).map fun v => .address v number
  | compute code => (encodeCompute number code).toOption
  | comment _ | label _ => none

theorem word?_eq_none {l : AsmLine} (h : l.words = 0) (a : Assembler) (number : Nat) :
    l.word? a number = none := by
  cases l with
  | comment t => rfl
  | load operand => cases h
  | compute code => cases h
  | label name => rfl

theorem word?_compute {a : Assembler} {number : Nat} {code : Text} {w : Word} :
    (compute code).word? a number = some w ↔ encodeCompute number code = .ok w := by
  rw [word?]
  cases encodeCompute number code <;> simp [Except.toOption]

theorem word?_mono {a b : Assembler}
    (h : ∀ name address, a.lookup name = some address → b.lookup name = some address)
    {number : Nat} {l : AsmLine} {w : Word} (hw : l.word? a number = some w) :
    l.word? b number = some w := by
  cases l with
  | comment t => exact hw
  | compute code => exact hw
  | label name => exact hw
  | load operand =>
    cases hdigit : startsWithDigit operand with
    | true => simpa [word?, Assembler.operandValue?, hdigit] using hw
    | false =>
      cases hlookup : a.lookup operand with
      | none => simp [word?, Assembler.operandValue?, hdigit, hlookup] at hw
      | some address =>
        simpa [word?, Assembler.operandValue?, hdigit, hlookup, h operand address hlookup] using hw

/-- A line of code with a meaning has a word if its symbol is bound. -/
theorem Encodable.exists_word? {l : AsmLine} (h : l.Encodable) (hwords : l.words = 1)
    {a : Assembler} (hbound : ∀ name, l.symbol? = some name → ∃ n, a.lookup name = some n)
    (number : Nat) : ∃ w, l.word? a number = some w := by
  cases l with
  | comment t => cases hwords
  | label name => cases hwords
  | compute code =>
    obtain ⟨dest, comp, jump, hall⟩ := h
    exact ⟨.compute dest comp jump number, by rw [word?, hall]; rfl⟩
  | load operand =>
    cases hdigit : startsWithDigit operand with
    | true =>
      obtain ⟨n, -, hn⟩ := h.2 hdigit
      exact ⟨.address (Int16.ofNat n) number, by simp [word?, Assembler.operandValue?, hdigit, hn]⟩
    | false =>
      obtain ⟨n, hn⟩ := hbound operand (by simp [symbol?, hdigit])
      exact ⟨.address (Int16.ofNat n) number, by simp [word?, Assembler.operandValue?, hdigit, hn]⟩

end AsmLine

namespace Assembler

/-- The words of lines numbered from `number` on, under the symbols of an assembler. -/
def image (a : Assembler) (number : Nat) : List AsmLine → List Word
  | [] => []
  | l :: ls => (l.word? a number).toList ++ a.image (number + 1) ls

theorem image_append (a : Assembler) (number : Nat) (ls ms : List AsmLine) :
    a.image number (ls ++ ms) = a.image number ls ++ a.image (number + ls.length) ms := by
  induction ls generalizing number with
  | nil => rfl
  | cons l ls ih =>
    rw [List.cons_append, image, image, ih, List.append_assoc, List.length_cons,
      Nat.add_right_comm, Nat.add_assoc]

/-- Every line of code gives one word. -/
theorem length_image {a : Assembler} {ls : List AsmLine} (hls : ∀ l ∈ ls, l.Encodable)
    (hbound : ∀ name ∈ loadedSymbols ls, ∃ n, a.lookup name = some n) (number : Nat) :
    (a.image number ls).length = wordCount ls := by
  induction ls generalizing number with
  | nil => rfl
  | cons l ls ih =>
    rw [loadedSymbols_cons, List.forall_mem_append] at hbound
    rw [List.forall_mem_cons] at hls
    rw [image, List.length_append, ih hls.2 hbound.2, wordCount_cons]
    rcases l.words_eq_zero_or_one with hwords | hwords
    · rw [AsmLine.word?_eq_none hwords, hwords]
      rfl
    · obtain ⟨w, hw⟩ := hls.1.exists_word? hwords (fun name hname =>
        hbound.1 name (Option.mem_toList.2 hname)) number
      rw [hw, hwords]
      rfl

theorem encodeLine_eq_ok_iff {raw : Text} {l : AsmLine} (h : l.Reads raw) (hwords : l.words = 1)
    {a a' : Assembler} {number : Nat} {w : Word} :
    a.encodeLine ⟨number, l.text⟩ = (a', .ok w) ↔
      l.Encodable ∧ a' = a.allocate l.symbol?.toList ∧ l.word? a' number = some w := by
  cases l with
  | comment t => cases hwords
  | label name => cases hwords
  | compute code =>
    obtain ⟨-, -, -, hat⟩ := h
    have hline : a.encodeLine ⟨number, code⟩ = (a, encodeCompute number code) := by
      unfold encodeLine
      split
      · next operand htext =>
        simp only at htext
        exact absurd (by rw [htext]; rfl) hat
      · rfl
    rw [AsmLine.text, hline]
    simp only [Prod.mk.injEq, AsmLine.Encodable, AsmLine.symbol?, Option.toList_none, allocate,
      List.foldl_nil, AsmLine.word?_compute]
    constructor
    · rintro ⟨rfl, hw⟩
      obtain ⟨dest, comp, jump, rfl, hall⟩ := encodeCompute_eq_ok hw
      exact ⟨⟨dest, comp, jump, hall⟩, rfl, hw⟩
    · rintro ⟨-, rfl, hw⟩
      exact ⟨rfl, hw⟩
  | load operand =>
    have hline : a.encodeLine ⟨number, (AsmLine.load operand).text⟩ =
        a.encodeAddress number operand := rfl
    rw [hline, encodeAddress]
    by_cases hne : operand = []
    · simp [hne, AsmLine.Encodable]
    · rw [if_neg hne]
      cases hdigit : startsWithDigit operand with
      | true =>
        cases hvalue : operand.value? with
        | none => simp [AsmLine.Encodable, hdigit, hvalue]
        | some n =>
          by_cases hn : n ≤ largestConstant
          · simp [AsmLine.Encodable, AsmLine.symbol?, AsmLine.word?, operandValue?, allocate,
              hdigit, hvalue, hn, hne, eq_comm]
          · simp [AsmLine.Encodable, hdigit, hvalue, hn]
      | false =>
        have hsymbol : (AsmLine.load operand).symbol? = some operand := by
          simp [AsmLine.symbol?, hdigit]
        have hallocate : a.allocate [operand] = (a.resolve operand).2 := rfl
        have hlookup := lookup_resolve_self a operand
        rw [hsymbol, Option.toList_some, hallocate]
        simp only [Bool.false_eq_true, if_false, Prod.mk.injEq, Except.ok.injEq]
        constructor
        · rintro ⟨rfl, rfl⟩
          refine ⟨⟨hne, fun h => by simp [hdigit] at h⟩, rfl, ?_⟩
          simp [AsmLine.word?, operandValue?, hdigit, hlookup]
        · rintro ⟨-, rfl, hw⟩
          simpa [AsmLine.word?, operandValue?, hdigit, hlookup] using hw

theorem encodeLines_cons_eq_ok_iff {a a' : Assembler} {l : CodeLine} {ls : List CodeLine}
    {ws : List Word} :
    a.encodeLines (l :: ls) = (a', .ok ws) ↔
      ∃ b w rest, a.encodeLine l = (b, .ok w) ∧ b.encodeLines ls = (a', .ok rest) ∧
        ws = w :: rest := by
  rw [encodeLines]
  rcases a.encodeLine l with ⟨b, p | w⟩
  · simp
  · rcases hrest : b.encodeLines ls with ⟨c, e | rest⟩
    · simp [hrest]
    · simp [hrest, eq_comm, and_assoc]

/-- After lines that are accepted, the second pass goes on as from their outcome. -/
theorem encodeLines_append {a b : Assembler} {ls : List CodeLine} {us : List Word}
    (h : a.encodeLines ls = (b, .ok us)) (ms : List CodeLine) :
    a.encodeLines (ls ++ ms) = ((b.encodeLines ms).1, (b.encodeLines ms).2.map (us ++ ·)) := by
  induction ls generalizing a us with
  | nil =>
    obtain ⟨rfl, hus⟩ := Prod.mk.inj h
    obtain rfl := Except.ok.inj hus
    rcases hms : a.encodeLines ms with ⟨c, e | vs⟩ <;> simp [hms, Except.map]
  | cons l ls ih =>
    obtain ⟨a', w, rest, hl, hrest, rfl⟩ := encodeLines_cons_eq_ok_iff.1 h
    rw [List.cons_append, encodeLines, hl]
    simp only [ih hrest]
    rcases b.encodeLines ms with ⟨c, e | vs⟩ <;> rfl

theorem lookup_allocate_symbol (a : Assembler) {l : AsmLine} {name : Text}
    (h : l.symbol? = some name) : ∃ n, (a.allocate l.symbol?.toList).lookup name = some n := by
  rw [h]
  exact ⟨_, lookup_resolve_self a name⟩

/-- **The second pass** accepts lines of code whose operands and computations have a meaning. It
resolves their symbols in order, and the words are those under the symbols known in the end. -/
theorem encodeLines_eq_ok_iff {raws : List Text} {ls : List AsmLine}
    (h : List.Forall₂ AsmLine.Reads raws ls) {a a' : Assembler} {number : Nat} {ws : List Word} :
    a.encodeLines (codeLines number ls) = (a', .ok ws) ↔
      (∀ l ∈ ls, l.Encodable) ∧ a' = a.allocate (loadedSymbols ls) ∧ ws = a'.image number ls := by
  induction h generalizing a number ws with
  | nil => simp [codeLines, encodeLines, loadedSymbols, allocate, image, eq_comm]
  | @cons raw l raws ls hl _ ih =>
    rw [List.forall_mem_cons, loadedSymbols_cons, allocate_append, image]
    rcases l.words_eq_zero_or_one with hwords | hwords
    · rw [codeLines, if_pos hwords, ih, AsmLine.symbol?_eq_none hwords,
        AsmLine.word?_eq_none hwords]
      simp [AsmLine.encodable_of_words_eq_zero hwords, allocate]
    · rw [codeLines_cons_of_words hwords, encodeLines_cons_eq_ok_iff]
      simp only [encodeLine_eq_ok_iff hl hwords, ih]
      constructor
      · rintro ⟨b, w, rest, ⟨hl', rfl, hw⟩, ⟨hls, rfl, rfl⟩, rfl⟩
        refine ⟨⟨hl', hls⟩, rfl, ?_⟩
        rw [AsmLine.word?_mono (fun _ _ => lookup_allocate_of_some _) hw]
        rfl
      · rintro ⟨⟨hl', hls⟩, rfl, rfl⟩
        obtain ⟨w, hw⟩ := hl'.exists_word? hwords (fun _ => lookup_allocate_symbol a) number
        refine ⟨_, w, _, ⟨hl', rfl, hw⟩, ⟨hls, rfl, rfl⟩, ?_⟩
        rw [AsmLine.word?_mono (fun _ _ => lookup_allocate_of_some _) hw]
        rfl

theorem encodeLine_invalidConstant {operand : Text} (hdigit : startsWithDigit operand = true)
    (hvalue : operand.value? = none) (a : Assembler) (number : Nat) :
    a.encodeLine ⟨number, 64 :: operand⟩ = (a, .error (.invalidConstant operand)) := by
  have hne : operand ≠ [] := by
    rintro rfl
    cases hdigit
  simp [encodeLine, encodeAddress, hne, hdigit, hvalue]

/-- The second pass stops at an operand that begins like a number and is none. -/
theorem encodeLines_invalidConstant {raws : List Text} {before : List AsmLine}
    (h : List.Forall₂ AsmLine.Reads raws before) (hbefore : ∀ l ∈ before, l.Encodable)
    {operand : Text} (hdigit : startsWithDigit operand = true) (hvalue : operand.value? = none)
    (a : Assembler) (number : Nat) (after : List AsmLine) :
    (a.encodeLines (codeLines number (before ++ .load operand :: after))).2 =
      .error ⟨number + before.length, .invalidConstant operand⟩ := by
  have hok : a.encodeLines (codeLines number before) = (a.allocate (loadedSymbols before),
      .ok ((a.allocate (loadedSymbols before)).image number before)) :=
    (encodeLines_eq_ok_iff h).2 ⟨hbefore, rfl, rfl⟩
  rw [codeLines_append, encodeLines_append hok, codeLines_cons_of_words rfl, encodeLines,
    AsmLine.text_load, encodeLine_invalidConstant hdigit hvalue]
  rfl

/-! ## Both passes -/

/-- The assembler after both passes over the lines. -/
def afterLines (a : Assembler) (ls : List AsmLine) : Assembler :=
  (a.bindAll 0 ls).allocate (loadedSymbols ls)

/-- The raw lines of a text. -/
def rawLines (t : Text) : List Text := (Text.joinLineEnds t).splitOn Text.lineFeed

/-- **A text is accepted** exactly if its labels are new and different from each other and its lines
of code have a meaning. Its words are those under the symbols that are known in the end. -/
theorem assemble_eq_ok_iff {t : Text} {ls : List AsmLine}
    (h : List.Forall₂ AsmLine.Reads (rawLines t) ls) {a a' : Assembler} {rom : List Word} :
    a.assemble t = (a', .ok rom) ↔
      (declaredLabels ls).Nodup ∧ (∀ name ∈ declaredLabels ls, a.lookup name = none) ∧
        (∀ l ∈ ls, l.Encodable) ∧ a' = a.afterLines ls ∧ rom = a'.image 1 ls := by
  rw [assemble, ← rawLines]
  constructor
  · intro hok
    rcases hbind : a.bindLabels 1 0 (rawLines t) with ⟨b, e | lines⟩
    · simp [hbind] at hok
    · rw [hbind] at hok
      obtain ⟨hnodup, hnew, rfl, rfl⟩ := (bindLabels_eq_ok_iff h).1 hbind
      obtain ⟨hls, rfl, rfl⟩ := (encodeLines_eq_ok_iff h).1 hok
      exact ⟨hnodup, hnew, hls, rfl, rfl⟩
  · rintro ⟨hnodup, hnew, hls, rfl, rfl⟩
    rw [(bindLabels_eq_ok_iff h).2 ⟨hnodup, hnew, rfl, rfl⟩]
    exact (encodeLines_eq_ok_iff h).2 ⟨hls, rfl, rfl⟩

/-- An accepted text has only lines that are taken for something. -/
theorem exists_reads_of_assemble_ok {t : Text} {a a' : Assembler} {rom : List Word}
    (h : a.assemble t = (a', .ok rom)) : ∃ ls, List.Forall₂ AsmLine.Reads (rawLines t) ls := by
  rw [assemble, ← rawLines] at h
  rcases hbind : a.bindLabels 1 0 (rawLines t) with ⟨b, e | lines⟩
  · simp [hbind] at h
  · exact exists_reads_of_bindLabels_ok hbind

/-- A text whose labels are in order is refused at the first operand that begins like a number and
is none, if the lines before it have a meaning. -/
theorem assemble_invalidConstant {t : Text} {before after : List AsmLine} {operand : Text}
    (h : List.Forall₂ AsmLine.Reads (rawLines t) (before ++ .load operand :: after))
    (hnodup : (declaredLabels (before ++ .load operand :: after)).Nodup) {a : Assembler}
    (hnew : ∀ name ∈ declaredLabels (before ++ .load operand :: after), a.lookup name = none)
    (hbefore : ∀ l ∈ before, l.Encodable) (hdigit : startsWithDigit operand = true)
    (hvalue : operand.value? = none) :
    (a.assemble t).2 = .error ⟨before.length + 1, .invalidConstant operand⟩ := by
  rw [assemble, ← rawLines, (bindLabels_eq_ok_iff h).2 ⟨hnodup, hnew, rfl, rfl⟩, Nat.add_comm]
  have hreads := List.forall₂_take_append _ _ _ h
  exact encodeLines_invalidConstant hreads hbefore hdigit hvalue _ 1 after

/-- A binding from before stays, unless the lines declare a label of that name. -/
theorem lookup_afterLines_of_some {a : Assembler} {ls : List AsmLine} {name : Text} {address : Nat}
    (hnew : ∀ label ∈ declaredLabels ls, a.lookup label = none)
    (h : a.lookup name = some address) : (a.afterLines ls).lookup name = some address := by
  refine lookup_allocate_of_some _ ?_
  rw [lookup_bindAll_of_not_mem a 0 fun hmem => by simp [hnew name hmem] at h, h]

/-- Every symbol that the lines load is bound after them. -/
theorem exists_lookup_afterLines (a : Assembler) {ls : List AsmLine} {name : Text}
    (h : name ∈ loadedSymbols ls) : ∃ n, (a.afterLines ls).lookup name = some n := by
  rw [afterLines, lookup_allocate]
  cases hname : (a.bindAll 0 ls).lookup name with
  | some n => exact ⟨n, rfl⟩
  | none =>
    have hmem : name ∈ (a.bindAll 0 ls).unbound (loadedSymbols ls) :=
      List.mem_eraseDups.2 (List.mem_filter.2 ⟨h, by simp [hname]⟩)
    exact ⟨_, if_pos hmem⟩

end Assembler

end HackVM
