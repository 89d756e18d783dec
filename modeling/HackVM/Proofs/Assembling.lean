import HackVM.Proofs.PlainText
import HackVM.Proofs.TwoPasses

/-!
# Assembling a list of lines

The assembler is given text; here it is given lines of assembly that are rendered to text first.
Lines that it reads as they are meant (`AsmLine.Readable`), with labels that are new and all
different, assemble (`assemble_render`), one word for each line of code. The words are `Placed`:
each line of code has become its word under the symbols that are known in the end, and each label
stands for the number of the word that follows it.
-/

namespace HackVM

/-! ## Readable lines -/

namespace AsmLine

/-- Without comment and white space, the line is one of its kind: a number or a symbol to load, a
computation that has a meaning, or a label. -/
def HasForm : AsmLine → Prop
  | comment _ => True
  | load operand =>
    codeText (load operand).text = (load operand).text ∧ operand ≠ [] ∧
      (startsWithDigit operand = true → ∃ n ≤ largestConstant, operand.value? = some n)
  | compute code =>
    codeText code = code ∧ code ≠ [] ∧ code.head? ≠ some 40 ∧ code.head? ≠ some 64 ∧
      ∃ dest comp jump, ∀ number, encodeCompute number code = .ok (.compute dest comp jump number)
  | label name => codeText (label name).text = (label name).text ∧ name ≠ []

/-- The assembler takes the line for what it is. -/
structure Readable (l : AsmLine) : Prop where
  lineFeed_not_mem : Text.lineFeed ∉ l.text
  carriageReturn_not_mem : Text.carriageReturn ∉ l.text
  hasForm : l.HasForm

theorem Readable.of_plain {l : AsmLine} (h : l.text.Plain) (hform : l.HasForm) : l.Readable where
  lineFeed_not_mem := h.not_mem (by decide)
  carriageReturn_not_mem := h.not_mem (by decide)
  hasForm := hform

theorem Readable.reads {l : AsmLine} (h : l.Readable) : l.Reads l.text := by
  obtain ⟨-, -, hform⟩ := h
  cases l with
  | comment t => exact codeText_comment t
  | load operand => exact hform.1
  | compute code => exact ⟨hform.1, hform.2.1, hform.2.2.1, hform.2.2.2.1⟩
  | label name => exact hform

theorem Readable.encodable {l : AsmLine} (h : l.Readable) : l.Encodable := by
  obtain ⟨-, -, hform⟩ := h
  cases l with
  | comment t => trivial
  | load operand => exact hform.2
  | compute code => exact hform.2.2.2.2
  | label name => trivial

theorem carriageReturn_not_mem_render {ls : List AsmLine} (h : ∀ l ∈ ls, l.Readable) :
    Text.carriageReturn ∉ render ls := by
  intro hmem
  obtain ⟨l, hl, hmem⟩ := List.mem_flatMap.1 hmem
  rcases List.mem_append.1 hmem with hmem | hmem
  · exact (h l hl).carriageReturn_not_mem hmem
  · revert hmem; decide

/-- Rendered lines fall apart into the lines again, with an empty one after the last line feed. -/
theorem splitOn_render_of_ends {ls : List AsmLine}
    (h : ∀ l ∈ ls, Text.lineFeed ∉ l.text ∧ l.text.getLast? ≠ some Text.carriageReturn) :
    (Text.joinLineEnds (render ls)).splitOn Text.lineFeed = ls.map text ++ [[]] := by
  induction ls with
  | nil => rfl
  | cons l ls ih =>
    obtain ⟨hfeed, hlast⟩ := h l (by simp)
    rw [render, List.flatMap_cons, List.append_assoc, List.singleton_append,
      Text.joinLineEnds_append_lineFeed hfeed hlast,
      List.splitOn_append_cons_self_of_not_mem hfeed, List.map_cons, List.cons_append]
    exact congrArg (l.text :: ·) (ih fun m hm => h m (by simp [hm]))

theorem Readable.ends {l : AsmLine} (h : l.Readable) :
    Text.lineFeed ∉ l.text ∧ l.text.getLast? ≠ some Text.carriageReturn :=
  ⟨h.lineFeed_not_mem, fun hlast => h.carriageReturn_not_mem (List.mem_of_getLast? hlast)⟩

theorem splitOn_render {ls : List AsmLine} (h : ∀ l ∈ ls, l.Readable) :
    (Text.joinLineEnds (render ls)).splitOn Text.lineFeed = ls.map text ++ [[]] :=
  splitOn_render_of_ends fun l hl => (h l hl).ends

end AsmLine

/-! ## Where labels stand -/

namespace Assembler

/-- Every label of the lines is bound to the number of words before it, `address` words standing
before the first line. -/
def LabelsAt (a : Assembler) : Nat → List AsmLine → Prop
  | _, [] => True
  | address, l :: ls =>
    (∀ name, l.label? = some name → a.lookup name = some address) ∧
      a.LabelsAt (address + l.words) ls

theorem LabelsAt.mono {a b : Assembler}
    (h : ∀ name address, a.lookup name = some address → b.lookup name = some address)
    {address : Nat} {ls : List AsmLine} (hls : a.LabelsAt address ls) : b.LabelsAt address ls := by
  induction ls generalizing address with
  | nil => trivial
  | cons l ls ih => exact ⟨fun name hname => h name address (hls.1 name hname), ih hls.2⟩

theorem labelsAt_bindAll (a : Assembler) (address : Nat) {ls : List AsmLine}
    (hnodup : (declaredLabels ls).Nodup) : (a.bindAll address ls).LabelsAt address ls := by
  induction ls generalizing a address with
  | nil => trivial
  | cons l ls ih =>
    rw [declaredLabels_cons] at hnodup
    refine ⟨fun name hname => ?_, ih _ _ (List.nodup_append.1 hnodup).2.1⟩
    have hnot : name ∉ declaredLabels ls := by
      rw [hname] at hnodup
      exact (List.nodup_cons.1 hnodup).1
    rw [bindAll, lookup_bindAll_of_not_mem _ _ hnot, hname]
    exact lookup_bind_self a name address

end Assembler

/-! ## Where lines stand -/

/-- The word is what a line of code becomes under the symbols of an assembler. -/
def AsmLine.Encodes (a : Assembler) : AsmLine → Word → Prop
  | load operand, w => ∃ v line, a.operandValue? operand = some v ∧ w = .address v line
  | compute code, w => ∃ number, encodeCompute number code = .ok w
  | _, _ => False

theorem AsmLine.encodes_of_word? {a : Assembler} {l : AsmLine} {number : Nat} {w : Word}
    (h : l.word? a number = some w) : l.Encodes a w := by
  cases l with
  | comment t => cases h
  | label name => cases h
  | load operand =>
    obtain ⟨v, hv, rfl⟩ := Option.map_eq_some_iff.1 h
    exact ⟨v, number, hv, rfl⟩
  | compute code => exact ⟨number, word?_compute.1 h⟩

/-- The line stands in a program at the word numbered `pc`: a line of code has become that word,
and a label is bound to its number. -/
structure AsmLine.PlacedAt (a : Assembler) (rom : Array Word) (pc : Nat) (l : AsmLine) : Prop where
  word : l.words = 1 → ∃ w, rom[pc]? = some w ∧ l.Encodes a w
  label : ∀ name, l.label? = some name → a.lookup name = some pc

/-- The lines stand in a program one after the other, from the word numbered `pc` on. -/
def Placed (a : Assembler) (rom : Array Word) : Nat → List AsmLine → Prop
  | _, [] => True
  | pc, l :: ls => l.PlacedAt a rom pc ∧ Placed a rom (pc + l.words) ls

theorem placed_append {a : Assembler} {rom : Array Word} {pc : Nat} {ls ms : List AsmLine} :
    Placed a rom pc (ls ++ ms) ↔ Placed a rom pc ls ∧ Placed a rom (pc + wordCount ls) ms := by
  induction ls generalizing pc with
  | nil => simp [Placed]
  | cons l ls ih => simp [Placed, ih, and_assoc, Nat.add_assoc]

namespace Assembler

/-- The image of lines stands behind other words as the lines do behind each other. -/
theorem placed_image {a : Assembler} {ls : List AsmLine} (hls : ∀ l ∈ ls, l.Encodable)
    (hbound : ∀ name ∈ loadedSymbols ls, ∃ n, a.lookup name = some n) (number : Nat)
    (before : List Word) (hlabels : a.LabelsAt before.length ls) :
    Placed a (before ++ a.image number ls).toArray before.length ls := by
  induction ls generalizing number before with
  | nil => trivial
  | cons l ls ih =>
    rw [loadedSymbols_cons, List.forall_mem_append] at hbound
    rw [List.forall_mem_cons] at hls
    rw [image]
    rcases l.words_eq_zero_or_one with hwords | hwords
    · have hrest := ih hls.2 hbound.2 (number + 1) before (by simpa [hwords] using hlabels.2)
      rw [AsmLine.word?_eq_none hwords]
      exact ⟨⟨by simp [hwords], hlabels.1⟩, by simpa [hwords] using hrest⟩
    · obtain ⟨w, hw⟩ := hls.1.exists_word? hwords (fun name hname =>
        hbound.1 name (Option.mem_toList.2 hname)) number
      have hrest := ih hls.2 hbound.2 (number + 1) (before ++ [w])
        (by simpa [hwords] using hlabels.2)
      rw [hw]
      exact ⟨⟨fun _ => ⟨w, by simp, AsmLine.encodes_of_word? hw⟩, hlabels.1⟩,
        by simpa [hwords] using hrest⟩

/-! ## Rendered lines -/

theorem reads_render_of_ends {ls ms : List AsmLine}
    (hends : ∀ l ∈ ls, Text.lineFeed ∉ l.text ∧ l.text.getLast? ≠ some Text.carriageReturn)
    (h : List.Forall₂ (fun l m => m.Reads l.text) ls ms) :
    List.Forall₂ AsmLine.Reads (rawLines (AsmLine.render ls)) (ms ++ [.comment []]) := by
  rw [rawLines, AsmLine.splitOn_render_of_ends hends]
  exact List.rel_append (List.forall₂_map_left_iff.2 h) (.cons rfl .nil)

theorem reads_render {ls : List AsmLine} (h : ∀ l ∈ ls, l.Readable) :
    List.Forall₂ AsmLine.Reads (rawLines (AsmLine.render ls)) (ls ++ [.comment []]) :=
  reads_render_of_ends (fun l hl => (h l hl).ends)
    (List.forall₂_same.2 fun l hl => (h l hl).reads)

theorem assemble_render_eq_ok_iff {ls : List AsmLine} (hread : ∀ l ∈ ls, l.Readable)
    {a a' : Assembler} {rom : List Word} :
    a.assemble (AsmLine.render ls) = (a', .ok rom) ↔
      (declaredLabels ls).Nodup ∧ (∀ name ∈ declaredLabels ls, a.lookup name = none) ∧
        a' = a.afterLines ls ∧ rom = a'.image 1 ls := by
  -- the empty line at the end of a text changes nothing
  have hlabels : declaredLabels (ls ++ [.comment []]) = declaredLabels ls := by
    rw [declaredLabels_append]
    exact List.append_nil _
  have hafter : a.afterLines (ls ++ [.comment []]) = a.afterLines ls := by
    rw [afterLines, bindAll_append, loadedSymbols_append]
    exact congrArg (a.bindAll 0 ls).allocate (List.append_nil _)
  have himage (b : Assembler) : b.image 1 (ls ++ [.comment []]) = b.image 1 ls := by
    rw [image_append]
    exact List.append_nil _
  have hencodable : ∀ l ∈ ls ++ [.comment []], l.Encodable := by
    rw [List.forall_mem_append]
    exact ⟨fun l hl => (hread l hl).encodable, by simp [AsmLine.Encodable]⟩
  rw [assemble_eq_ok_iff (reads_render hread), hlabels, hafter, himage]
  exact and_congr_right fun _ => and_congr_right fun _ =>
    ⟨fun h => h.2, fun h => ⟨hencodable, h⟩⟩

/-- **Readable lines with new and different labels assemble**, each line of code to one word. -/
theorem assemble_render {ls : List AsmLine} (hread : ∀ l ∈ ls, l.Readable)
    (hnodup : (declaredLabels ls).Nodup) (a : Assembler)
    (hnew : ∀ name ∈ declaredLabels ls, a.lookup name = none) :
    ∃ rom, a.assemble (AsmLine.render ls) = (a.afterLines ls, .ok rom) ∧
      rom.length = wordCount ls ∧ Placed (a.afterLines ls) rom.toArray 0 ls := by
  have hls : ∀ l ∈ ls, l.Encodable := fun l hl => (hread l hl).encodable
  have hbound : ∀ name ∈ loadedSymbols ls, ∃ n, (a.afterLines ls).lookup name = some n :=
    fun name => exists_lookup_afterLines a
  refine ⟨(a.afterLines ls).image 1 ls,
    (assemble_render_eq_ok_iff hread).2 ⟨hnodup, hnew, rfl, rfl⟩, length_image hls hbound 1, ?_⟩
  refine placed_image hls hbound 1 [] ((labelsAt_bindAll a 0 hnodup).mono fun name address h => ?_)
  exact lookup_allocate_of_some _ h

/-- Readable lines assemble only if their labels are new and different. -/
theorem nodup_of_assemble_ok {ls : List AsmLine} (hread : ∀ l ∈ ls, l.Readable) {a : Assembler}
    {rom : List Word} (h : (a.assemble (AsmLine.render ls)).2 = .ok rom) :
    (declaredLabels ls).Nodup ∧ ∀ name ∈ declaredLabels ls, a.lookup name = none := by
  obtain ⟨hnodup, hnew, -⟩ := (assemble_render_eq_ok_iff hread).1 (Prod.ext rfl h)
  exact ⟨hnodup, hnew⟩

end Assembler

end HackVM
