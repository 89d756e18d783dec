import HackVM.Proofs.TwoPasses

/-!
# What symbols stand for

The assembler finds out in two passes over a text what its symbols stand for. The outcome can be
read off the lines without any passes (`symbolAddress`): a predefined symbol has its own address, a
label stands for the number of lines of code before it, whether it is used before or after that
place, and every other symbol has the cell that follows those of the symbols that were used before.
`lookup_afterLines` says that both agree, and `assemble_resolves_symbols` what that means for the
words.
-/

namespace HackVM

/-- In a list without its repetitions, an element stands behind all different elements that come
before its first occurrence. -/
theorem idxOf_eraseDups {α : Type} [BEq α] [LawfulBEq α] [DecidableEq α] {l : List α} {x : α}
    (hx : x ∈ l) :
    l.eraseDups.idxOf x = (l.takeWhile fun y => y ≠ x).toFinset.card := by
  induction hlength : l.length using Nat.strongRecOn generalizing l with
  | ind length ih =>
    cases l with
    | nil => cases hx
    | cons y l =>
      rw [List.eraseDups_cons]
      by_cases hy : y = x
      · simp [hy]
      · have hmem : x ∈ l.filter fun z => !z == y := by
          have hxl := (List.mem_cons.1 hx).resolve_left (Ne.symm hy)
          exact List.mem_filter.2 ⟨hxl, by simpa using Ne.symm hy⟩
        have hle := List.length_filter_le (fun z => !z == y) l
        have hrest := ih _ (by simp only [List.length_cons] at hlength; omega) hmem rfl
        -- what is left out of the rest is `y`, which stands in front of it
        have hset : ((l.filter fun z => !z == y).takeWhile fun z => z ≠ x).toFinset =
            (l.takeWhile fun z => z ≠ x).toFinset.erase y := by
          have hstop : (fun z => !(!z == y) || decide (z ≠ x)) = fun z => decide (z ≠ x) := by
            funext z
            by_cases hz : z = y
            · simp [hz, hy]
            · simp [hz]
          rw [List.takeWhile_filter, hstop, List.toFinset_filter, ← Finset.filter_ne']
          simp
        have hinsert (s : Finset α) : (insert y s).card = (s.erase y).card + 1 := by
          rw [← Finset.card_insert_of_notMem (Finset.notMem_erase y s)]
          congr 1
          ext z
          by_cases hz : z = y <;> simp [hz]
        rw [List.idxOf_cons, beq_false_of_ne hy, cond_false, hrest, hset,
          List.takeWhile_cons_of_pos (by simpa using hy), List.toFinset_cons, hinsert]

/-! ## Addresses read off the lines -/

/-- The symbols that lines leave to the second pass: what they load and neither is predefined nor a
label among them, in the order of the lines. -/
def variableUses (ls : List AsmLine) : List Text :=
  (loadedSymbols ls).filter fun name =>
    (predefinedSymbols.lookup name).isNone && !(declaredLabels ls).contains name

/-- The address that a symbol of the lines stands for. -/
def symbolAddress (ls : List AsmLine) (name : Text) : Nat :=
  match predefinedSymbols.lookup name with
  | some address => address
  | none =>
    if name ∈ declaredLabels ls then wordCount (ls.takeWhile fun l => l ≠ .label name)
    else firstVariable + ((variableUses ls).takeWhile fun other => other ≠ name).toFinset.card

theorem mem_declaredLabels {ls : List AsmLine} {name : Text} :
    name ∈ declaredLabels ls ↔ .label name ∈ ls := by
  constructor
  · intro h
    obtain ⟨l, hl, hname⟩ := List.mem_filterMap.1 h
    cases l with
    | label other =>
      obtain rfl := Option.some.inj hname
      exact hl
    | comment t => cases hname
    | load operand => cases hname
    | compute code => cases hname
  · exact fun h => List.mem_filterMap.2 ⟨_, h, rfl⟩

section Fresh

variable {ls : List AsmLine} (hnodup : (declaredLabels ls).Nodup)
  (hnew : ∀ name ∈ declaredLabels ls, ({} : Assembler).lookup name = none)

include hnodup in
/-- A label stands for the number of words before its only declaration. -/
theorem takeWhile_label {before after : List AsmLine} {name : Text}
    (h : ls = before ++ .label name :: after) :
    (ls.takeWhile fun l => l ≠ .label name) = before := by
  have hnot : name ∉ declaredLabels before := by
    intro hmem
    rw [h, declaredLabels_append] at hnodup
    exact (List.nodup_append.1 hnodup).2.2 name hmem name (by simp [declaredLabels_cons,
      AsmLine.label?]) rfl
  rw [h, List.takeWhile_append_of_pos, List.takeWhile_cons_of_neg (by simp), List.append_nil]
  intro l hl
  simp only [ne_eq, decide_not, Bool.not_eq_true', decide_eq_false_iff_not]
  rintro rfl
  exact hnot (mem_declaredLabels.2 hl)

/-- After the first pass the predefined symbols and the labels are bound, and no others. -/
theorem isNone_lookup_bindAll (ls : List AsmLine) (name : Text) :
    ((({} : Assembler).bindAll 0 ls).lookup name).isNone =
      ((predefinedSymbols.lookup name).isNone && !(declaredLabels ls).contains name) := by
  by_cases hname : name ∈ declaredLabels ls
  · have hbound := Assembler.isSome_lookup_bindAll hname {} 0
    simp [hbound, hname]
  · rw [Assembler.lookup_bindAll_of_not_mem _ _ hname, Assembler.lookup]
    simp [hname]

theorem unbound_eq_variableUses (ls : List AsmLine) :
    (({} : Assembler).bindAll 0 ls).unbound (loadedSymbols ls) = (variableUses ls).eraseDups := by
  rw [Assembler.unbound, variableUses]
  simp only [isNone_lookup_bindAll]

include hnodup hnew in
/-- **Both passes find what can be read off the lines.** -/
theorem lookup_afterLines {name : Text}
    (hname : name ∈ declaredLabels ls ∨ name ∈ loadedSymbols ls) :
    (({} : Assembler).afterLines ls).lookup name = some (symbolAddress ls name) := by
  unfold symbolAddress
  cases hpredefined : predefinedSymbols.lookup name with
  | some address => exact Assembler.lookup_afterLines_of_some hnew hpredefined
  | none =>
    simp only
    split
    · next hlabel =>
      obtain ⟨before, after, hls⟩ := List.append_of_mem (mem_declaredLabels.1 hlabel)
      rw [takeWhile_label hnodup hls]
      apply Assembler.lookup_allocate_of_some
      rw [hls] at hnodup ⊢
      rw [Assembler.lookup_bindAll_label hnodup, Nat.zero_add]
    · next hlabel =>
      have huse : name ∈ variableUses ls :=
        List.mem_filter.2 ⟨hname.resolve_left hlabel, by simp [hpredefined, hlabel]⟩
      have hnone : (({} : Assembler).bindAll 0 ls).lookup name = none := by
        rw [Assembler.lookup_bindAll_of_not_mem _ _ hlabel]
        exact hpredefined
      rw [Assembler.afterLines, Assembler.lookup_allocate, hnone, unbound_eq_variableUses]
      simp only [List.mem_eraseDups, huse, if_true, Assembler.nextVariable_bindAll,
        idxOf_eraseDups huse]

end Fresh

/-! ## Words -/

/-- The number of the line that a word comes from. -/
def Word.line : Word → Int
  | address _ line => line
  | compute _ _ _ line => line

theorem AsmLine.line_of_word? {a : Assembler} {l : AsmLine} {number : Nat} {w : Word}
    (h : l.word? a number = some w) : w.line = number := by
  cases l with
  | comment t => cases h
  | label name => cases h
  | load operand =>
    obtain ⟨v, -, rfl⟩ := Option.map_eq_some_iff.1 h
    rfl
  | compute code =>
    obtain ⟨dest, comp, jump, rfl, -⟩ := encodeCompute_eq_ok (word?_compute.1 h)
    rfl

/-- The word of a line of code stands behind the words of the lines before it. -/
theorem Assembler.exists_word?_image {a : Assembler} {before after : List AsmLine} {l : AsmLine}
    (hls : ∀ m ∈ before ++ l :: after, m.Encodable)
    (hbound : ∀ name ∈ loadedSymbols (before ++ l :: after), ∃ n, a.lookup name = some n)
    (hwords : l.words = 1) :
    ∃ w, l.word? a (before.length + 1) = some w ∧
      (a.image 1 (before ++ l :: after))[wordCount before]? = some w := by
  rw [List.forall_mem_append, List.forall_mem_cons] at hls
  rw [loadedSymbols_append, loadedSymbols_cons, List.forall_mem_append,
    List.forall_mem_append] at hbound
  obtain ⟨w, hw⟩ := hls.2.1.exists_word? hwords (fun name hname =>
    hbound.2.1 name (Option.mem_toList.2 hname)) (before.length + 1)
  refine ⟨w, hw, ?_⟩
  rw [image_append, image, Nat.add_comm 1, hw, ← length_image hls.1 hbound.1 1]
  simp

/-- **Every symbol of an accepted text stands for what its lines say.** Each line of code becomes
one word, in the order of the lines and with the number of its line. A label is bound to the number
of words before it. A number is loaded as it is written, and a symbol as its address in 16 bits. -/
theorem assemble_resolves_symbols {t : Text} {a : Assembler} {rom : List Word}
    (h : ({} : Assembler).assemble t = (a, .ok rom)) :
    ∃ ls : List AsmLine, List.Forall₂ AsmLine.Reads (Assembler.rawLines t) ls ∧
      rom.length = wordCount ls ∧
      (∀ before l after, ls = before ++ l :: after → l.words = 1 →
        ∃ w, rom[wordCount before]? = some w ∧ w.line = before.length + 1) ∧
      (∀ before name after, ls = before ++ .label name :: after →
        a.lookup name = some (wordCount before)) ∧
      (∀ before operand after, ls = before ++ .load operand :: after →
        ∃ n, rom[wordCount before]? = some (.address (Int16.ofNat n) (before.length + 1)) ∧
          if startsWithDigit operand then operand.value? = some n ∧ n ≤ largestConstant
          else n = symbolAddress ls operand ∧ a.lookup operand = some n) ∧
      (∀ before code after, ls = before ++ .compute code :: after →
        ∃ w, encodeCompute (before.length + 1) code = .ok w ∧ rom[wordCount before]? = some w) := by
  obtain ⟨ls, hreads⟩ := Assembler.exists_reads_of_assemble_ok h
  obtain ⟨hnodup, hnew, hls, rfl, rfl⟩ := (Assembler.assemble_eq_ok_iff hreads).1 h
  have hbound : ∀ name ∈ loadedSymbols ls,
      ∃ n, (({} : Assembler).afterLines ls).lookup name = some n :=
    fun name => Assembler.exists_lookup_afterLines {}
  refine ⟨ls, hreads, Assembler.length_image hls hbound 1, ?_, ?_, ?_, ?_⟩
  · rintro before l after rfl hwords
    obtain ⟨w, hw, hrom⟩ := Assembler.exists_word?_image hls hbound hwords
    exact ⟨w, hrom, by rw [AsmLine.line_of_word? hw]; rfl⟩
  · rintro before name after rfl
    apply Assembler.lookup_allocate_of_some
    rw [Assembler.lookup_bindAll_label hnodup, Nat.zero_add]
  · rintro before operand after rfl
    obtain ⟨w, hw, hrom⟩ := Assembler.exists_word?_image hls hbound rfl
    obtain ⟨v, hv, rfl⟩ := Option.map_eq_some_iff.1 hw
    obtain ⟨n, hn, rfl⟩ := Option.map_eq_some_iff.1 hv
    refine ⟨n, hrom, ?_⟩
    cases hdigit : startsWithDigit operand with
    | true =>
      have hencodable : (AsmLine.load operand).Encodable := hls _ (by simp)
      obtain ⟨m, hm, hvalue⟩ := hencodable.2 hdigit
      simp only [hdigit, if_true] at hn
      obtain rfl : m = n := Option.some.inj (hvalue.symm.trans hn)
      exact ⟨hn, hm⟩
    | false =>
      simp only [hdigit, Bool.false_eq_true, if_false] at hn
      have hload : operand ∈ loadedSymbols (before ++ .load operand :: after) := by
        simp [loadedSymbols_cons, AsmLine.symbol?, hdigit]
      have haddress := lookup_afterLines hnodup hnew (Or.inr hload)
      exact ⟨Option.some.inj (hn.symm.trans haddress), hn⟩
  · rintro before code after rfl
    obtain ⟨w, hw, hrom⟩ := Assembler.exists_word?_image hls hbound rfl
    exact ⟨w, AsmLine.word?_compute.1 hw, hrom⟩

/-- A label that is used before its place, two variables, a predefined symbol and a number. -/
theorem assemble_resolves_symbols_forward :
    let t := utf8 "@END // ahead\r\n0;JMP\n@x\n ( END )\n\n@THAT\n@y\n@x\n@007"
    ∃ a, ({} : Assembler).assemble t =
        (a, .ok [.address 3 1, .compute [] (utf8 "0") (utf8 "JMP") 2, .address 16 3,
          .address 4 6, .address 17 7, .address 16 8, .address 7 9]) ∧
      a.lookup (utf8 "END") = some 3 ∧
      ∃ ls, List.Forall₂ AsmLine.Reads (Assembler.rawLines t) ls ∧ wordCount ls = 7 ∧
        ∀ before operand after, ls = before ++ .load operand :: after →
          startsWithDigit operand = false → a.lookup operand = some (symbolAddress ls operand) := by
  intro t
  refine ⟨_, rfl, rfl, ?_⟩
  obtain ⟨ls, hreads, hlength, -, -, hload, -⟩ := assemble_resolves_symbols (t := t) rfl
  refine ⟨ls, hreads, hlength.symm, fun before operand after hsplit hdigit => ?_⟩
  obtain ⟨n, -, hn⟩ := hload before operand after hsplit
  rw [hdigit] at hn
  obtain ⟨rfl, hlookup⟩ := hn
  exact hlookup

end HackVM
