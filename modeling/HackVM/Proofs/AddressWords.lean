import HackVM.Computer.Machine
import HackVM.Proofs.Layout
import HackVM.Proofs.Resolution

/-!
# Addresses in 16 bits

A word that loads an address has 16 bits for it. A number that does not fit is refused, but the
address of a symbol grows with the text: it is narrowed, and a jump to the label goes elsewhere.
`address_words_of_assemble` says what every address word of an accepted text holds. A text of at
most 65520 words has no symbol whose address does not fit (`symbolAddress_lt`).
-/

namespace HackVM

theorem toNat_toUInt16_ofNat_eq_mod (n : Nat) : (Int16.ofNat n).toUInt16.toNat = n % 65536 := by
  rw [Int16.toUInt16_ofNat']
  exact UInt16.toNat_ofNat'

/-! ## Where a word comes from -/

theorem AsmLine.eq_load_of_word? {a : Assembler} {l : AsmLine} {number : Nat} {v : Int16}
    {line : Int} (h : l.word? a number = some (.address v line)) :
    ∃ operand, l = .load operand ∧ a.operandValue? operand = some v ∧ line = number := by
  cases l with
  | comment t => cases h
  | label name => cases h
  | load operand =>
    obtain ⟨u, hu, hword⟩ := Option.map_eq_some_iff.1 h
    obtain ⟨rfl, rfl⟩ := Word.address.inj hword
    exact ⟨operand, rfl, hu, rfl⟩
  | compute code =>
    obtain ⟨dest, comp, jump, hword, -⟩ := encodeCompute_eq_ok (word?_compute.1 h)
    cases hword

/-- Every word is that of a line, behind the words of the lines before it. -/
theorem Assembler.exists_line_of_image {a : Assembler} {number k : Nat} {ls : List AsmLine}
    {w : Word} (h : (a.image number ls)[k]? = some w) :
    ∃ before l after, ls = before ++ l :: after ∧
      l.word? a (number + before.length) = some w ∧ (a.image number before).length = k := by
  induction ls generalizing number k with
  | nil => simp [image] at h
  | cons l ls ih =>
    -- a word of the other lines stands behind that of the first line, if it has one
    have hrest {j : Nat} (hj : (a.image (number + 1) ls)[j]? = some w) :
        ∃ before m after, l :: ls = before ++ m :: after ∧
          m.word? a (number + before.length) = some w ∧
          (a.image number before).length = (l.word? a number).toList.length + j := by
      obtain ⟨before, m, after, rfl, hm, rfl⟩ := ih hj
      refine ⟨l :: before, m, after, rfl, ?_, List.length_append⟩
      rw [List.length_cons, Nat.add_comm before.length, ← Nat.add_assoc]
      exact hm
    rw [image] at h
    cases hl : l.word? a number with
    | none =>
      rw [hl] at h hrest
      simpa using hrest h
    | some u =>
      rw [hl] at h hrest
      cases k with
      | zero =>
        obtain rfl : u = w := Option.some.inj h
        exact ⟨[], l, ls, rfl, hl, rfl⟩
      | succ k =>
        rw [Nat.add_comm]
        exact hrest h

/-! ## How large addresses are -/

theorem length_loadedSymbols_le (ls : List AsmLine) : (loadedSymbols ls).length ≤ wordCount ls := by
  induction ls with
  | nil => rfl
  | cons l ls ih =>
    rw [loadedSymbols_cons, List.length_append, wordCount_cons]
    refine Nat.add_le_add ?_ ih
    rcases l.words_eq_zero_or_one with hwords | hwords
    · simp [AsmLine.symbol?_eq_none hwords]
    · rw [hwords]
      exact Option.length_toList_le

theorem wordCount_takeWhile_le (p : AsmLine → Bool) (ls : List AsmLine) :
    wordCount (ls.takeWhile p) ≤ wordCount ls := by
  conv_rhs => rw [← List.takeWhile_append_dropWhile (p := p) (l := ls), wordCount_append]
  exact Nat.le_add_right _ _

theorem predefined_lt_memorySize {name : Text} {address : Nat}
    (h : predefinedSymbols.lookup name = some address) : address < memorySize := by
  have hall : predefinedSymbols.all fun entry => entry.2 < memorySize := by decide
  obtain ⟨front, back, hsplit, -⟩ := List.lookup_eq_some_iff.1 h
  simpa using List.all_eq_true.1 hall (name, address) (by simp [hsplit])

/-- In front of a symbol there are fewer different ones than lines of code. -/
theorem card_variables_lt {ls : List AsmLine} {name : Text} (h : name ∈ variableUses ls) :
    ((variableUses ls).takeWhile fun other => other ≠ name).toFinset.card < wordCount ls := by
  have hshort : ((variableUses ls).takeWhile fun other => other ≠ name).length <
      (variableUses ls).length := by
    refine lt_of_le_of_ne (List.takeWhile_prefix _).length_le fun hlength => ?_
    have hall := List.takeWhile_eq_self_iff.1 ((List.takeWhile_prefix _).eq_of_length hlength)
    simpa using hall name h
  calc ((variableUses ls).takeWhile fun other => other ≠ name).toFinset.card
      ≤ ((variableUses ls).takeWhile fun other => other ≠ name).length := List.toFinset_card_le _
    _ < (variableUses ls).length := hshort
    _ ≤ (loadedSymbols ls).length := List.length_filter_le _ _
    _ ≤ wordCount ls := length_loadedSymbols_le ls

/-- A symbol stands for a cell of the computer, for the place of a label, or for one of as many
cells as there are lines of code. -/
theorem symbolAddress_lt {ls : List AsmLine} {name : Text} (h : name ∈ loadedSymbols ls) :
    symbolAddress ls name < max memorySize (firstVariable + wordCount ls) := by
  unfold symbolAddress
  cases hpredefined : predefinedSymbols.lookup name with
  | some address => exact lt_max_of_lt_left (predefined_lt_memorySize hpredefined)
  | none =>
    refine lt_max_of_lt_right ?_
    simp only
    split
    · calc wordCount (ls.takeWhile fun l => l ≠ .label name)
          ≤ wordCount ls := wordCount_takeWhile_le _ ls
        _ < firstVariable + wordCount ls := Nat.lt_add_of_pos_left (by decide)
    · next hlabel =>
      refine Nat.add_lt_add_left (card_variables_lt ?_) _
      exact List.mem_filter.2 ⟨h, by simp [hpredefined, hlabel]⟩

/-! ## Address words -/

/-- What the operand of a line among the lines stands for: the number that is written, or the
address of the symbol. -/
structure StandsFor (a : Assembler) (ls : List AsmLine) (operand : Text) (n : Nat) : Prop where
  constant : startsWithDigit operand = true → operand.value? = some n ∧ n ≤ largestConstant
  symbol : startsWithDigit operand = false →
    a.lookup operand = some n ∧ n = symbolAddress ls operand

section Loaded

variable {ls : List AsmLine} {operand : Text} (hload : AsmLine.load operand ∈ ls)

include hload

theorem mem_loadedSymbols (hdigit : startsWithDigit operand = false) :
    operand ∈ loadedSymbols ls :=
  List.mem_filterMap.2 ⟨_, hload, by simp [AsmLine.symbol?, hdigit]⟩

theorem standsFor_of_operandValue? (hnodup : (declaredLabels ls).Nodup)
    (hnew : ∀ name ∈ declaredLabels ls, ({} : Assembler).lookup name = none)
    (hls : ∀ l ∈ ls, l.Encodable) {v : Int16}
    (h : (({} : Assembler).afterLines ls).operandValue? operand = some v) :
    ∃ n, v = Int16.ofNat n ∧ StandsFor (({} : Assembler).afterLines ls) ls operand n := by
  obtain ⟨n, hn, rfl⟩ := Option.map_eq_some_iff.1 h
  refine ⟨n, rfl, fun hdigit => ?_, fun hdigit => ?_⟩
  · rw [if_pos hdigit] at hn
    obtain ⟨m, hm, hvalue⟩ := (hls _ hload).2 hdigit
    obtain rfl : m = n := Option.some.inj (hvalue.symm.trans hn)
    exact ⟨hn, hm⟩
  · rw [if_neg (by simp [hdigit])] at hn
    have haddress := lookup_afterLines hnodup hnew (Or.inr (mem_loadedSymbols hload hdigit))
    exact ⟨hn, Option.some.inj (hn.symm.trans haddress)⟩

/-- Numbers fit into 16 bits, and in a text of at most 65520 words addresses do. -/
theorem StandsFor.lt {a : Assembler} {n : Nat} (h : StandsFor a ls operand n)
    (hsmall : startsWithDigit operand = true ∨ wordCount ls ≤ 65520) : n < 65536 := by
  cases hdigit : startsWithDigit operand with
  | true => exact (h.constant hdigit).2.trans_lt (by decide)
  | false =>
    have hlength := hsmall.resolve_left (by simp [hdigit])
    rw [(h.symbol hdigit).2]
    refine (symbolAddress_lt (mem_loadedSymbols hload hdigit)).trans_le ?_
    simp only [memorySize, firstVariable]
    omega

end Loaded

/-- **Every address word of an accepted text** comes from a line that loads a number or a symbol. It
holds that number, which is at most 32767, or the address of the symbol modulo 65536. So it is
right if and only if the address fits, and in a text of at most 65520 words every address does. -/
theorem address_words_of_assemble {t : Text} {a : Assembler} {rom : List Word}
    (h : ({} : Assembler).assemble t = (a, .ok rom)) :
    ∃ ls : List AsmLine, List.Forall₂ AsmLine.Reads (Assembler.rawLines t) ls ∧
      ∀ (k : Nat) (v : Int16) (line : Int), rom[k]? = some (.address v line) →
        ∃ before operand after n, ls = before ++ .load operand :: after ∧
          k = wordCount before ∧ line = before.length + 1 ∧ StandsFor a ls operand n ∧
          v.toUInt16.toNat = n % 65536 ∧ (v.toUInt16.toNat = n ↔ n < 65536) ∧
          (startsWithDigit operand = true ∨ rom.length ≤ 65520 → v.toUInt16.toNat = n) := by
  obtain ⟨ls, hreads⟩ := Assembler.exists_reads_of_assemble_ok h
  obtain ⟨hnodup, hnew, hls, rfl, rfl⟩ := (Assembler.assemble_eq_ok_iff hreads).1 h
  have hbound : ∀ name ∈ loadedSymbols ls,
      ∃ n, (({} : Assembler).afterLines ls).lookup name = some n :=
    fun name => Assembler.exists_lookup_afterLines {}
  refine ⟨ls, hreads, fun k v line hword => ?_⟩
  obtain ⟨before, l, after, hsplit, hl, rfl⟩ := Assembler.exists_line_of_image hword
  obtain ⟨operand, rfl, hvalue, rfl⟩ := AsmLine.eq_load_of_word? hl
  have hload : AsmLine.load operand ∈ ls := by simp [hsplit]
  obtain ⟨n, rfl, hn⟩ := standsFor_of_operandValue? hload hnodup hnew hls hvalue
  have hmod := toNat_toUInt16_ofNat_eq_mod n
  refine ⟨before, operand, after, n, hsplit, ?_, by omega, hn, hmod, by omega, fun hsmall => ?_⟩
  · refine Assembler.length_image (fun m hm => hls m ?_) (fun name hname => hbound name ?_) 1
    · simp [hsplit, hm]
    · simp [hsplit, hname]
  · rw [Assembler.length_image hls hbound] at hsmall
    rw [hmod, Nat.mod_eq_of_lt (hn.lt hload hsmall)]

/-- A label ahead, a variable and the largest number: each word holds what its line says. -/
theorem address_words_of_assemble_forward :
    let t := utf8 "@END\n0;JMP\n@x\n(END)\n@32767"
    let rom := [.address 3 1, .compute [] (utf8 "0") (utf8 "JMP") 2, .address 16 3,
      .address 32767 5]
    ∃ a ls, ({} : Assembler).assemble t = (a, .ok rom) ∧
      List.Forall₂ AsmLine.Reads (Assembler.rawLines t) ls ∧
      ∀ (k : Nat) (v : Int16) (line : Int), rom[k]? = some (.address v line) →
        ∃ operand n, .load operand ∈ ls ∧ StandsFor a ls operand n ∧ v.toUInt16.toNat = n := by
  intro t rom
  obtain ⟨a, h⟩ : ∃ a, ({} : Assembler).assemble t = (a, .ok rom) := ⟨_, rfl⟩
  obtain ⟨ls, hreads, hwords⟩ := address_words_of_assemble h
  refine ⟨a, ls, h, hreads, fun k v line hword => ?_⟩
  obtain ⟨before, operand, after, n, rfl, -, -, hn, -, -, hvalue⟩ := hwords k v line hword
  exact ⟨operand, n, by simp, hn, hvalue (Or.inr (by decide))⟩

/-! ## A label that is too far -/

/-- A label behind `n` more lines of code, loaded in the first line. -/
def farLabel (n : Nat) : List AsmLine :=
  .load (utf8 "L") :: (List.replicate n (.compute (utf8 "0")) ++ [.label (utf8 "L")])

theorem readable_farLabel (n : Nat) : ∀ l ∈ farLabel n, l.Readable := by
  have hzero : Decodes (utf8 "0") [] ⟨.zero, false⟩ [] :=
    ⟨by decide, by decide, by decide, by decide, utf8 "0", rfl, fun _ => rfl⟩
  intro l hl
  simp only [farLabel, List.mem_cons, List.mem_append, List.mem_replicate, List.not_mem_nil,
    or_false] at hl
  rcases hl with rfl | ⟨-, rfl⟩ | rfl
  · exact readable_load_symbol (by decide) (by decide) rfl
  · exact hzero.readable
  · exact readable_label (by decide) (by decide)

theorem declaredLabels_farLabel (n : Nat) : declaredLabels (farLabel n) = [utf8 "L"] := by
  have hcode : declaredLabels (List.replicate n (.compute (utf8 "0"))) = [] := by
    simp [declaredLabels, AsmLine.label?]
  rw [farLabel, declaredLabels_cons, declaredLabels_append, hcode]
  rfl

/-- The label is bound to its place, however far that is, and loaded in 16 bits. -/
theorem assemble_farLabel (n : Nat) :
    ∃ a rom line, ({} : Assembler).assemble (AsmLine.render (farLabel n)) = (a, .ok rom) ∧
      a.lookup (utf8 "L") = some (n + 1) ∧
      rom[0]? = some (.address (Int16.ofNat (n + 1)) line) := by
  have hlabels := declaredLabels_farLabel n
  obtain ⟨rom, hok, -, hplaced⟩ := Assembler.assemble_render (readable_farLabel n)
    (by simp [hlabels]) {} (by rw [hlabels]; decide)
  obtain ⟨hload, hrest⟩ := hplaced
  have hcount : wordCount (List.replicate n (.compute (utf8 "0"))) = n := by
    simp [wordCount, AsmLine.words]
  have hlookup : (({} : Assembler).afterLines (farLabel n)).lookup (utf8 "L") = some (n + 1) := by
    have := (placed_append.1 hrest).2.1.label _ rfl
    rwa [hcount, Nat.zero_add, Nat.add_comm] at this
  obtain ⟨w, hw, v, line, hv, rfl⟩ := hload.word rfl
  rw [Assembler.operandValue?_of_lookup rfl hlookup] at hv
  obtain rfl := Option.some.inj hv
  exact ⟨_, rom, line, hok, hlookup, by simpa using hw⟩

/-- A label behind 65536 words is loaded as the address 0: the text is accepted, and a jump to its
end goes back to its start. -/
theorem far_label_loaded_as_zero :
    ∃ a rom line, ({} : Assembler).assemble (AsmLine.render (farLabel 65535)) = (a, .ok rom) ∧
      a.lookup (utf8 "L") = some 65536 ∧ rom[0]? = some (.address 0 line) ∧
      (0 : Int16).toUInt16.toNat ≠ 65536 := by
  obtain ⟨a, rom, line, hok, hlookup, hword⟩ := assemble_farLabel 65535
  exact ⟨a, rom, line, hok, hlookup, hword, by decide⟩

end HackVM
