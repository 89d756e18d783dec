import HackVM.Files.Path
import HackVM.Proofs.Labels
import HackVM.Proofs.Renaming

/-!
# Name spaces of static cells

Code for a static cell loads a symbol, and a name space changes that symbol and nothing else
(`listing_rename`). The assembler reads the name space without its white space
(`codeText_staticName`). The new symbols are different from each other and, because of their dot,
from all others, so the words stay the same (`assemble_rename`). There is one exception: a name
space that begins with a digit turns the symbols into numbers that are not well-formed, and the
assembler refuses the first of them. The name spaces here are stems of paths, which have no slash
that could begin a remark (`Path.slash_not_mem_stem`).
-/

namespace HackVM

/-! ## Stems of paths -/

namespace Path

theorem lastElement_cases (p : Text) :
    slash ∉ lastElement p ∨ lastElement p = [slash] := by
  unfold lastElement
  split
  · exact Or.inl (by decide)
  · simp only
    split
    · exact Or.inr rfl
    · refine Or.inl fun hmem => ?_
      rw [List.mem_reverse] at hmem
      simpa using List.mem_takeWhile_imp hmem

theorem stem_isPrefix (p : Text) : stem p <+: lastElement p := by
  unfold stem Text.dropEnding
  simp only
  split
  · exact List.take_prefix _ _
  · exact List.prefix_rfl

/-- A stem has no slash, except for the stem of the root. -/
theorem slash_not_mem_stem (p : Text) : slash ∉ stem p ∨ stem p = [slash] := by
  rcases lastElement_cases p with h | h
  · exact Or.inl fun hmem => h ((stem_isPrefix p).subset hmem)
  · have hbegins := stem_isPrefix p
    rw [h, List.prefix_cons_iff] at hbegins
    rcases hbegins with hnil | ⟨t, ht, hempty⟩
    · exact Or.inl (by simp [hnil])
    · exact Or.inr (by rw [ht, List.prefix_nil.1 hempty])

end Path

/-! ## Static symbols -/

/-- The symbol of a static cell in a name space; other symbols stay as they are. -/
def renameStatic (ns name : Text) : Text :=
  if (utf8 "static").isPrefixOf name then ns ++ utf8 "." ++ name.drop 6 else name

theorem renameStatic_eq_self {name : Text} (h : (utf8 "static").isPrefixOf name = false)
    (ns : Text) : renameStatic ns name = name := by
  rw [renameStatic, h, if_neg (by simp)]

/-- A static symbol begins with the word for it, and the name space takes the place of that word. -/
theorem renameStatic_cases (ns name : Text) :
    (∃ t, name = utf8 "static" ++ t ∧ renameStatic ns name = ns ++ utf8 "." ++ t) ∨
      renameStatic ns name = name := by
  cases h : (utf8 "static").isPrefixOf name with
  | false => exact Or.inr (renameStatic_eq_self h ns)
  | true =>
    obtain ⟨t, rfl⟩ := List.isPrefixOf_iff_prefix.1 h
    exact Or.inl ⟨t, rfl, rfl⟩

theorem dot_mem (ns t : Text) : (46 : UInt8) ∈ ns ++ utf8 "." ++ t := by
  have hdot : (46 : UInt8) ∈ utf8 "." := by decide
  simp [hdot]

theorem lookup_predefined_of_dot_mem {name : Text} (h : (46 : UInt8) ∈ name) :
    ({} : Assembler).lookup name = none := by
  have hall : ∀ e ∈ predefinedSymbols, (46 : UInt8) ∉ e.1 := by decide
  refine List.lookup_eq_none_iff.2 fun e he => bne_iff_ne.2 fun heq => ?_
  exact hall e he (heq ▸ h)

theorem startsWithDigit_renamed (ns t : Text) :
    startsWithDigit (ns ++ utf8 "." ++ t) = startsWithDigit ns := by
  cases ns with
  | nil => rfl
  | cons b ns => rfl

/-- The symbols without a dot. -/
def dotlessSymbols : Set Text := {name | (46 : UInt8) ∉ name ∧ startsWithDigit name = false}

/-- Symbols without a dot are renamed by a name space that does not begin with a digit. -/
theorem isRenaming_renameStatic {ns : Text} (hns : startsWithDigit ns = false) :
    IsRenaming (renameStatic ns) dotlessSymbols where
  injOn := by
    rintro x ⟨hx, -⟩ y ⟨hy, -⟩ h
    rcases renameStatic_cases ns x with ⟨s, rfl, hs⟩ | hs <;>
      rcases renameStatic_cases ns y with ⟨t, rfl, ht⟩ | ht <;> rw [hs, ht] at h
    · rw [List.append_cancel_left h]
    · exact absurd (h ▸ dot_mem ns s) hy
    · exact absurd (h ▸ dot_mem ns t) hx
    · exact h
  lookup := by
    intro name _
    rcases renameStatic_cases ns name with ⟨t, rfl, ht⟩ | ht
    · rw [ht, lookup_predefined_of_dot_mem (dot_mem ns t), lookup_predefined_append (by decide)]
    · rw [ht]
  startsWithDigit := by
    rintro name ⟨-, hname⟩
    rcases renameStatic_cases ns name with ⟨t, rfl, ht⟩ | ht
    · rw [ht, startsWithDigit_renamed, hns]
    · rw [ht, hname]
  eq_nil_iff := by
    intro name _
    rcases renameStatic_cases ns name with ⟨t, rfl, ht⟩ | ht
    · rw [ht]
      exact ⟨fun h => by simpa [h] using dot_mem ns t, fun h => by cases h⟩
    · rw [ht]

/-! ## Listings in a name space -/

/-- A name space renames the static symbols of a block. -/
theorem code_rename {ns : Text} (hns : ns ≠ []) (k : Int64) (op : Operation) :
    Block.code ns k op = (Block.code [] k op).map (AsmLine.rename (renameStatic ns)) := by
  have hnumber (n : Nat) : (AsmLine.load (Text.ofNat n)).rename (renameStatic ns) =
      .load (Text.ofNat n) := AsmLine.rename_load_of_digit (Text.startsWithDigit_ofNat n)
  have haddress (r : Region) (n : Nat) : Block.address ns n r =
      (Block.address [] n r).map (AsmLine.rename (renameStatic ns)) := by
    cases r with
    | based b =>
      rw [Block.address, Block.address]
      simp only [List.map_cons, hnumber]
      cases b <;> rfl
    | static =>
      have hname : staticName ns n = ns ++ utf8 "." ++ Text.ofNat n := if_neg hns
      rw [Block.address, Block.address, hname]
      rfl
    | pointer => rfl
    | temp => rfl
  cases op with
  | literal n =>
    rw [Block.code, Block.code, List.map_append, List.map_cons, hnumber]
    rfl
  | push r n =>
    rw [Block.code, Block.code, List.map_append, List.map_append, ← haddress]
    rfl
  | pop r n =>
    rw [Block.code, Block.code, List.map_append, List.map_append, List.map_append, ← haddress]
    rfl
  | unary op => rfl
  | binary op => rfl
  | compare rel => rfl

theorem listing_rename {ns : Text} (hns : ns ≠ []) {p : List Instruction}
    (hp : ∀ i ∈ p, ∃ op, i.operation = .ok op) (k : Int64) :
    listing ns k p = (listing [] k p).map (AsmLine.rename (renameStatic ns)) := by
  induction p generalizing k with
  | nil => rfl
  | cons i is ih =>
    obtain ⟨op, hop⟩ := hp i (by simp)
    rw [listing_cons hop, listing_cons hop, code_rename hns, ih fun j hj => hp j (by simp [hj]),
      List.cons_append, List.cons_append, List.map_cons, List.map_append]
    rfl

/-! ## The symbols of a listing -/

theorem dot_not_mem_ofNat (n : Nat) : (46 : UInt8) ∉ Text.ofNat n := by
  intro h
  simpa [Text.isDigit] using Text.isDigit_of_mem_ofNat h

theorem dot_not_mem_ofInt (n : Int) : (46 : UInt8) ∉ Text.ofInt n := by
  unfold Text.ofInt
  split
  · simp [dot_not_mem_ofNat]
  · exact dot_not_mem_ofNat _

theorem dot_not_mem_append {s t : Text} (hs : (46 : UInt8) ∉ s) (ht : (46 : UInt8) ∉ t) :
    (46 : UInt8) ∉ s ++ t := by
  simp [hs, ht]

theorem dot_not_mem_labelsFrom {k : Int64} {n : Nat} {name : Text} (h : name ∈ labelsFrom k n) :
    (46 : UInt8) ∉ name := by
  obtain ⟨j, -, rfl | rfl⟩ := mem_labelsFrom.1 h
  · exact dot_not_mem_append (by decide) (dot_not_mem_ofInt _)
  · exact dot_not_mem_append (by decide) (dot_not_mem_ofInt _)

theorem IsCellSymbol.dot_not_mem {name : Text} (h : IsCellSymbol name) : (46 : UInt8) ∉ name := by
  cases h with
  | stackPointer => decide
  | spare => decide
  | element r n =>
    cases r with
    | based b =>
      show (46 : UInt8) ∉ b.register
      cases b <;> decide
    | static => exact dot_not_mem_append (by decide) (dot_not_mem_ofNat n)
    | pointer => exact dot_not_mem_append (by decide) (dot_not_mem_ofInt _)
    | temp => exact dot_not_mem_append (by decide) (dot_not_mem_ofInt _)

theorem staticName_ne {name : Text} (h : (utf8 "static").isPrefixOf name = false) (n : Nat) :
    staticName [] n ≠ name := by
  rintro rfl
  cases h

/-- A symbol by which code selects a cell is that of a static cell, or no name space renames it. -/
theorem IsCellSymbol.static_cases {name : Text} (h : IsCellSymbol name) :
    (∃ n, name = staticName [] n) ∨ (utf8 "static").isPrefixOf name = false := by
  cases h with
  | stackPointer => exact Or.inr rfl
  | spare => exact Or.inr rfl
  | element r n =>
    cases r with
    | based b => exact Or.inr (by cases b <;> rfl)
    | static => exact Or.inl ⟨n, rfl⟩
    | pointer => exact Or.inr rfl
    | temp => exact Or.inr rfl

theorem static_isPrefixOf_labelsFrom {k : Int64} {n : Nat} {name : Text}
    (h : name ∈ labelsFrom k n) : (utf8 "static").isPrefixOf name = false := by
  obtain ⟨j, -, rfl | rfl⟩ := mem_labelsFrom.1 h <;> rfl

theorem staticName_eq_symbol {r : Region} {m n : Nat} :
    staticName [] n = r.symbol m ↔ r = .static ∧ m = n := by
  have hother (hr : r ≠ .static) (hbegins : (utf8 "static").isPrefixOf (r.symbol m) = false) :
      staticName [] n = r.symbol m ↔ r = .static ∧ m = n :=
    ⟨fun h => absurd h (staticName_ne hbegins n), fun h => absurd h.1 hr⟩
  cases r with
  | based b => exact hother (by simp) (by cases b <;> rfl)
  | static =>
    rw [Region.symbol, staticName_injective.eq_iff, eq_comm]
    simp
  | pointer => exact hother (by simp) rfl
  | temp => exact hother (by simp) rfl

theorem mem_loadedSymbols_code_static {k : Int64} {op : Operation} {n : Nat} :
    staticName [] n ∈ loadedSymbols (Block.code [] k op) ↔ op.static? = some n := by
  have hsp := staticName_ne (show (utf8 "static").isPrefixOf (utf8 "SP") = false from rfl) n
  have hspare := staticName_ne (show (utf8 "static").isPrefixOf spareRegister = false from rfl) n
  rw [loadedSymbols_code]
  cases op with
  | literal m => simp [hsp, Operation.static?]
  | push r m =>
    simp only [List.mem_cons, staticName_eq_symbol, hsp, List.not_mem_nil, or_false]
    cases r <;> simp [Operation.static?]
  | pop r m =>
    simp only [List.mem_cons, staticName_eq_symbol, hsp, hspare, List.not_mem_nil, or_false]
    cases r <;> simp [Operation.static?]
  | unary op => simp [hsp, Operation.static?]
  | binary op => simp [hsp, Operation.static?]
  | compare rel =>
    have htrue := staticName_ne (show (utf8 "static").isPrefixOf (trueLabel k) = false from rfl) n
    have hend := staticName_ne (show (utf8 "static").isPrefixOf (endLabel k) = false from rfl) n
    simp [hsp, htrue, hend, Operation.static?]

section Listing

variable {p : List Instruction} (hp : ∀ i ∈ p, ∃ op, i.operation = .ok op) {k : Int64}

include hp

/-- A listing loads the symbols of the static cells of its program. -/
theorem mem_loadedSymbols_listing_static {n : Nat} :
    staticName [] n ∈ loadedSymbols (listing [] k p) ↔ n ∈ staticOffsets p := by
  rw [staticOffsets, List.mem_eraseDups]
  induction p generalizing k with
  | nil => simp [listing, loadedSymbols]
  | cons i is ih =>
    obtain ⟨op, hop⟩ := hp i (by simp)
    have hcomment : (AsmLine.comment i.text).symbol?.toList = [] := rfl
    have hi : i.static? = op.static? := by rw [Instruction.static?, hop]
    rw [listing_cons hop, List.cons_append, loadedSymbols_cons, loadedSymbols_append, hcomment,
      List.nil_append, List.mem_append, mem_loadedSymbols_code_static,
      ih fun j hj => hp j (by simp [hj]), List.filterMap_cons, hi]
    cases op.static? <;> simp [eq_comm]

theorem symbolsIn_listing : SymbolsIn dotlessSymbols (listing [] k p) := by
  constructor
  · intro name hname
    rw [declaredLabels_listing hp] at hname
    refine ⟨dot_not_mem_labelsFrom hname, ?_⟩
    obtain ⟨j, -, rfl | rfl⟩ := mem_labelsFrom.1 hname <;> rfl
  · intro name hname
    constructor
    · rcases mem_loadedSymbols_listing hp hname with hlabel | hcell
      · exact dot_not_mem_labelsFrom (declaredLabels_listing hp [] k ▸ hlabel)
      · exact hcell.dot_not_mem
    · obtain ⟨l, -, hl⟩ := List.mem_filterMap.1 hname
      exact (AsmLine.symbol?_eq_some_iff.1 hl).2

/-- A line of a listing loads a static symbol, or no name space changes it. -/
theorem rename_listing_cases {l : AsmLine} (hl : l ∈ listing [] k p) :
    (∃ n ∈ staticOffsets p, l = .load (staticName [] n)) ∨
      ∀ ns, l.rename (renameStatic ns) = l := by
  cases l with
  | comment t => exact Or.inr fun ns => rfl
  | compute code => exact Or.inr fun ns => rfl
  | label name =>
    have hname : name ∈ declaredLabels (listing [] k p) := List.mem_filterMap.2 ⟨_, hl, rfl⟩
    rw [declaredLabels_listing hp] at hname
    refine Or.inr fun ns => ?_
    rw [AsmLine.rename, renameStatic_eq_self (static_isPrefixOf_labelsFrom hname)]
  | load operand =>
    cases hdigit : startsWithDigit operand with
    | true => exact Or.inr fun ns => AsmLine.rename_load_of_digit hdigit
    | false =>
      have hname : operand ∈ loadedSymbols (listing [] k p) :=
        List.mem_filterMap.2 ⟨_, hl, AsmLine.symbol?_load hdigit⟩
      have hfixed (h : (utf8 "static").isPrefixOf operand = false) (ns : Text) :
          (AsmLine.load operand).rename (renameStatic ns) = .load operand := by
        rw [AsmLine.rename_load_of_symbol hdigit, renameStatic_eq_self h]
      rcases mem_loadedSymbols_listing hp hname with hlabel | hcell
      · rw [declaredLabels_listing hp] at hlabel
        exact Or.inr (hfixed (static_isPrefixOf_labelsFrom hlabel))
      · rcases hcell.static_cases with ⟨n, rfl⟩ | hbegins
        · exact Or.inl ⟨n, (mem_loadedSymbols_listing_static hp).1 hname, rfl⟩
        · exact Or.inr (hfixed hbegins)

end Listing

/-! ## How the assembler reads a name space -/

namespace Text

theorem squeeze_append_ascii {b : UInt8} (hb : b.toNat < 128) (s t : Text) :
    squeeze (s ++ b :: t) = squeeze s ++ squeeze (b :: t) := by
  rw [squeeze, runes_append_ascii hb, List.filter_append, ofRunes_append]
  rfl

theorem squeeze_cons_of_plain {b : UInt8} (hb : isPlainByte b = true) (t : Text) :
    squeeze (b :: t) = b :: squeeze t := by
  have hascii : b.toNat < 128 := by
    simp only [isPlainByte, Bool.and_eq_true, decide_eq_true_eq, UInt8.le_iff_toNat_le] at hb
    have hhigh : b.toNat ≤ 126 := hb.1.2
    omega
  have hsingle : squeeze [b] = [b] := squeeze_of_plain fun c hc => by
    rwa [List.mem_singleton.1 hc]
  have hsplit : runes (b :: t) = runes [b] ++ runes t := by
    rw [runes_cons_ascii hascii t, runes_cons_ascii hascii []]
    rfl
  rw [squeeze, hsplit, List.filter_append, ofRunes_append, ← squeeze, ← squeeze, hsingle]
  rfl

end Text

section Reading

variable {ns : Text} (hslash : Path.slash ∉ ns ∨ ns = [Path.slash])

include hslash in
/-- The assembler takes the white space out of a name space. -/
theorem codeText_staticName (n : Nat) :
    codeText (64 :: (ns ++ utf8 "." ++ Text.ofNat n)) =
      64 :: (ns.squeeze ++ utf8 "." ++ Text.ofNat n) := by
  have hrest : Path.slash ∉ utf8 "." ++ Text.ofNat n := by
    rw [List.mem_append, not_or]
    exact ⟨by decide, (Text.plain_ofNat n).not_mem (by decide)⟩
  have hcut : Text.cut? (utf8 "//") (64 :: (ns ++ utf8 "." ++ Text.ofNat n)) = none := by
    rw [List.append_assoc]
    rcases hslash with hslash | rfl
    · apply Text.cut?_eq_none_of_not_mem
      simp only [List.mem_cons, List.mem_append, not_or] at hrest ⊢
      exact ⟨by decide, hslash, hrest⟩
    · have hnone : Text.cut? (utf8 "//") (utf8 "." ++ Text.ofNat n) = none :=
        Text.cut?_eq_none_of_not_mem hrest
      show ((Text.cut? (utf8 "//") (utf8 "." ++ Text.ofNat n)).map _).map _ = none
      rw [hnone]
      rfl
  have hplain : Text.Plain (utf8 "." ++ Text.ofNat n) :=
    Text.Plain.append (by decide) (Text.plain_ofNat n)
  have hdot : utf8 "." ++ Text.ofNat n = 46 :: Text.ofNat n := rfl
  rw [codeText, hcut]
  simp only
  rw [Text.squeeze_cons_of_plain (by decide), List.append_assoc, List.append_assoc, hdot,
    Text.squeeze_append_ascii (by decide), ← hdot, Text.squeeze_of_plain hplain]

variable {strict : Bool} {p : List Instruction}

include hslash in
theorem reads_rename_listing (hp : ∀ i ∈ p, i.IsDecoded strict) {k : Int64} {l : AsmLine}
    (hl : l ∈ listing [] k p) :
    (l.rename (renameStatic ns.squeeze)).Reads (l.rename (renameStatic ns)).text := by
  rcases rename_listing_cases (operation_of_decoded hp) hl with ⟨n, -, rfl⟩ | hfixed
  · exact codeText_staticName hslash n
  · rw [hfixed, hfixed]
    exact (readable_listing hp k l hl).reads

theorem ends_rename_listing (hp : ∀ i ∈ p, i.IsDecoded strict) (hfeed : Text.lineFeed ∉ ns)
    {k : Int64} {l : AsmLine} (hl : l ∈ listing [] k p) :
    Text.lineFeed ∉ (l.rename (renameStatic ns)).text ∧
      (l.rename (renameStatic ns)).text.getLast? ≠ some Text.carriageReturn := by
  rcases rename_listing_cases (operation_of_decoded hp) hl with ⟨n, -, rfl⟩ | hfixed
  · have htext : ((AsmLine.load (staticName [] n)).rename (renameStatic ns)).text =
        64 :: (ns ++ utf8 "." ++ Text.ofNat n) := rfl
    have hplain := Text.plain_ofNat n
    rw [htext]
    constructor
    · simp only [List.mem_cons, List.mem_append, not_or]
      exact ⟨by decide, ⟨hfeed, by decide⟩, hplain.not_mem (by decide)⟩
    · rw [← List.cons_append, List.getLast?_append_of_ne_nil _ (Text.ofNat_ne_nil n)]
      exact fun hlast => hplain.not_mem (by decide) (List.mem_of_getLast? hlast)
  · rw [hfixed]
    exact (readable_listing hp k l hl).ends

include hslash in
/-- The assembler reads a listing in a name space as a listing with renamed static symbols. -/
theorem reads_listing (hp : ∀ i ∈ p, i.IsDecoded strict) (hns : ns ≠ [])
    (hfeed : Text.lineFeed ∉ ns) (k : Int64) :
    List.Forall₂ AsmLine.Reads (Assembler.rawLines (AsmLine.render (listing ns k p)))
      ((listing [] k p).map (AsmLine.rename (renameStatic ns.squeeze)) ++ [.comment []]) := by
  rw [listing_rename hns (operation_of_decoded hp)]
  apply Assembler.reads_render_of_ends
  · rw [List.forall_mem_map]
    exact fun l hl => ends_rename_listing hp hfeed hl
  · rw [List.forall₂_map_left_iff, List.forall₂_map_right_iff, List.forall₂_same]
    exact fun l hl => reads_rename_listing hslash hp hl

/-! ## Assembling in a name space -/

/-- Without static cells, a name space changes nothing. -/
theorem listing_of_staticOffsets_eq_nil (hp : ∀ i ∈ p, ∃ op, i.operation = .ok op)
    (hstatic : staticOffsets p = []) (hns : ns ≠ []) (k : Int64) :
    listing ns k p = listing [] k p := by
  have hfixed : ∀ l ∈ listing [] k p, l.rename (renameStatic ns) = l := by
    intro l hl
    rcases rename_listing_cases hp hl with ⟨n, hn, -⟩ | hfixed
    · simp [hstatic] at hn
    · exact hfixed ns
  rw [listing_rename hns hp, List.map_congr_left hfixed, List.map_id']

include hslash in
/-- A name space that does not begin with a digit only renames. -/
theorem assemble_namespace_iff (hp : ∀ i ∈ p, i.IsDecoded strict) (hns : ns ≠ [])
    (hfeed : Text.lineFeed ∉ ns) (hdigit : startsWithDigit ns.squeeze = false) {rom : List Word} :
    assemble (AsmLine.render (listing ns 0 p)) = .ok rom ↔ assemble (assembly p) = .ok rom := by
  have hsymbols : SymbolsIn dotlessSymbols (listing [] 0 p ++ [.comment []]) := by
    have hlisting := symbolsIn_listing (operation_of_decoded hp) (k := 0)
    unfold SymbolsIn at hlisting ⊢
    rw [declaredLabels_append, loadedSymbols_append]
    simpa [declaredLabels, loadedSymbols, AsmLine.label?, AsmLine.symbol?] using hlisting
  rw [assembly_eq]
  refine assemble_rename (isRenaming_renameStatic hdigit) hsymbols
    (Assembler.reads_render (readable_listing hp 0)) ?_
  rw [List.map_append]
  exact reads_listing hslash hp hns hfeed 0

theorem value?_eq_none_of_dot_mem {t : Text} (h : (46 : UInt8) ∈ t) : t.value? = none := by
  refine if_neg fun hdigits => ?_
  have hdot := List.all_eq_true.1 hdigits.2 46 h
  simp [Text.isDigit] at hdot

/-- The first element of a list that has a property. -/
theorem exists_first {α : Type} {P : α → Prop} {l : List α} {x : α} (hx : x ∈ l) (hP : P x) :
    ∃ before y after, l = before ++ y :: after ∧ P y ∧ ∀ z ∈ before, ¬ P z := by
  classical
  have hsome : (l.find? fun y => decide (P y)).isSome :=
    List.find?_isSome.2 ⟨x, hx, decide_eq_true hP⟩
  obtain ⟨y, hy⟩ := Option.isSome_iff_exists.1 hsome
  obtain ⟨hPy, before, after, hsplit, hbefore⟩ := List.find?_eq_some_iff_append.1 hy
  exact ⟨before, y, after, hsplit, of_decide_eq_true hPy, fun z hz => by simpa using hbefore z hz⟩

/-- Before the first line of a listing that loads a static symbol, no name space changes
anything. -/
theorem exists_first_static (hp : ∀ i ∈ p, ∃ op, i.operation = .ok op)
    (hstatic : staticOffsets p ≠ []) (k : Int64) :
    ∃ before n after, listing [] k p = before ++ .load (staticName [] n) :: after ∧
      n ∈ staticOffsets p ∧ ∀ l ∈ before, ∀ ns, l.rename (renameStatic ns) = l := by
  obtain ⟨m, hm⟩ := List.exists_mem_of_ne_nil _ hstatic
  obtain ⟨l, hl, hsymbol⟩ :=
    List.mem_filterMap.1 ((mem_loadedSymbols_listing_static hp (k := k)).2 hm)
  obtain ⟨rfl, -⟩ := AsmLine.symbol?_eq_some_iff.1 hsymbol
  obtain ⟨before, first, after, hsplit, ⟨n, hn, rfl⟩, hbefore⟩ :=
    exists_first (P := fun l => ∃ n ∈ staticOffsets p, l = .load (staticName [] n)) hl ⟨m, hm, rfl⟩
  refine ⟨before, n, after, hsplit, hn, fun l hl => ?_⟩
  have hmem : l ∈ listing [] k p := by simp [hsplit, hl]
  exact (rename_listing_cases hp hmem).resolve_left (hbefore l hl)

include hslash in
/-- A name space that begins with a digit makes the first static symbol a malformed number. -/
theorem assemble_namespace_refused (hp : ∀ i ∈ p, i.IsDecoded strict)
    (hcount : p.countP Instruction.isComparison ≤ 2 ^ 64) (hns : ns ≠ [])
    (hfeed : Text.lineFeed ∉ ns) (hdigit : startsWithDigit ns.squeeze = true)
    (hstatic : staticOffsets p ≠ []) :
    ∃ line, ∃ n ∈ staticOffsets p, assemble (AsmLine.render (listing ns 0 p)) =
      .error ⟨line, .invalidConstant (ns.squeeze ++ utf8 "." ++ Text.ofNat n)⟩ := by
  have hops := operation_of_decoded hp
  obtain ⟨before, n, after, hsplit, hn, hbefore⟩ := exists_first_static hops hstatic 0
  have hsqueeze : ns.squeeze ≠ [] := by
    intro hnil
    simp [hnil, startsWithDigit] at hdigit
  -- the renamed lines are a listing too, so their labels are those of any listing of the program
  have hlabels : declaredLabels ((listing [] 0 p).map (AsmLine.rename (renameStatic ns.squeeze)) ++
      [.comment []]) = labelsFrom 0 (p.countP Instruction.isComparison) := by
    rw [← listing_rename hsqueeze hops, declaredLabels_append, declaredLabels_listing hops]
    exact List.append_nil _
  have hload : (AsmLine.load (staticName [] n)).rename (renameStatic ns.squeeze) =
      .load (ns.squeeze ++ utf8 "." ++ Text.ofNat n) := rfl
  have hreads := reads_listing hslash hp hns hfeed 0
  rw [hsplit, List.map_append, List.map_cons, List.append_assoc, List.cons_append, hload]
    at hreads hlabels
  refine ⟨_, n, hn, Assembler.assemble_invalidConstant hreads ?_ ?_ ?_ ?_ ?_⟩
  · rw [hlabels]
    exact nodup_labelsFrom 0 hcount
  · rw [hlabels]
    exact fun _ => lookup_predefined_labelsFrom
  · rw [List.forall_mem_map]
    intro l hl
    rw [hbefore l hl]
    exact (readable_listing hp 0 l (by simp [hsplit, hl])).encodable
  · rw [startsWithDigit_renamed, hdigit]
  · exact value?_eq_none_of_dot_mem (dot_mem _ _)

end Reading

/-! ## Compiling in a name space -/

theorem compile_assembly_eq {file : Text} {raw : List Text} {opts : CompilationOptions}
    {lines : List CommandLine} {p : List Instruction}
    (h : (CommandLine.read raw).lines = .ok lines)
    (hp : CommandLine.decodeAll opts.strict lines = .ok p) :
    (compile file raw opts).assembly =
      .ok (AsmLine.render (listing opts.staticNamespace 0 p)) := by
  rw [(compile_of_decodeAll_ok file opts h hp).1, Emitter.emitAll_written rfl rfl]
  rfl

/-- **A name space only renames static cells**, unless it begins with a digit. What compiles without
a name space compiles in one that is the stem of a path, and both assemblies become the same words.
But where white space left aside the stem begins with a digit and the program has static cells, the
assembler takes their symbols for numbers and refuses them. -/
theorem compile_static_namespace {file path asm : Text} {raw : List Text} {strict : Bool}
    (hlength : raw.length < 2 ^ 63) (hfeed : Text.lineFeed ∉ Path.stem path)
    (h : (compile file raw { strict := strict }).assembly = .ok asm) :
    let c := compile file raw { strict := strict, staticNamespace := Path.stem path }
    ∃ asm' rom, c.assembly = .ok asm' ∧ assemble asm = .ok rom ∧
      (startsWithDigit (Path.stem path).squeeze = false ∨ staticOffsets c.instructions = [] →
        assemble asm' = .ok rom) ∧
      (startsWithDigit (Path.stem path).squeeze = true → staticOffsets c.instructions ≠ [] →
        ∃ line, ∃ n ∈ staticOffsets c.instructions, assemble asm' = .error
          ⟨line, .invalidConstant ((Path.stem path).squeeze ++ utf8 "." ++ Text.ofNat n)⟩) := by
  intro c
  obtain ⟨lines, p, hread, hp⟩ := (compile_ok_iff file { strict := strict }).1 ⟨asm, h⟩
  have hdecoded := CommandLine.decodeAll_decoded hp
  have hops := operation_of_decoded hdecoded
  have hinstructions : c.instructions = p :=
    (compile_of_decodeAll_ok file ⟨strict, Path.stem path⟩ hread hp).2.1
  have hcount : p.countP Instruction.isComparison ≤ 2 ^ 64 := by
    have hle : p.length ≤ raw.length := hinstructions ▸ length_instructions_compile file _
    have hcountle : p.countP Instruction.isComparison ≤ p.length := List.countP_le_length
    omega
  obtain ⟨rom, hrom⟩ := assemble_listing hdecoded hcount
  obtain rfl : assembly p = asm := by
    rw [assembly_eq]
    exact Except.ok.inj ((compile_assembly_eq hread hp).symm.trans h)
  refine ⟨_, rom, compile_assembly_eq hread hp, hrom, ?_⟩
  have hslash := Path.slash_not_mem_stem path
  rw [hinstructions]
  by_cases hns : Path.stem path = []
  · -- the empty name space is the same as none
    have hempty : startsWithDigit (Path.stem path).squeeze = false := by
      rw [hns]
      rfl
    rw [assembly_eq, ← hns] at hrom
    exact ⟨fun _ => hrom, fun hdigit => absurd hdigit (by simp [hempty])⟩
  · refine ⟨fun haccepted => ?_, fun hdigit hstatic => ?_⟩
    · rcases haccepted with hdigit | hstatic
      · exact (assemble_namespace_iff hslash hdecoded hns hfeed hdigit).2 hrom
      · rw [assembly_eq] at hrom
        rw [listing_of_staticOffsets_eq_nil hops hstatic hns]
        exact hrom
    · exact assemble_namespace_refused hslash hdecoded hcount hns hfeed hdigit hstatic

/-- The stem has two words, and the assembler reads them as one. -/
theorem compile_static_namespace_two_words :
    let raw := [utf8 "push constant 7", utf8 "pop static 3"]
    let path := utf8 "src/my file.vm"
    ∃ asm asm' rom, (compile path raw {}).assembly = .ok asm ∧ assemble asm = .ok rom ∧
      Path.stem path = utf8 "my file" ∧
      (compile path raw { staticNamespace := Path.stem path }).assembly = .ok asm' ∧
      assemble asm' = .ok rom := by
  intro raw path
  have hread : (CommandLine.read raw).lines = .ok [⟨1, 1, utf8 "push constant 7"⟩,
      ⟨2, 1, utf8 "pop static 3"⟩] := rfl
  have hdecode : CommandLine.decodeAll false [⟨1, 1, utf8 "push constant 7"⟩,
      ⟨2, 1, utf8 "pop static 3"⟩] = .ok [(Operation.literal 7).instruction 1,
        (Operation.pop .static 3).instruction 2] := by
    decide +kernel
  have hasm : (compile path raw {}).assembly = _ := compile_assembly_eq hread hdecode
  have hfeed : Text.lineFeed ∉ Path.stem path := by decide
  obtain ⟨asm', rom, hasm', hrom, hsame, -⟩ := compile_static_namespace (by decide) hfeed hasm
  exact ⟨_, asm', rom, hasm, hrom, by decide, hasm', hsame (Or.inl (by decide))⟩

/-- Without its extension, the name of the file begins with a digit. -/
theorem digit_namespace_refused :
    let raw := [utf8 "push constant 7", utf8 "pop static 0"]
    let path := utf8 "1a.vm"
    ∃ asm asm' rom, (compile path raw {}).assembly = .ok asm ∧ assemble asm = .ok rom ∧
      (compile path raw { staticNamespace := Path.stem path }).assembly = .ok asm' ∧
      assemble asm' = .error ⟨10, .invalidConstant (utf8 "1a.0")⟩ := by
  intro raw path
  have hread : (CommandLine.read raw).lines = .ok [⟨1, 1, utf8 "push constant 7"⟩,
      ⟨2, 1, utf8 "pop static 0"⟩] := rfl
  have hdecode : CommandLine.decodeAll false [⟨1, 1, utf8 "push constant 7"⟩,
      ⟨2, 1, utf8 "pop static 0"⟩] = .ok [(Operation.literal 7).instruction 1,
        (Operation.pop .static 0).instruction 2] := by
    decide +kernel
  obtain ⟨rom, hrom⟩ := assemble_listing (CommandLine.decodeAll_decoded hdecode) (by decide)
  rw [assembly_eq] at hrom
  exact ⟨_, _, rom, compile_assembly_eq hread hdecode, hrom, compile_assembly_eq hread hdecode,
    by decide +kernel⟩

end HackVM
