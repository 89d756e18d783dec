import HackVM.Proofs.TwoPasses

/-!
# The names of symbols do not matter

Two texts whose lines differ in the names of their symbols only become the same words. It takes a
renaming (`IsRenaming`) that keeps different names different, gives predefined symbols to predefined
symbols, and does not make a number out of a symbol. Then the tables of the two assemblers agree
(`Assembler.Agrees`) after every binding and every resolved name, so that variables also get the
same cells (`assemble_rename`).
-/

namespace HackVM

/-- The line with other names for its symbols. Numbers stay as they are. -/
def AsmLine.rename (f : Text → Text) : AsmLine → AsmLine
  | load operand => load (if startsWithDigit operand then operand else f operand)
  | label name => label (f name)
  | compute code => compute code
  | comment t => comment t

/-- The function gives new names to some symbols. -/
structure IsRenaming (f : Text → Text) (names : Set Text) : Prop where
  injOn : Set.InjOn f names
  lookup : ∀ name ∈ names, ({} : Assembler).lookup (f name) = ({} : Assembler).lookup name
  startsWithDigit : ∀ name ∈ names, startsWithDigit (f name) = false
  eq_nil_iff : ∀ name ∈ names, f name = [] ↔ name = []

/-- All symbols of the lines are among the names. -/
def SymbolsIn (names : Set Text) (ls : List AsmLine) : Prop :=
  (∀ name ∈ declaredLabels ls, name ∈ names) ∧ ∀ name ∈ loadedSymbols ls, name ∈ names

section Renaming

variable {f : Text → Text} {names : Set Text}

/-! ## Lines -/

namespace AsmLine

@[simp]
theorem words_rename (l : AsmLine) : (l.rename f).words = l.words := by
  cases l <;> rfl

theorem label?_rename (l : AsmLine) : (l.rename f).label? = l.label?.map f := by
  cases l <;> rfl

theorem rename_load_of_digit {operand : Text} (h : startsWithDigit operand = true) :
    (load operand).rename f = load operand := by
  rw [rename, if_pos h]

theorem rename_load_of_symbol {name : Text} (h : startsWithDigit name = false) :
    (load name).rename f = load (f name) := by
  rw [rename, if_neg (by simp [h])]

theorem symbol?_eq_some_iff {l : AsmLine} {name : Text} :
    l.symbol? = some name ↔ l = load name ∧ startsWithDigit name = false := by
  cases l with
  | comment t => simp [symbol?]
  | compute code => simp [symbol?]
  | label other => simp [symbol?]
  | load operand =>
    rw [symbol?, load.injEq]
    cases hdigit : startsWithDigit operand with
    | true =>
      refine ⟨fun h => by simp at h, ?_⟩
      rintro ⟨rfl, h⟩
      simp [hdigit] at h
    | false =>
      refine ⟨fun h => ?_, fun h => by simp [h.1]⟩
      obtain rfl : operand = name := by simpa using h
      exact ⟨rfl, hdigit⟩

theorem symbol?_load {name : Text} (h : startsWithDigit name = false) :
    (load name).symbol? = some name := symbol?_eq_some_iff.2 ⟨rfl, h⟩

theorem symbol?_rename (hf : IsRenaming f names) {l : AsmLine}
    (hl : ∀ name, l.symbol? = some name → name ∈ names) :
    (l.rename f).symbol? = l.symbol?.map f := by
  cases l with
  | comment t => rfl
  | compute code => rfl
  | label name => rfl
  | load operand =>
    cases hdigit : startsWithDigit operand with
    | true =>
      rw [rename_load_of_digit hdigit]
      simp [symbol?, hdigit]
    | false =>
      have hname := hf.startsWithDigit operand (hl operand (symbol?_load hdigit))
      rw [rename_load_of_symbol hdigit, symbol?_load hdigit, symbol?_load hname, Option.map_some]

theorem encodable_rename (hf : IsRenaming f names) {l : AsmLine}
    (hl : ∀ name, l.symbol? = some name → name ∈ names) :
    (l.rename f).Encodable ↔ l.Encodable := by
  cases l with
  | comment t => rfl
  | compute code => rfl
  | label name => rfl
  | load operand =>
    cases hdigit : startsWithDigit operand with
    | true => rw [rename_load_of_digit hdigit]
    | false =>
      have hmem := hl operand (symbol?_load hdigit)
      rw [rename_load_of_symbol hdigit, Encodable, Encodable, ne_eq, hf.eq_nil_iff operand hmem]
      simp [hdigit, hf.startsWithDigit operand hmem]

end AsmLine

theorem symbolsIn_cons {l : AsmLine} {ls : List AsmLine} (h : SymbolsIn names (l :: ls)) :
    (∀ name, l.label? = some name → name ∈ names) ∧
      (∀ name, l.symbol? = some name → name ∈ names) ∧ SymbolsIn names ls := by
  unfold SymbolsIn at h
  rw [declaredLabels_cons, loadedSymbols_cons, List.forall_mem_append, List.forall_mem_append] at h
  exact ⟨fun name hname => h.1.1 name (Option.mem_toList.2 hname),
    fun name hname => h.2.1 name (Option.mem_toList.2 hname), h.1.2, h.2.2⟩

theorem declaredLabels_rename (ls : List AsmLine) :
    declaredLabels (ls.map (AsmLine.rename f)) = (declaredLabels ls).map f := by
  induction ls with
  | nil => rfl
  | cons l ls ih =>
    rw [List.map_cons, declaredLabels_cons, declaredLabels_cons, ih, AsmLine.label?_rename,
      List.map_append]
    cases l.label? <;> rfl

theorem loadedSymbols_rename (hf : IsRenaming f names) {ls : List AsmLine}
    (hls : SymbolsIn names ls) :
    loadedSymbols (ls.map (AsmLine.rename f)) = (loadedSymbols ls).map f := by
  induction ls with
  | nil => rfl
  | cons l ls ih =>
    obtain ⟨-, hl, hrest⟩ := symbolsIn_cons hls
    rw [List.map_cons, loadedSymbols_cons, loadedSymbols_cons, ih hrest,
      AsmLine.symbol?_rename hf hl, List.map_append]
    cases l.symbol? <;> rfl

/-! ## Tables of symbols -/

namespace Assembler

/-- Under its new name, every symbol is bound in the second assembler as it was in the first. -/
structure Agrees (f : Text → Text) (names : Set Text) (a b : Assembler) : Prop where
  next : b.nextVariable = a.nextVariable
  lookup : ∀ name ∈ names, b.lookup (f name) = a.lookup name

variable {a b : Assembler}

theorem agrees_empty (hf : IsRenaming f names) : Agrees f names {} {} := ⟨rfl, hf.lookup⟩

theorem Agrees.bind (hf : IsRenaming f names) (h : Agrees f names a b) {name : Text}
    (hname : name ∈ names) (address : Nat) :
    Agrees f names (a.bind name address) (b.bind (f name) address) where
  next := h.next
  lookup other hother := by
    by_cases he : other = name
    · rw [he, lookup_bind_self, lookup_bind_self]
    · have hne : f other ≠ f name := fun hf' => he (hf.injOn hother hname hf')
      rw [lookup_bind_of_ne b hne, lookup_bind_of_ne a he, h.lookup other hother]

theorem Agrees.resolve (hf : IsRenaming f names) (h : Agrees f names a b) {name : Text}
    (hname : name ∈ names) : Agrees f names (a.resolve name).2 (b.resolve (f name)).2 := by
  have hlookup := h.lookup name hname
  cases ha : a.lookup name with
  | some address =>
    rw [resolve_of_some ha, resolve_of_some (hlookup.trans ha)]
    exact h
  | none =>
    rw [resolve_of_none ha, resolve_of_none (hlookup.trans ha), h.next]
    exact ⟨rfl, (h.bind hf hname a.nextVariable).lookup⟩

theorem Agrees.bindAll (hf : IsRenaming f names) (h : Agrees f names a b) (address : Nat)
    {ls : List AsmLine} (hls : SymbolsIn names ls) :
    Agrees f names (a.bindAll address ls) (b.bindAll address (ls.map (AsmLine.rename f))) := by
  induction ls generalizing a b address with
  | nil => exact h
  | cons l ls ih =>
    obtain ⟨hl, -, hrest⟩ := symbolsIn_cons hls
    rw [List.map_cons, Assembler.bindAll, Assembler.bindAll, AsmLine.words_rename,
      AsmLine.label?_rename]
    cases hlabel : l.label? with
    | none => exact ih h _ hrest
    | some name => exact ih (h.bind hf (hl name hlabel) address) _ hrest

theorem Agrees.allocate (hf : IsRenaming f names) (h : Agrees f names a b) {used : List Text}
    (hused : ∀ name ∈ used, name ∈ names) :
    Agrees f names (a.allocate used) (b.allocate (used.map f)) := by
  induction used generalizing a b with
  | nil => exact h
  | cons name used ih =>
    rw [List.forall_mem_cons] at hused
    exact ih (h.resolve hf hused.1) hused.2

theorem Agrees.afterLines (hf : IsRenaming f names) (h : Agrees f names a b) {ls : List AsmLine}
    (hls : SymbolsIn names ls) :
    Agrees f names (a.afterLines ls) (b.afterLines (ls.map (AsmLine.rename f))) := by
  rw [Assembler.afterLines, Assembler.afterLines, loadedSymbols_rename hf hls]
  exact (h.bindAll hf 0 hls).allocate hf hls.2

/-! ## Words -/

theorem Agrees.word?_rename (hf : IsRenaming f names) (h : Agrees f names a b) {l : AsmLine}
    (hl : ∀ name, l.symbol? = some name → name ∈ names) (number : Nat) :
    (l.rename f).word? b number = l.word? a number := by
  cases l with
  | comment t => rfl
  | compute code => rfl
  | label name => rfl
  | load operand =>
    cases hdigit : startsWithDigit operand with
    | true =>
      rw [AsmLine.rename_load_of_digit hdigit]
      simp [AsmLine.word?, operandValue?, hdigit]
    | false =>
      have hmem := hl operand (AsmLine.symbol?_load hdigit)
      rw [AsmLine.rename_load_of_symbol hdigit]
      simp [AsmLine.word?, operandValue?, hdigit, hf.startsWithDigit operand hmem,
        h.lookup operand hmem]

theorem Agrees.image_rename (hf : IsRenaming f names) (h : Agrees f names a b) {ls : List AsmLine}
    (hls : SymbolsIn names ls) (number : Nat) :
    b.image number (ls.map (AsmLine.rename f)) = a.image number ls := by
  induction ls generalizing number with
  | nil => rfl
  | cons l ls ih =>
    obtain ⟨-, hl, hrest⟩ := symbolsIn_cons hls
    rw [List.map_cons, image, image, h.word?_rename hf hl, ih hrest]

end Assembler

/-! ## Texts -/

theorem forall_encodable_rename (hf : IsRenaming f names) {ls : List AsmLine}
    (hls : SymbolsIn names ls) :
    (∀ l ∈ ls.map (AsmLine.rename f), l.Encodable) ↔ ∀ l ∈ ls, l.Encodable := by
  rw [List.forall_mem_map]
  refine forall₂_congr fun l hl => AsmLine.encodable_rename hf fun name hname => ?_
  exact hls.2 name (List.mem_filterMap.2 ⟨l, hl, hname⟩)

theorem nodup_declaredLabels_rename (hf : IsRenaming f names) {ls : List AsmLine}
    (hls : SymbolsIn names ls) :
    (declaredLabels (ls.map (AsmLine.rename f))).Nodup ↔ (declaredLabels ls).Nodup := by
  rw [declaredLabels_rename]
  exact ⟨List.Nodup.of_map f, fun h => h.map_on fun name hname other hother =>
    hf.injOn (hls.1 name hname) (hls.1 other hother)⟩

theorem new_declaredLabels_rename (hf : IsRenaming f names) {ls : List AsmLine}
    (hls : SymbolsIn names ls) :
    (∀ name ∈ declaredLabels (ls.map (AsmLine.rename f)), ({} : Assembler).lookup name = none) ↔
      ∀ name ∈ declaredLabels ls, ({} : Assembler).lookup name = none := by
  rw [declaredLabels_rename, List.forall_mem_map]
  exact forall₂_congr fun name hname => by rw [hf.lookup name (hls.1 name hname)]

/-- **Renamed symbols give the same words.** -/
theorem assemble_rename (hf : IsRenaming f names) {ls : List AsmLine} (hls : SymbolsIn names ls)
    {s t : Text} (hs : List.Forall₂ AsmLine.Reads (Assembler.rawLines s) ls)
    (ht : List.Forall₂ AsmLine.Reads (Assembler.rawLines t) (ls.map (AsmLine.rename f)))
    {rom : List Word} : assemble t = .ok rom ↔ assemble s = .ok rom := by
  have hok (u : Text) : assemble u = .ok rom ↔ ∃ a, ({} : Assembler).assemble u = (a, .ok rom) :=
    ⟨fun h => ⟨_, Prod.ext rfl h⟩, fun ⟨_, h⟩ => congrArg Prod.snd h⟩
  have himage := ((Assembler.agrees_empty hf).afterLines hf hls).image_rename hf hls 1
  simp only [hok, Assembler.assemble_eq_ok_iff hs, Assembler.assemble_eq_ok_iff ht,
    forall_encodable_rename hf hls, nodup_declaredLabels_rename hf hls,
    new_declaredLabels_rename hf hls]
  constructor
  · rintro ⟨_, hnodup, hnew, henc, rfl, hrom⟩
    exact ⟨_, hnodup, hnew, henc, rfl, hrom.trans himage⟩
  · rintro ⟨_, hnodup, hnew, henc, rfl, hrom⟩
    exact ⟨_, hnodup, hnew, henc, rfl, hrom.trans himage.symm⟩

end Renaming

end HackVM
