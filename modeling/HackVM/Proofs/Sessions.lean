import HackVM.Proofs.TwoPasses

/-!
# Sessions with one assembler

An assembler that is given one text after the other keeps its symbols, also if a pass stops at an
error halfway. Whatever happens, a pass does only two things to the symbols: the first pass binds
labels that are new (`bindLabels_fst`), and the second one resolves names (`encodeLines_fst`).
Neither changes a binding (`Extends`), and resolving keeps the names it has bound in step with the
cells from `firstVariable` on (`Fills`). `session_keeps_symbols` says what follows for all texts of
a session.
-/

namespace HackVM

namespace Assembler

/-- Every binding of the first assembler is one of the second. -/
def Extends (b a : Assembler) : Prop :=
  ∀ name address, a.lookup name = some address → b.lookup name = some address

theorem Extends.refl (a : Assembler) : a.Extends a := fun _ _ h => h

theorem Extends.trans {a b c : Assembler} (hcb : c.Extends b) (hba : b.Extends a) : c.Extends a :=
  fun name address h => hcb name address (hba name address h)

theorem extends_bind {a : Assembler} {name : Text} (h : a.lookup name = none) (address : Nat) :
    (a.bind name address).Extends a := by
  intro other n hother
  have hne : other ≠ name := by
    rintro rfl
    rw [h] at hother
    cases hother
  rw [lookup_bind_of_ne a hne, hother]

/-! ## Names and cells in step -/

/-- The lookup takes the names one to one onto the cells that have been given to variables. -/
structure Fills (names : Set Text) (a : Assembler) : Prop where
  le : firstVariable ≤ a.nextVariable
  bijOn : Set.BijOn a.lookup names (some '' Set.Ico firstVariable a.nextVariable)

theorem fills_empty : Fills ∅ {} where
  le := le_rfl
  bijOn := by
    have hnone : Set.Ico firstVariable ({} : Assembler).nextVariable = ∅ := Set.Ico_self _
    rw [hnone, Set.image_empty]
    exact Set.bijOn_empty _

theorem Fills.not_mem {names : Set Text} {a : Assembler} (h : Fills names a) {name : Text}
    (hname : a.lookup name = none) : name ∉ names := by
  intro hmem
  obtain ⟨n, -, hn⟩ := h.bijOn.mapsTo hmem
  rw [hname] at hn
  cases hn

/-- Bindings of other names do not matter. -/
theorem Fills.of_extends {names : Set Text} {a b : Assembler} (h : Fills names a)
    (hext : b.Extends a) (hnext : b.nextVariable = a.nextVariable) : Fills names b where
  le := hnext ▸ h.le
  bijOn := by
    rw [hnext]
    refine h.bijOn.congr fun name hname => ?_
    obtain ⟨n, -, hn⟩ := h.bijOn.mapsTo hname
    rw [← hn, hext name n hn.symm]

/-- A name that becomes a variable gets the cell after those of the names before it. -/
theorem Fills.resolve {names : Set Text} {a : Assembler} (h : Fills names a) {name : Text}
    (hname : a.lookup name = none) : Fills (insert name names) (a.resolve name).2 := by
  have hlookup : (a.resolve name).2.lookup name = some a.nextVariable := by
    rw [lookup_resolve_self, resolve_of_none hname]
  have hnext : (a.resolve name).2.nextVariable = a.nextVariable + 1 := by rw [resolve_of_none hname]
  have hcells : some '' Set.Ico firstVariable (a.nextVariable + 1) =
      insert (some a.nextVariable) (some '' Set.Ico firstVariable a.nextVariable) := by
    rw [Set.Ico_add_one_right_eq_Icc, ← Set.Ico_insert_right h.le, Set.image_insert_eq]
  refine ⟨hnext ▸ Nat.le_succ_of_le h.le, ?_⟩
  rw [hnext, hcells, ← hlookup]
  refine Set.BijOn.insert (h.bijOn.congr fun other hother => ?_) ?_
  · have hne : other ≠ name := fun he => h.not_mem hname (he ▸ hother)
    exact (lookup_resolve_of_ne a hne).symm
  · rw [hlookup]
    rintro ⟨n, hn, he⟩
    exact absurd hn.2 (by simp [Option.some.inj he])

/-- The names that are bound in the second assembler only. -/
def boundSince (a b : Assembler) : Set Text := {name | a.lookup name = none ∧ b.lookup name ≠ none}

theorem boundSince_self (a : Assembler) : boundSince a a = ∅ := by
  ext name
  simp [boundSince]

theorem boundSince_resolve {a b : Assembler} {name : Text} (hname : a.lookup name = none)
    (hext : b.Extends (a.resolve name).2) :
    boundSince a b = insert name (boundSince (a.resolve name).2 b) := by
  ext other
  by_cases hother : other = name
  · subst hother
    have hbound := hext _ _ (lookup_resolve_self a other)
    simp [boundSince, hname, hbound]
  · simp [boundSince, lookup_resolve_of_ne a hother, hother]

theorem extends_allocate (a : Assembler) (names : List Text) : (a.allocate names).Extends a :=
  fun _ _ => lookup_allocate_of_some names

theorem Fills.allocate {names : Set Text} {a : Assembler} (h : Fills names a) (used : List Text) :
    Fills (names ∪ boundSince a (a.allocate used)) (a.allocate used) := by
  induction used generalizing a names with
  | nil =>
    have hsame : a.allocate [] = a := rfl
    rw [hsame, boundSince_self, Set.union_empty]
    exact h
  | cons name used ih =>
    have hstep : a.allocate (name :: used) = (a.resolve name).2.allocate used := rfl
    rw [hstep]
    cases hname : a.lookup name with
    | some address =>
      rw [resolve_of_some hname]
      exact ih h
    | none =>
      rw [boundSince_resolve hname (extends_allocate _ _), Set.union_insert, ← Set.insert_union]
      exact ih (h.resolve hname)

/-! ## What a pass does to the symbols -/

/-- The first pass, finished or not, adds labels and no variables. -/
theorem bindLabels_fst (a : Assembler) (number address : Nat) (raws : List Text) :
    (a.bindLabels number address raws).1.Extends a ∧
      (a.bindLabels number address raws).1.nextVariable = a.nextVariable := by
  induction raws generalizing a number address with
  | nil => exact ⟨.refl a, rfl⟩
  | cons raw raws ih =>
    rw [bindLabels]
    split
    · exact ih a _ _
    · split
      · split
        · exact ⟨.refl a, rfl⟩
        · next name _ =>
          split
          · exact ⟨.refl a, rfl⟩
          · next hname =>
            have hnone : a.lookup name = none := by simpa using hname
            obtain ⟨hext, hnext⟩ := ih (a.bind name address) (number + 1) address
            exact ⟨hext.trans (extends_bind hnone address), hnext⟩
      · have hrest := ih a (number + 1) (address + 1)
        rcases h : a.bindLabels (number + 1) (address + 1) raws with ⟨b, e | lines⟩
        · rwa [h] at hrest
        · rwa [h] at hrest

/-- The assembler after the first pass over a text. -/
def afterLabels (a : Assembler) (t : Text) : Assembler := (a.bindLabels 1 0 (rawLines t)).1

/-- What a text does to the symbols: its labels are bound first, then names are resolved. -/
theorem assemble_fst (a : Assembler) (t : Text) :
    ∃ names, (a.assemble t).1 = (a.afterLabels t).allocate names := by
  rw [assemble, ← rawLines, afterLabels]
  rcases a.bindLabels 1 0 (rawLines t) with ⟨b, e | lines⟩
  · exact ⟨[], rfl⟩
  · exact encodeLines_fst b lines

theorem extends_afterLabels (a : Assembler) (t : Text) : (a.afterLabels t).Extends a :=
  (bindLabels_fst a 1 0 (rawLines t)).1

theorem extends_assemble (a : Assembler) (t : Text) : (a.assemble t).1.Extends a := by
  obtain ⟨names, hnames⟩ := assemble_fst a t
  rw [hnames]
  exact (extends_allocate _ names).trans (extends_afterLabels a t)

end Assembler

/-! ## Sessions -/

/-- The assembler after it was given the texts, one after the other. -/
def session (ts : List Text) : Assembler := ts.foldl (fun a t => (a.assemble t).1) {}

/-- The name was bound in the second pass over one of the texts. -/
def IsVariable (ts : List Text) (name : Text) : Prop :=
  ∃ before t after, ts = before ++ t :: after ∧
    name ∈ Assembler.boundSince ((session before).afterLabels t) (session (before ++ [t]))

theorem session_append_singleton (ts : List Text) (t : Text) :
    session (ts ++ [t]) = ((session ts).assemble t).1 := by
  simp [session]

theorem session_extends (ts us : List Text) : (session (ts ++ us)).Extends (session ts) := by
  induction us using List.reverseRecOn with
  | nil =>
    rw [List.append_nil]
    exact .refl _
  | append_singleton us t ih =>
    rw [← List.append_assoc, session_append_singleton]
    exact (Assembler.extends_assemble _ t).trans ih

theorem not_isVariable_nil (name : Text) : ¬ IsVariable [] name := by
  rintro ⟨before, t, after, hsplit, -⟩
  simp at hsplit

theorem isVariable_append_singleton (ts : List Text) (t : Text) :
    {name | IsVariable (ts ++ [t]) name} = {name | IsVariable ts name} ∪
      Assembler.boundSince ((session ts).afterLabels t) (session (ts ++ [t])) := by
  ext name
  constructor
  · rintro ⟨before, u, after, hsplit, hname⟩
    rcases List.eq_nil_or_concat after with rfl | ⟨after, v, rfl⟩
    · obtain ⟨rfl, hu⟩ := List.append_inj' hsplit rfl
      obtain rfl := List.singleton_inj.1 hu
      exact Or.inr hname
    · rw [List.concat_eq_append, ← List.cons_append, ← List.append_assoc] at hsplit
      obtain ⟨rfl, -⟩ := List.append_inj' hsplit rfl
      exact Or.inl ⟨before, u, after, rfl, hname⟩
  · rintro (⟨before, u, after, rfl, hname⟩ | hname)
    · exact ⟨before, u, after ++ [t], by simp, hname⟩
    · exact ⟨ts, t, [], rfl, hname⟩

/-- **The variables of a session fill the cells from the first one on.** -/
theorem fills_session (ts : List Text) :
    Assembler.Fills {name | IsVariable ts name} (session ts) := by
  induction ts using List.reverseRecOn with
  | nil =>
    have hnone : {name | IsVariable [] name} = ∅ :=
      Set.eq_empty_of_forall_notMem not_isVariable_nil
    rw [hnone]
    exact Assembler.fills_empty
  | append_singleton ts t ih =>
    obtain ⟨names, hnames⟩ := Assembler.assemble_fst (session ts) t
    rw [isVariable_append_singleton, session_append_singleton, hnames]
    obtain ⟨hext, hnext⟩ := Assembler.bindLabels_fst (session ts) 1 0 (Assembler.rawLines t)
    exact (ih.of_extends hext hnext).allocate names

/-! ## What operands are resolved to -/

namespace Assembler

theorem encodeLine_symbol {name : Text} (hne : name ≠ []) (hdigit : startsWithDigit name = false)
    (a : Assembler) (number : Nat) :
    a.encodeLine ⟨number, 64 :: name⟩ =
      ((a.resolve name).2, .ok (.address (Int16.ofNat (a.resolve name).1) number)) := by
  simp [encodeLine, encodeAddress, hne, hdigit]

theorem encodeLines_append_eq_ok {a c : Assembler} {ls ms : List CodeLine} {ws : List Word}
    (h : a.encodeLines (ls ++ ms) = (c, .ok ws)) :
    ∃ b us vs, a.encodeLines ls = (b, .ok us) ∧ us.length = ls.length ∧
      b.encodeLines ms = (c, .ok vs) ∧ ws = us ++ vs := by
  induction ls generalizing a ws with
  | nil => exact ⟨a, [], ws, rfl, rfl, h, rfl⟩
  | cons l ls ih =>
    obtain ⟨a', w, rest, hl, hrest, rfl⟩ := encodeLines_cons_eq_ok_iff.1 h
    obtain ⟨b, us, vs, hus, hlength, hvs, rfl⟩ := ih hrest
    exact ⟨b, w :: us, vs, encodeLines_cons_eq_ok_iff.2 ⟨a', w, us, hl, hus, rfl⟩,
      congrArg (· + 1) hlength, hvs, rfl⟩

/-- Given the text, the assembler comes to a line that loads the symbol, and resolves it to the
address. It may stop at an error in a later line. -/
def Resolves (a : Assembler) (t name : Text) (address : Nat) : Prop :=
  name ≠ [] ∧ startsWithDigit name = false ∧
    ∃ before number after b ws,
      (a.bindLabels 1 0 (rawLines t)).2 = .ok (before ++ ⟨number, 64 :: name⟩ :: after) ∧
      (a.afterLabels t).encodeLines before = (b, .ok ws) ∧ (b.resolve name).1 = address

theorem assemble_of_bindLabels {a : Assembler} {t : Text} {lines : List CodeLine}
    (h : (a.bindLabels 1 0 (rawLines t)).2 = .ok lines) :
    a.assemble t = (a.afterLabels t).encodeLines lines := by
  rw [assemble, ← rawLines, afterLabels]
  rcases hbind : a.bindLabels 1 0 (rawLines t) with ⟨b, r⟩
  rw [hbind] at h
  obtain rfl : r = .ok lines := h
  rfl

/-- What a symbol was resolved to, it is bound to afterwards. -/
theorem Resolves.lookup {a : Assembler} {t name : Text} {address : Nat}
    (h : a.Resolves t name address) : (a.assemble t).1.lookup name = some address := by
  obtain ⟨hne, hdigit, before, number, after, b, ws, hlines, hbefore, hresolve⟩ := h
  rw [assemble_of_bindLabels hlines, encodeLines_append hbefore,
    encodeLines_cons_of_ok (encodeLine_symbol hne hdigit b number)]
  apply lookup_encodeLines_of_some
  rw [lookup_resolve_self, hresolve]

/-- A symbol that is bound is resolved to what it is bound to. -/
theorem Resolves.eq_of_lookup {a : Assembler} {t name : Text} {m n : Nat}
    (h : a.Resolves t name n) (hname : a.lookup name = some m) : n = m := by
  obtain ⟨-, -, before, number, after, b, ws, -, hbefore, rfl⟩ := h
  have hb := lookup_encodeLines_of_some before (extends_afterLabels a t name m hname)
  rw [hbefore] at hb
  rw [resolve_of_some hb]

/-- In an accepted text, every line that loads a symbol resolves it and becomes a word with the
address. -/
theorem exists_resolves_of_assemble {a : Assembler} {t name : Text} {rom : List Word}
    (h : (a.assemble t).2 = .ok rom) (hne : name ≠ []) (hdigit : startsWithDigit name = false)
    {before after : List CodeLine} {number : Nat}
    (hlines : (a.bindLabels 1 0 (rawLines t)).2 = .ok (before ++ ⟨number, 64 :: name⟩ :: after)) :
    ∃ n, a.Resolves t name n ∧ rom[before.length]? = some (.address (Int16.ofNat n) number) := by
  rw [assemble_of_bindLabels hlines] at h
  obtain ⟨b, us, vs, hus, hlength, hvs, rfl⟩ := encodeLines_append_eq_ok (Prod.ext rfl h)
  obtain ⟨c, w, rest, hw, -, rfl⟩ := encodeLines_cons_eq_ok_iff.1 hvs
  rw [encodeLine_symbol hne hdigit] at hw
  obtain ⟨-, hw⟩ := Prod.mk.inj hw
  refine ⟨(b.resolve name).1, ⟨hne, hdigit, before, number, after, b, us, hlines, hus, rfl⟩, ?_⟩
  rw [← hlength, ← Except.ok.inj hw]
  simp

end Assembler

theorem lookup_predefined {name : Text} {address : Nat} (h : (name, address) ∈ predefinedSymbols) :
    ({} : Assembler).lookup name = some address := by
  have hall : ∀ p ∈ predefinedSymbols, predefinedSymbols.lookup p.1 = some p.2 := by decide
  exact hall _ h

/-- **Symbols over a whole session.** Whichever texts an assembler is given, and wherever their
passes stop: a binding stays as it is, the predefined symbols among them. The names that second
passes have bound correspond one to one to the cells from the first variable up to the next free
one. And a symbol that was resolved in one text stands for the same address in every later one. -/
theorem session_keeps_symbols (ts us : List Text) :
    (∀ name address, (session ts).lookup name = some address →
      (session (ts ++ us)).lookup name = some address) ∧
    (∀ name address, (name, address) ∈ predefinedSymbols →
      (session ts).lookup name = some address) ∧
    Set.BijOn (session ts).lookup {name | IsVariable ts name}
      (some '' Set.Ico firstVariable (session ts).nextVariable) ∧
    ∀ t u name address, (session ts).Resolves t name address →
      (∀ n, (session (ts ++ t :: us)).Resolves u name n → n = address) ∧
      ∀ rom, ((session (ts ++ t :: us)).assemble u).2 = .ok rom →
        ∀ before number after,
          ((session (ts ++ t :: us)).bindLabels 1 0 (Assembler.rawLines u)).2 =
              .ok (before ++ ⟨number, 64 :: name⟩ :: after) →
            rom[before.length]? = some (.address (Int16.ofNat address) number) := by
  refine ⟨session_extends ts us, fun name address hname => ?_, (fills_session ts).bijOn,
    fun t u name address hresolves => ?_⟩
  · exact session_extends [] ts name address (lookup_predefined hname)
  · -- the binding that the first text leaves is still there when the second one comes
    have hbound : (session (ts ++ t :: us)).lookup name = some address := by
      rw [List.append_cons]
      exact session_extends (ts ++ [t]) us name address
        (session_append_singleton ts t ▸ hresolves.lookup)
    refine ⟨fun n hn => hn.eq_of_lookup hbound, fun rom hrom before number after hlines => ?_⟩
    obtain ⟨n, hn, hword⟩ :=
      Assembler.exists_resolves_of_assemble hrom hresolves.1 hresolves.2.1 hlines
    rw [hword, hn.eq_of_lookup hbound]

/-- The first text stops in the second pass and the second one in the first pass. What they have
bound until then holds for the third. -/
theorem session_keeps_symbols_after_errors :
    let t := utf8 "(A)\n@x\n@A\nD=Q"
    let u := utf8 "(B)\n(A)"
    let v := utf8 "@y\n@x\n@B"
    (({} : Assembler).assemble t).2 = .error ⟨4, .invalidComputation (utf8 "Q")⟩ ∧
      ((session [t]).assemble u).2 = .error ⟨2, .duplicateLabel (utf8 "A")⟩ ∧
      (session []).Resolves t (utf8 "x") 16 ∧
      ((session [t, u]).assemble v).2 = .ok [.address 17 1, .address 16 2, .address 0 3] ∧
      ∀ n, (session [t, u]).Resolves v (utf8 "x") n → n = 16 := by
  intro t u v
  have hresolves : (session []).Resolves t (utf8 "x") 16 :=
    ⟨by decide, rfl, [], 2, [⟨3, utf8 "@A"⟩, ⟨4, utf8 "D=Q"⟩], _, [], rfl, rfl, rfl⟩
  obtain ⟨-, -, -, hlater⟩ := session_keeps_symbols [] [u]
  exact ⟨rfl, rfl, hresolves, rfl, (hlater t v (utf8 "x") 16 hresolves).1⟩

end HackVM
