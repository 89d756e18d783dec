import HackVM.Proofs.Grammar

/-!
# Scanning

The tokens of a line are the maximal runs of runes that are not white space, in the order in which
they stand in the line (`tokens_are_maximal_runs`). A run is a way to cut the runes into three
parts, `Rune.IsMaximalRun`; white space at the front belongs to the first part
(`isMaximalRun_blanks_append_iff`), and a word at the front is a run itself or belongs to the first
part (`isMaximalRun_word_append_iff`). A scanner passes over white space and a word at each call
that yields a token, so its tokens are the runs in what is left of the line (`mem_tokens_iff`).

The calls of a scanner are numbered (`Scanner.call`). They yield the tokens one after the other, and
after the last one the scanner stays at the end of the line (`call_of_length_le`). The calls of a
lexer find the same (`Lexer.Follows.call`).
-/

namespace HackVM

namespace Rune

/-! ## Maximal runs -/

/-- The runes are cut into three parts, and the one in the middle is a maximal run of runes that are
not white space. -/
structure IsMaximalRun (rs front word back : List Rune) : Prop where
  eq_append : rs = front ++ (word ++ back)
  ne_nil : word ≠ []
  not_blank : ∀ r ∈ word, r.isBlank = false
  blank_before : ∀ r ∈ front.getLast?, r.isBlank = true
  blank_after : ∀ r ∈ back.head?, r.isBlank = true

theorem IsMaximalRun.head?_eq {rs word back : List Rune} (h : IsMaximalRun rs [] word back) :
    ∃ r, rs.head? = some r ∧ r.isBlank = false := by
  obtain ⟨r, w, hw⟩ := List.exists_cons_of_ne_nil h.ne_nil
  refine ⟨r, ?_, h.not_blank r (by simp [hw])⟩
  rw [h.eq_append, hw]
  rfl

theorem IsMaximalRun.of_append_left {p rs front word back : List Rune}
    (h : IsMaximalRun (p ++ rs) (p ++ front) word back) :
    IsMaximalRun rs front word back := by
  refine ⟨?_, h.ne_nil, h.not_blank, fun r hr => h.blank_before r ?_, h.blank_after⟩
  · exact List.append_cancel_left (h.eq_append.trans (List.append_assoc ..))
  · rw [Option.mem_def] at hr ⊢
    rw [List.getLast?_append, hr]
    rfl

/-- Runes that are put in front leave a run maximal, if they do not join it. -/
theorem IsMaximalRun.append_left {rs front word back : List Rune}
    (h : IsMaximalRun rs front word back) {p : List Rune}
    (hp : front = [] → ∀ r ∈ p.getLast?, r.isBlank = true) :
    IsMaximalRun (p ++ rs) (p ++ front) word back := by
  refine ⟨by rw [h.eq_append, List.append_assoc], h.ne_nil, h.not_blank, fun r hr => ?_,
    h.blank_after⟩
  cases hlast : front.getLast? with
  | some last =>
    rw [Option.mem_def, List.getLast?_append, hlast] at hr
    exact h.blank_before r (hlast ▸ hr)
  | none =>
    obtain rfl := List.getLast?_eq_none_iff.1 hlast
    rw [List.append_nil] at hr
    exact hp rfl r hr

theorem isMaximalRun_cons_iff {r : Rune} (hr : r.isBlank = true) {rs front word back : List Rune} :
    IsMaximalRun (r :: rs) front word back ↔
      ∃ front', front = r :: front' ∧ IsMaximalRun rs front' word back := by
  constructor
  · intro h
    cases front with
    | nil =>
      obtain ⟨r', hr', hblank⟩ := h.head?_eq
      cases hr'
      simp [hr] at hblank
    | cons r' front' =>
      obtain ⟨rfl, -⟩ := List.cons.inj h.eq_append
      exact ⟨front', rfl, h.of_append_left (p := [r])⟩
  · rintro ⟨front', rfl, h⟩
    exact h.append_left (p := [r]) fun _ s hs => Option.some.inj hs ▸ hr

/-- White space at the front belongs to no run. -/
theorem isMaximalRun_blanks_append_iff {blanks : List Rune}
    (hblanks : ∀ r ∈ blanks, r.isBlank = true) {rs front word back : List Rune} :
    IsMaximalRun (blanks ++ rs) front word back ↔
      ∃ front', front = blanks ++ front' ∧ IsMaximalRun rs front' word back := by
  induction blanks generalizing front with
  | nil => simp
  | cons r blanks ih =>
    rw [List.cons_append, isMaximalRun_cons_iff (hblanks r (by simp))]
    simp only [ih fun s hs => hblanks s (by simp [hs])]
    constructor
    · rintro ⟨_, rfl, front', rfl, h⟩
      exact ⟨front', rfl, h⟩
    · rintro ⟨front', rfl, h⟩
      exact ⟨_, rfl, front', rfl, h⟩

theorem takeWhile_word_append {word back : List Rune} (hword : ∀ r ∈ word, r.isBlank = false)
    (hback : ∀ r ∈ back.head?, r.isBlank = true) :
    (word ++ back).takeWhile (fun r => !r.isBlank) = word := by
  rw [List.takeWhile_append_of_pos (by simpa using hword)]
  cases back with
  | nil => simp
  | cons r back => simp [hback r rfl]

/-- A word at the front is the first run, and the others stand behind it. -/
theorem isMaximalRun_word_append_iff {w rest : List Rune} (hne : w ≠ [])
    (hword : ∀ r ∈ w, r.isBlank = false) (hrest : ∀ r ∈ rest.head?, r.isBlank = true)
    {front word back : List Rune} :
    IsMaximalRun (w ++ rest) front word back ↔
      (front = [] ∧ word = w ∧ back = rest) ∨
        ∃ front', front = w ++ front' ∧ IsMaximalRun rest front' word back := by
  constructor
  · intro h
    rcases List.append_eq_append_iff.1 h.eq_append with ⟨front', rfl, -⟩ | ⟨w', hw, -⟩
    · exact .inr ⟨front', rfl, h.of_append_left⟩
    · -- a part before that ends inside `w` would end with a rune that is not white space
      cases hlast : front.getLast? with
      | some r =>
        have hmem : r ∈ w := hw ▸ List.mem_append_left _ (List.mem_of_getLast? hlast)
        simpa [hword r hmem] using h.blank_before r hlast
      | none =>
        obtain rfl := List.getLast?_eq_none_iff.1 hlast
        have hsplit : w ++ rest = word ++ back := h.eq_append
        have hsame : word = w := by
          rw [← takeWhile_word_append h.not_blank h.blank_after, ← hsplit,
            takeWhile_word_append hword hrest]
        rw [hsame] at hsplit
        exact .inl ⟨rfl, hsame, (List.append_cancel_left hsplit).symm⟩
  · rintro (⟨rfl, rfl, rfl⟩ | ⟨front', rfl, h⟩)
    · exact ⟨rfl, hne, hword, by simp, hrest⟩
    · -- what stands behind the word begins with white space, so no run can
      refine h.append_left fun hfront => ?_
      subst hfront
      obtain ⟨first, hfirst, hblank⟩ := h.head?_eq
      simp [hrest first hfirst] at hblank

end Rune

namespace Scanner

/-! ## The tokens of a scanner -/

/-- The tokens of a scanner are the maximal runs in what is left of the line, at their columns. -/
theorem mem_tokens_iff {s : Scanner} {tok : Token} :
    tok ∈ s.tokens ↔ ∃ front word back, Rune.IsMaximalRun s.rest front word back ∧
      tok = ⟨Text.ofRunes word, s.column + front.length⟩ := by
  induction s using Scanner.tokens.induct generalizing tok with
  | case1 s s' h =>
    obtain ⟨hblank, -⟩ := eq_of_next_eq_none h
    rw [tokens_of_next_eq_none h]
    simp only [List.not_mem_nil, false_iff]
    rintro ⟨front, word, back, hrun, -⟩
    obtain ⟨r, hr⟩ := List.exists_mem_of_ne_nil _ hrun.ne_nil
    have hmem : r ∈ s.rest := by
      rw [hrun.eq_append]
      simp [hr]
    simpa [hrun.not_blank r hr] using hblank r hmem
  | case2 s tok' s' h ih =>
    obtain ⟨blanks, w, hsplit, hblanks, hne, hword, hrest, htok, hcolumn⟩ := eq_of_next_eq_some h
    rw [tokens_of_next_eq_some h, List.mem_cons, ih, hsplit]
    simp only [Rune.isMaximalRun_blanks_append_iff hblanks,
      Rune.isMaximalRun_word_append_iff hne hword hrest]
    constructor
    · rintro (rfl | ⟨front, word, back, hrun, rfl⟩)
      · exact ⟨_, w, s'.rest, ⟨[], rfl, .inl ⟨rfl, rfl, rfl⟩⟩, by simpa using htok⟩
      · refine ⟨_, word, back, ⟨_, rfl, .inr ⟨front, rfl, hrun⟩⟩, ?_⟩
        simp only [hcolumn, List.length_append, Token.mk.injEq, true_and]
        omega
    · rintro ⟨_, word, back, ⟨_, rfl, ⟨rfl, rfl, rfl⟩ | ⟨front, rfl, hrun⟩⟩, rfl⟩
      · exact .inl (by simpa using htok.symm)
      · refine .inr ⟨front, word, back, hrun, ?_⟩
        simp only [hcolumn, List.length_append, Token.mk.injEq, true_and]
        omega

theorem pairwise_column_tokens (s : Scanner) :
    s.tokens.Pairwise fun tok tok' => tok.column < tok'.column := by
  induction s using Scanner.tokens.induct with
  | case1 s s' h =>
    rw [tokens_of_next_eq_none h]
    exact List.Pairwise.nil
  | case2 s tok s' h ih =>
    obtain ⟨blanks, w, -, -, hne, -, -, rfl, hcolumn⟩ := eq_of_next_eq_some h
    have hpos := List.length_pos_iff.2 hne
    rw [tokens_of_next_eq_some h]
    refine List.Pairwise.cons (fun tok' htok' => ?_) ih
    -- all later tokens begin at the scanner's new column or behind it
    obtain ⟨front, word, back, -, rfl⟩ := mem_tokens_iff.1 htok'
    simp only
    omega

/-! ## Call after call -/

/-- What a scanner yields at the call with the given number, counted from zero. -/
def call (s : Scanner) : Nat → Option Token × Scanner
  | 0 => s.next
  | n + 1 => s.next.2.call n

theorem fst_call (s : Scanner) (n : Nat) : (s.call n).1 = s.tokens[n]? := by
  induction n generalizing s with
  | zero =>
    rw [call]
    rcases h : s.next with ⟨_ | tok, s'⟩
    · rw [tokens_of_next_eq_none h]
      rfl
    · rw [tokens_of_next_eq_some h]
      rfl
  | succ n ih =>
    rw [call, ih]
    rcases h : s.next with ⟨_ | tok, s'⟩
    · obtain ⟨-, rfl⟩ := eq_of_next_eq_none h
      rw [tokens_of_next_eq_none h, tokens_of_next_eq_none (s := ⟨[], _⟩) rfl]
      rfl
    · rw [tokens_of_next_eq_some h]
      rfl

/-- After its last token a scanner stays at the end of the line. -/
theorem call_of_length_le {s : Scanner} {n : Nat} (hn : s.tokens.length ≤ n) :
    s.call n = (none, ⟨[], s.column + s.rest.length⟩) := by
  induction n generalizing s with
  | zero =>
    rw [call]
    rcases h : s.next with ⟨_ | tok, s'⟩
    · rw [(eq_of_next_eq_none h).2]
    · rw [tokens_of_next_eq_some h] at hn
      cases hn
  | succ n ih =>
    rw [call]
    rcases h : s.next with ⟨_ | tok, s'⟩
    · obtain ⟨-, rfl⟩ := eq_of_next_eq_none h
      exact ih (s := ⟨[], _⟩) (by rw [tokens_of_next_eq_none (s := ⟨[], _⟩) rfl]; exact n.zero_le)
    · obtain ⟨blanks, w, hsplit, -, -, -, -, -, hcolumn⟩ := eq_of_next_eq_some h
      rw [tokens_of_next_eq_some h, List.length_cons] at hn
      have hend : s'.column + s'.rest.length = s.column + s.rest.length := by
        rw [hsplit, hcolumn, List.length_append, List.length_append]
        omega
      rw [← hend]
      exact ih (Nat.le_of_succ_le_succ hn)

end Scanner

namespace Lexer

/-- What a lexer finds at the call with the given number, counted from zero. -/
def call (l : Lexer) : Nat → Lexeme × Lexer
  | 0 => l.next
  | n + 1 => l.next.2.call n

theorem Follows.call {l : Lexer} {before : List Rune} {s : Scanner} (h : l.Follows before s)
    (n : Nat) : (l.call n).1 = (s.call n).1.elim (.lineEnd (s.call n).2.column) .token := by
  induction n generalizing l before s with
  | zero => exact h.next.1
  | succ n ih =>
    obtain ⟨-, before', hnext⟩ := h.next
    exact ih hnext

end Lexer

/-! ## The tokens of a line -/

theorem mem_tokenize_iff {t : Text} {tok : Token} :
    tok ∈ tokenize t ↔ ∃ before after : Text, t = before ++ tok.literal ++ after ∧
      Rune.IsMaximalRun t.runes before.runes tok.literal.runes after.runes ∧
      tok.column = before.runeCount + 1 := by
  rw [tokenize_eq_tokens, Scanner.mem_tokens_iff]
  constructor
  · rintro ⟨front, word, back, hrun, rfl⟩
    obtain ⟨hfront, hrest⟩ := Text.runes_ofRunes_of_append hrun.eq_append
    obtain ⟨hword, hback⟩ := Text.runes_ofRunes_of_append hrest
    refine ⟨Text.ofRunes front, Text.ofRunes back, ?_, ?_, ?_⟩
    · rw [← Text.ofRunes_append, ← Text.ofRunes_append, List.append_assoc, ← hrun.eq_append]
      exact (Text.ofRunes_runes t).symm
    · rw [hfront, hword, hback]
      exact hrun
    · rw [Text.runeCount, hfront, Nat.add_comm]
      rfl
  · rintro ⟨before, after, -, hrun, hcolumn⟩
    refine ⟨before.runes, tok.literal.runes, after.runes, hrun, ?_⟩
    obtain ⟨literal, column⟩ := tok
    obtain rfl : column = before.runeCount + 1 := hcolumn
    rw [Text.ofRunes_runes, Nat.add_comm]
    rfl

theorem call_start_of_getElem? {t : Text} {n : Nat} {tok : Token}
    (h : (tokenize t)[n]? = some tok) :
    ((Lexer.start t).call n).1 = .token tok := by
  rw [tokenize_eq_tokens, ← Scanner.fst_call] at h
  rw [(Lexer.follows_start t).call, h]
  rfl

theorem call_start_of_length_le {t : Text} {n : Nat} (h : (tokenize t).length ≤ n) :
    ((Lexer.start t).call n).1 = .lineEnd (t.runeCount + 1) := by
  rw [tokenize_eq_tokens] at h
  rw [(Lexer.follows_start t).call, Scanner.call_of_length_le h]
  exact congrArg Lexeme.lineEnd (Nat.add_comm 1 _)

/-- **The tokens of a line are its maximal runs of runes that are not white space**, whatever its
bytes are: they stand in the line in this order, each at the column after the runes before it. A
token is a number if all its bytes are digits. Call after call a lexer finds the tokens, and every
call after the last one finds the end of the line, at the column after all its runes. -/
theorem tokens_are_maximal_runs (t : Text) :
    (∀ tok, tok ∈ tokenize t ↔ ∃ before after : Text, t = before ++ tok.literal ++ after ∧
      Rune.IsMaximalRun t.runes before.runes tok.literal.runes after.runes ∧
      tok.column = before.runeCount + 1) ∧
    (tokenize t).Pairwise (fun tok tok' => tok.column < tok'.column) ∧
    (∀ tok : Token, tok.isNumber = true ↔ ∀ b ∈ tok.literal, b ∈ utf8 "0123456789") ∧
    (∀ n tok, (tokenize t)[n]? = some tok → ((Lexer.start t).call n).1 = .token tok) ∧
    ∀ n, (tokenize t).length ≤ n →
      ((Lexer.start t).call n).1 = .lineEnd (t.runeCount + 1) := by
  refine ⟨fun _ => mem_tokenize_iff, ?_, fun _ => Token.isNumber_iff,
    fun _ _ => call_start_of_getElem?, fun _ => call_start_of_length_le⟩
  rw [tokenize_eq_tokens]
  exact Scanner.pairwise_column_tokens _

/-- A zero byte, a number between a wide space and a space, and a word that begins with two bytes of
a character whose third byte is missing; white space stands at the end. -/
theorem tokens_are_maximal_runs_broken_character :
    let t : Text := [0, 0xE3, 0x80, 0x80, 52, 50, 32, 0xE3, 0x80, 97, 0xC2, 0x85]
    tokenize t = [⟨[0], 1⟩, ⟨[52, 50], 3⟩, ⟨[0xE3, 0x80, 97], 6⟩] ∧ t.runeCount = 9 ∧
      ((Lexer.start t).call 1).1 = .token ⟨[52, 50], 3⟩ ∧
      (tokenize t).length ≤ 5 ∧ ((Lexer.start t).call 5).1 = .lineEnd 10 := by
  intro t
  have htokens : tokenize t = [⟨[0], 1⟩, ⟨[52, 50], 3⟩, ⟨[0xE3, 0x80, 97], 6⟩] := by decide +kernel
  have hcount : t.runeCount = 9 := by decide +kernel
  have hlength : (tokenize t).length ≤ 5 := by
    rw [htokens]
    decide
  obtain ⟨-, -, -, hfound, hend⟩ := tokens_are_maximal_runs t
  refine ⟨htokens, hcount, hfound 1 _ (by rw [htokens]; rfl), hlength, ?_⟩
  rw [hend 5 hlength, hcount]

end HackVM
