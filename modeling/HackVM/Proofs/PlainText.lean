import Mathlib
import HackVM.Assembly.Block
import HackVM.Computer.Assembler

/-!
# Plain text

Names, numbers and computations are written with printable ASCII characters other than the slash.
Such a text holds no white space, no comment and no line end, so the assembler reads it as it
stands (`codeText_of_plain`). Different numbers are written differently (`ofNat_injective`,
`ofInt_injective`).
-/

namespace HackVM

namespace Text

/-- Is the byte a printable ASCII character other than the slash? -/
def isPlainByte (b : UInt8) : Bool := 33 ≤ b && b ≤ 126 && b != 47

/-- All bytes are printable ASCII characters other than the slash. -/
def Plain (t : Text) : Prop := ∀ b ∈ t, isPlainByte b = true

instance (t : Text) : Decidable t.Plain := List.decidableBAll (fun b => isPlainByte b = true) t

theorem Plain.append {s t : Text} (hs : s.Plain) (ht : t.Plain) : (s ++ t).Plain := by
  intro b hb
  rcases List.mem_append.1 hb with hb | hb
  · exact hs b hb
  · exact ht b hb

theorem Plain.not_mem {t : Text} (h : t.Plain) {b : UInt8} (hb : isPlainByte b = false) : b ∉ t :=
  fun hmem => by simp [h b hmem] at hb

/-! ## Removing white space -/

theorem toNat_ofNat_ascii {b : UInt8} (hb : b.toNat < 128) :
    (Char.ofNat b.toNat).toNat = b.toNat := by
  have hvalid : b.toNat.isValidChar := Or.inl (by omega)
  rw [Char.ofNat, dif_pos hvalid]
  simp [Char.ofNatAux, Char.toNat]

/-- A byte below 128 is a character of its own. -/
theorem leadChar?_ascii {b : UInt8} (hb : b.toNat < 128) (t : Text) :
    leadChar? (b :: t) = some (Char.ofNat b.toNat) := by
  have hval : (Char.ofNat b.toNat).val.toNat = b.toNat := toNat_ofNat_ascii hb
  have henc : String.utf8EncodeChar (Char.ofNat b.toNat) = [b] := by
    rw [String.utf8EncodeChar, hval, if_pos (by omega)]
    simp
  rw [← List.singleton_append, ← henc]
  exact leadChar?_utf8EncodeChar_append _ _

theorem runes_cons_ascii {b : UInt8} (hb : b.toNat < 128) (t : Text) :
    runes (b :: t) = .scalar (Char.ofNat b.toNat) :: runes t := by
  have hval : (Char.ofNat b.toNat).val.toNat = b.toNat := toNat_ofNat_ascii hb
  have hsize : (Char.ofNat b.toNat).utf8Size = 1 := by
    rw [Char.utf8Size_eq_one_iff, UInt32.le_iff_toNat_le, hval]
    exact Nat.le_of_lt_succ hb
  rw [runes, runesAfter, leadChar?_ascii hb]
  simp [hsize, runes]

theorem isBlank_of_mem_runes_of_plain {t : Text} (h : t.Plain) :
    ∀ r ∈ t.runes, r.isBlank = false := by
  induction t with
  | nil => simp [runes, runesAfter]
  | cons b t ih =>
    have hb := h b (by simp)
    simp only [isPlainByte, Bool.and_eq_true, decide_eq_true_eq, UInt8.le_iff_toNat_le] at hb
    have hlow : 33 ≤ b.toNat := hb.1.1
    have hhigh : b.toNat ≤ 126 := hb.1.2
    rw [runes_cons_ascii (by omega)]
    intro r hr
    rcases List.mem_cons.1 hr with rfl | hr
    · simp only [Rune.isBlank, toNat_ofNat_ascii (b := b) (by omega), isBlankCode]
      simp
      omega
    · exact ih (fun c hc => h c (by simp [hc])) r hr

theorem squeeze_of_plain {t : Text} (h : t.Plain) : t.squeeze = t := by
  rw [squeeze, List.filter_eq_self.2 fun r hr => by simp [isBlank_of_mem_runes_of_plain h r hr],
    ofRunes_runes]

theorem cut?_eq_none_of_not_mem {c : UInt8} {mark t : Text} (h : c ∉ t) :
    cut? (c :: mark) t = none := by
  cases hcut : cut? (c :: mark) t with
  | none => rfl
  | some parts =>
    obtain ⟨before, after⟩ := parts
    have := cut?_eq_some hcut
    exact absurd (by simp [this]) h

theorem dropEnding_append (t ending : Text) : dropEnding ending (t ++ ending) = t := by
  have hends : ending.isSuffixOf (t ++ ending) = true :=
    List.isSuffixOf_iff_suffix.2 (List.suffix_append t ending)
  rw [dropEnding, if_pos hends]
  simp

theorem joinLineEnds_of_not_mem {t : Text} (h : carriageReturn ∉ t) : joinLineEnds t = t := by
  induction t with
  | nil => rfl
  | cons b t ih =>
    have hb : b ≠ carriageReturn := fun hb => h (by simp [hb])
    rw [joinLineEnds, if_neg fun hand => hb hand.1, ih fun hmem => h (by simp [hmem])]

/-- A line end of one character stays, and the lines before and after it do not affect each
other. -/
theorem joinLineEnds_append_lineFeed {s : Text} (hfeed : lineFeed ∉ s)
    (hlast : s.getLast? ≠ some carriageReturn) (t : Text) :
    joinLineEnds (s ++ lineFeed :: t) = s ++ lineFeed :: joinLineEnds t := by
  induction s with
  | nil => rw [List.nil_append, joinLineEnds, if_neg (by simp [lineFeed, carriageReturn]),
      List.nil_append]
  | cons b s ih =>
    have hkeep : ¬ (b = carriageReturn ∧ (s ++ lineFeed :: t).head? = some lineFeed) := by
      rintro ⟨rfl, hhead⟩
      cases s with
      | nil => exact hlast rfl
      | cons c s => exact hfeed (by simp [Option.some.inj hhead])
    have hrest : s.getLast? ≠ some carriageReturn := by
      intro h
      cases s with
      | nil => cases h
      | cons c s => exact hlast (by rwa [List.getLast?_cons_cons])
    rw [List.cons_append, joinLineEnds, if_neg hkeep, ih (fun h => hfeed (by simp [h])) hrest,
      List.cons_append]

/-! ## Numbers -/

theorem plain_ofNat (n : Nat) : (ofNat n).Plain := by
  intro b hb
  have := isDigit_of_mem_ofNat hb
  simp only [isDigit, isPlainByte, Bool.and_eq_true, decide_eq_true_eq, UInt8.le_iff_toNat_le,
    bne_iff_ne, ne_eq, ← UInt8.toNat_inj] at this ⊢
  simp at this ⊢
  omega

theorem plain_ofInt (n : Int) : (ofInt n).Plain := by
  unfold ofInt
  split
  · intro b hb
    rcases List.mem_cons.1 hb with rfl | hb
    · decide
    · exact plain_ofNat _ b hb
  · exact plain_ofNat _

theorem ofNat_injective : Function.Injective ofNat := by
  intro m n h
  have := congrArg value? h
  simpa using this

theorem ofNat_ne_nil (n : Nat) : ofNat n ≠ [] := by
  simp [ofNat, Nat.toDigits_ne_nil]

theorem ofNat_ne_minus (m : Nat) (t : Text) : ofNat m ≠ 45 :: t := by
  intro h
  have : isDigit 45 := isDigit_of_mem_ofNat (n := m) (by simp [h])
  simp [isDigit] at this

theorem ofInt_injective : Function.Injective ofInt := by
  intro m n h
  unfold ofInt at h
  split at h <;> split at h
  · have := ofNat_injective (List.cons.inj h).2
    omega
  · exact absurd h.symm (ofNat_ne_minus _ _)
  · exact absurd h (ofNat_ne_minus _ _)
  · have := ofNat_injective h
    omega

theorem ofInt_natCast (n : Nat) : ofInt n = ofNat n := by
  simp [ofInt]

theorem startsWithDigit_ofNat (n : Nat) : startsWithDigit (ofNat n) = true := by
  cases h : ofNat n with
  | nil => exact absurd h (ofNat_ne_nil n)
  | cons b t => simpa [startsWithDigit] using isDigit_of_mem_ofNat (n := n) (b := b) (by simp [h])

end Text

theorem Command.plain_word (c : Command) : c.word.Plain := by
  rcases c with _ | _ | (_ | _) | (_ | _ | _ | _) | (_ | _ | _) <;> decide

theorem Command.word_ne_nil (c : Command) : c.word ≠ [] := by
  rcases c with _ | _ | (_ | _) | (_ | _ | _ | _) | (_ | _ | _) <;> decide

theorem Segment.plain_word (s : Segment) : s.word.Plain := by
  rcases s with _ | ((_ | _ | _ | _) | _ | _ | _) <;> decide

theorem Segment.word_ne_nil (s : Segment) : s.word ≠ [] := by
  rcases s with _ | ((_ | _ | _ | _) | _ | _ | _) <;> decide

theorem codeText_of_plain {t : Text} (h : t.Plain) : codeText t = t := by
  have hcut : Text.cut? (utf8 "//") t = none :=
    Text.cut?_eq_none_of_not_mem (h.not_mem (by decide))
  rw [codeText, hcut]
  exact Text.squeeze_of_plain h

theorem codeText_comment (t : Text) : codeText (AsmLine.comment t).text = [] := by
  rfl

end HackVM
