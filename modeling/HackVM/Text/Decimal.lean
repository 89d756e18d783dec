import HackVM.Text.Basic

/-!
# Decimal numbers

Numbers are written in decimal without superfluous zeros, a minus sign standing before a negative
one. Reading takes any number of leading zeros; `value?_ofNat` says that what is written reads
back.
-/

namespace HackVM

namespace Text

/-- The decimal digits of a natural number. -/
def ofNat (n : Nat) : Text := (Nat.toDigits 10 n).map fun c => c.toNat.toUInt8

/-- The decimal digits of an integer, after a minus sign if it is negative. -/
def ofInt (n : Int) : Text := if n < 0 then 45 :: ofNat n.natAbs else ofNat n.natAbs

/-- Is the byte one of the digits `0` to `9`? -/
def isDigit (b : UInt8) : Bool := 48 ≤ b && b ≤ 57

/-- The value of a text of digits. -/
def value (t : Text) : Nat := t.foldl (fun n b => 10 * n + (b.toNat - 48)) 0

/-- The value of a text that consists of digits only, and of at least one. -/
def value? (t : Text) : Option Nat :=
  if t ≠ [] ∧ t.all isDigit then some t.value else none

/-- The number right-aligned in a field of the given width. -/
def padNat (width n : Nat) : Text :=
  let digits := ofNat n
  List.replicate (width - digits.length) 32 ++ digits

theorem value_map_digits (cs : List Char) (h : ∀ c ∈ cs, c.isDigit) (n : Nat) :
    (cs.map fun c => c.toNat.toUInt8).foldl (fun n b => 10 * n + (b.toNat - 48)) n =
      Nat.ofDigitChars 10 cs n := by
  induction cs generalizing n with
  | nil => simp
  | cons c cs ih =>
    have hc : c.isDigit := h c (by simp)
    have hlt : c.toNat < 256 := by
      simp only [Char.isDigit, Bool.and_eq_true, decide_eq_true_eq] at hc
      have := UInt32.le_iff_toNat_le.1 hc.2
      simp at this
      omega
    rw [List.map_cons, List.foldl_cons, ih (fun d hd => h d (by simp [hd])),
      Nat.ofDigitChars_cons]
    simp [Nat.mod_eq_of_lt hlt]

theorem isDigit_of_mem_ofNat {n : Nat} {b : UInt8} (h : b ∈ ofNat n) : isDigit b := by
  obtain ⟨c, hc, rfl⟩ := List.mem_map.1 h
  have hd := Nat.isDigit_of_mem_toDigits (by decide) (by decide) hc
  simp only [Char.isDigit, Bool.and_eq_true, decide_eq_true_eq] at hd
  have h1 := UInt32.le_iff_toNat_le.1 hd.1
  have h2 := UInt32.le_iff_toNat_le.1 hd.2
  simp only [isDigit, Bool.and_eq_true, decide_eq_true_eq, UInt8.le_iff_toNat_le]
  simp at h1 h2 ⊢
  omega

/-- What is written reads back. -/
@[simp]
theorem value?_ofNat (n : Nat) : value? (ofNat n) = some n := by
  have hne : ofNat n ≠ [] := by simp [ofNat, Nat.toDigits_ne_nil]
  have hall : (ofNat n).all isDigit = true := List.all_eq_true.2 fun _ => isDigit_of_mem_ofNat
  rw [value?, if_pos ⟨hne, hall⟩, value, ofNat, value_map_digits _ fun c hc =>
    Nat.isDigit_of_mem_toDigits (by decide) (by decide) hc, Nat.ofDigitChars_ten_toDigits]

end Text

end HackVM
