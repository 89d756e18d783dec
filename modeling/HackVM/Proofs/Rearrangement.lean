import HackVM.Proofs.FlagReading

/-!
# Rearranging the arguments

Where an argument goes depends on nothing but itself and the argument before it (`isTaken`): a value
does not look like a flag, so it is never a flag for the argument after it. The flags with their
values are therefore the part of the arguments before the first `--` for which that test holds, and
the others are the rest of them (`split_eq_parts`), both in their order. In that order flags keep
their values and take no new ones, so a second rearrangement finds everything in its place
(`split_append_endOfFlags`).
-/

namespace HackVM

namespace Arguments

/-- The arguments before the first end of flags. -/
def beforeEnd (args : List Text) : List Text := args.takeWhile (· ≠ endOfFlags)

/-- The arguments after the first end of flags. -/
def afterEnd (args : List Text) : List Text := (args.dropWhile (· ≠ endOfFlags)).tail

/-- Is the argument a flag, or the value of a flag right before it? -/
def isTaken (previous arg : Text) : Bool :=
  isFlag arg || isFlag previous && takesNext previous && isValue arg

/-- Each argument with the one before it, the first one with the given one. -/
def withPrevious (previous : Text) (args : List Text) : List (Text × Text) :=
  (previous :: args).zip args

/-- The flags among the arguments with their values. -/
def flagPart (previous : Text) (args : List Text) : List Text :=
  ((withPrevious previous args).filter fun p => isTaken p.1 p.2).map Prod.snd

/-- The arguments that are neither flags nor values of flags. -/
def otherPart (previous : Text) (args : List Text) : List Text :=
  ((withPrevious previous args).filter fun p => !isTaken p.1 p.2).map Prod.snd

/-! ## The arguments around the end of flags -/

theorem beforeEnd_endOfFlags (rest : List Text) : beforeEnd (endOfFlags :: rest) = [] := by
  simp [beforeEnd]

theorem afterEnd_endOfFlags (rest : List Text) : afterEnd (endOfFlags :: rest) = rest := by
  simp [afterEnd]

theorem beforeEnd_cons {arg : Text} (h : arg ≠ endOfFlags) (rest : List Text) :
    beforeEnd (arg :: rest) = arg :: beforeEnd rest :=
  List.takeWhile_cons_of_pos (by simp [h])

theorem afterEnd_cons {arg : Text} (h : arg ≠ endOfFlags) (rest : List Text) :
    afterEnd (arg :: rest) = afterEnd rest := by
  rw [afterEnd, List.dropWhile_cons_of_pos (by simp [h]), afterEnd]

theorem erase_endOfFlags (args : List Text) :
    args.erase endOfFlags = beforeEnd args ++ afterEnd args := by
  induction args with
  | nil => rfl
  | cons arg rest ih =>
    by_cases harg : arg = endOfFlags
    · subst harg
      rw [List.erase_cons_head, beforeEnd_endOfFlags, afterEnd_endOfFlags, List.nil_append]
    · rw [List.erase_cons_tail (by simpa using harg), beforeEnd_cons harg, afterEnd_cons harg, ih,
        List.cons_append]

/-! ## The two parts -/

theorem flagPart_cons (previous arg : Text) (rest : List Text) :
    flagPart previous (arg :: rest) =
      if isTaken previous arg then arg :: flagPart arg rest else flagPart arg rest := by
  rw [flagPart, withPrevious, List.zip_cons_cons, List.filter_cons]
  split
  · rfl
  · rfl

theorem otherPart_cons (previous arg : Text) (rest : List Text) :
    otherPart previous (arg :: rest) =
      if isTaken previous arg then otherPart arg rest else arg :: otherPart arg rest := by
  rw [otherPart, withPrevious, List.zip_cons_cons, List.filter_cons]
  cases isTaken previous arg with
  | true => rfl
  | false => rfl

theorem map_snd_withPrevious (previous : Text) (args : List Text) :
    (withPrevious previous args).map Prod.snd = args :=
  List.map_snd_zip (by simp)

theorem map_snd_filter_sublist (p : Text × Text → Bool) (previous : Text) (args : List Text) :
    (((withPrevious previous args).filter p).map Prod.snd).Sublist args := by
  have h := (List.filter_sublist (p := p) (l := withPrevious previous args)).map Prod.snd
  rwa [map_snd_withPrevious] at h

theorem flagPart_append_otherPart_perm (previous : Text) (args : List Text) :
    (flagPart previous args ++ otherPart previous args).Perm args := by
  have h := (List.filter_append_perm (fun p => isTaken p.1 p.2) (withPrevious previous args)).map
    Prod.snd
  rwa [List.map_append, map_snd_withPrevious] at h

/-- Taking the flags out divides the arguments before the end of flags into the two parts, unless
they begin with the value of a flag before them. -/
theorem split_eq_parts (previous : Text) {args : List Text}
    (h : ∀ arg ∈ args.head?, (isFlag previous && takesNext previous && isValue arg) = false) :
    split args = (flagPart previous (beforeEnd args),
      otherPart previous (beforeEnd args) ++ afterEnd args) := by
  induction args using split_induction generalizing previous with
  | nil => rfl
  | finish rest =>
    rw [split_endOfFlags, beforeEnd_endOfFlags, afterEnd_endOfFlags]
    rfl
  | other arg rest hflag ih =>
    have hne := ne_endOfFlags_of_not_isFlag hflag
    have htaken : isTaken previous arg = false := by rw [isTaken, hflag, h arg rfl, Bool.or_self]
    rw [split_of_not_isFlag hflag, ih arg (by simp [hflag]), beforeEnd_cons hne, afterEnd_cons hne,
      flagPart_cons, otherPart_cons, htaken]
    rfl
  | flag arg rest hflag hne halone ih =>
    have htaken : isTaken previous arg = true := by rw [isTaken, hflag, Bool.true_or]
    rw [split_of_isFlag hflag hne halone, ih arg (by simpa [hflag] using halone),
      beforeEnd_cons hne, afterEnd_cons hne, flagPart_cons, otherPart_cons, htaken]
    rfl
  | valued arg value rest hflag hne htakes hvalue ih =>
    have hother : isFlag value = false := by
      by_contra hvalue'
      simp [isValue_of_isFlag (Bool.eq_true_of_not_eq_false hvalue')] at hvalue
    have hne' := ne_endOfFlags_of_not_isFlag hother
    have htaken : isTaken previous arg = true := by rw [isTaken, hflag, Bool.true_or]
    have htaken' : isTaken arg value = true := by simp [isTaken, hflag, htakes, hvalue]
    rw [split_of_value hflag hne htakes hvalue, ih value (by simp [hother]), beforeEnd_cons hne,
      beforeEnd_cons hne', afterEnd_cons hne, afterEnd_cons hne', flagPart_cons, flagPart_cons,
      otherPart_cons, otherPart_cons, htaken, htaken']
    rfl

/-! ## A second rearrangement -/

/-- The flags that are taken out begin with a flag, and so does what is put after them. -/
theorem isFlag_of_mem_head? (args rest : List Text) :
    ∀ arg ∈ ((split args).1 ++ endOfFlags :: rest).head?, isFlag arg = true := by
  intro arg harg
  induction args using split_induction with
  | nil =>
    cases harg
    exact isFlag_endOfFlags
  | finish more =>
    rw [split_endOfFlags] at harg
    cases harg
    exact isFlag_endOfFlags
  | other first more hflag ih =>
    rw [split_of_not_isFlag hflag] at harg
    exact ih harg
  | flag first more hflag hne halone _ =>
    rw [split_of_isFlag hflag hne halone] at harg
    cases harg
    exact hflag
  | valued first value more hflag hne htakes hvalue _ =>
    rw [split_of_value hflag hne htakes hvalue] at harg
    cases harg
    exact hflag

/-- The flags that are taken out are found again before an end of flags. -/
theorem split_append_endOfFlags (args rest : List Text) :
    split ((split args).1 ++ endOfFlags :: rest) = ((split args).1, rest) := by
  induction args using split_induction with
  | nil => exact split_endOfFlags rest
  | finish more =>
    rw [split_endOfFlags]
    exact split_endOfFlags rest
  | other first more hflag ih => rwa [split_of_not_isFlag hflag]
  | flag first more hflag hne halone ih =>
    -- without the others, the next argument is a flag again, and no value for this one
    have halone' : ∀ value ∈ ((split more).1 ++ endOfFlags :: rest).head?,
        (takesNext first && isValue value) = false := by
      intro value hvalue
      rw [isValue_of_isFlag (isFlag_of_mem_head? more rest value hvalue), Bool.and_false]
    rw [split_of_isFlag hflag hne halone, List.cons_append, split_of_isFlag hflag hne halone', ih]
  | valued first value more hflag hne htakes hvalue ih =>
    rw [split_of_value hflag hne htakes hvalue, List.cons_append, List.cons_append,
      split_of_value hflag hne htakes hvalue, ih]

theorem reorder_reorder (args : List Text) : reorder (reorder args) = reorder args := by
  have hfirst : reorder args = (split args).1 ++ endOfFlags :: (split args).2 :=
    reorder_of_split rfl
  rw [hfirst]
  exact reorder_of_split (split_append_endOfFlags args (split args).2)

/-- **Reordering loses nothing and is stable.** The result is the flags with their values, `--` and
the other arguments, among them all that come after the first `--`. Both parts keep the order of
the arguments, and together they are the arguments without the first `--`. Reordering once more
changes nothing. -/
theorem reorder_stable (args : List Text) :
    let flags := flagPart [] (beforeEnd args)
    let others := otherPart [] (beforeEnd args) ++ afterEnd args
    reorder args = flags ++ [endOfFlags] ++ others ∧
    flags.Sublist (args.erase endOfFlags) ∧ others.Sublist (args.erase endOfFlags) ∧
    (flags ++ others).Perm (args.erase endOfFlags) ∧
    reorder (reorder args) = reorder args := by
  intro flags others
  have hsplit : split args = (flags, others) := split_eq_parts [] (by simp [isFlag])
  rw [erase_endOfFlags]
  refine ⟨?_, ?_, ?_, ?_, reorder_reorder args⟩
  · rw [reorder_of_split hsplit, List.append_cons]
  · exact (map_snd_filter_sublist _ [] _).trans (List.sublist_append_left _ _)
  · exact (map_snd_filter_sublist _ [] _).append (List.Sublist.refl _)
  · rw [← List.append_assoc]
    exact (flagPart_append_otherPart_perm [] _).append_right _

example : reorder [utf8 "a.vm", utf8 "-o", utf8 "", utf8 "-l", utf8 "warn", utf8 "-", utf8 "--",
    utf8 "-k", utf8 "--"] = [utf8 "-o", utf8 "-l", utf8 "warn", utf8 "--", utf8 "a.vm", utf8 "",
    utf8 "-", utf8 "-k", utf8 "--"] := by decide

end Arguments

end HackVM
