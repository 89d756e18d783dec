import HackVM.Proofs.FlagPlacement

/-!
# A flag without its value

A flag at the end of the arguments that still needs a value finds one: the `--` that is put after
the flags. It is rejected only if that is no good as a value, or if the arguments before it are
rejected already (`parse_append_value_flag`). As the path of an output `--` is as good as any other.
-/

namespace HackVM

namespace Arguments

/-! ## One more flag at the end -/

/-- Without an end of flags among the arguments, what is not taken out is no flag. -/
theorem isFlag_of_mem_split {args : List Text} (hend : endOfFlags ∉ args) :
    ∀ arg ∈ (split args).2, isFlag arg = false := by
  induction args using split_induction with
  | nil => simp [split]
  | finish rest => simp at hend
  | other first rest hflag ih =>
    rw [List.mem_cons, not_or] at hend
    rw [split_of_not_isFlag hflag, List.forall_mem_cons]
    exact ⟨hflag, ih hend.2⟩
  | flag first rest hflag hne halone ih =>
    rw [List.mem_cons, not_or] at hend
    rw [split_of_isFlag hflag hne halone]
    exact ih hend.2
  | valued first value rest hflag hne htakes hvalue ih =>
    simp only [List.mem_cons, not_or] at hend
    rw [split_of_value hflag hne htakes hvalue]
    exact ih hend.2.2

/-- A flag at the end is taken out as the last one. -/
theorem split_append_flag {arg : Text} (harg : isFlag arg = true) (hne : arg ≠ endOfFlags)
    {front : List Text} (hend : endOfFlags ∉ front) :
    split (front ++ [arg]) = ((split front).1 ++ [arg], (split front).2) := by
  have hvalue : isValue arg = false := isValue_of_isFlag harg
  induction front using split_induction with
  | nil => exact split_of_isFlag harg hne (fun _ h => by cases h)
  | finish rest => simp at hend
  | other first rest hflag ih =>
    rw [List.mem_cons, not_or] at hend
    rw [List.cons_append, split_of_not_isFlag hflag, split_of_not_isFlag hflag, ih hend.2]
  | flag first rest hflag hne' halone ih =>
    rw [List.mem_cons, not_or] at hend
    have halone' : ∀ value ∈ (rest ++ [arg]).head?, (takesNext first && isValue value) = false := by
      cases rest with
      | nil =>
        intro value hhead
        cases hhead
        simp [hvalue]
      | cons value rest => exact halone
    rw [List.cons_append, split_of_isFlag hflag hne' halone, split_of_isFlag hflag hne' halone',
      ih hend.2]
    rfl
  | valued first value rest hflag hne' htakes hvalue' ih =>
    simp only [List.mem_cons, not_or] at hend
    rw [List.cons_append, List.cons_append, split_of_value hflag hne' htakes hvalue',
      split_of_value hflag hne' htakes hvalue', ih hend.2.2]
    rfl

/-- The flags among the arguments are read to their end: all are known and have their values, and
nothing that was taken for a value is left over. -/
def FlagsComplete (args : List Text) : Prop := ∃ v, FlagValues.read {} (split args).1 = .ok (v, [])

end Arguments

/-- Neither the end of the flags nor a flag that needs a value is the label of an encoding. -/
def Codecs.RejectsFlags (lib : Codecs) : Prop :=
  (lib.get Arguments.endOfFlags).toOption.isNone ∧
    ∀ flag : Flag, flag.isSwitch = false → ∀ arg ∈ Arguments.spellings flag,
      (lib.get arg).toOption.isNone

theorem Encoding.library_rejectsFlags : Encoding.library.RejectsFlags := by
  refine ⟨by decide +kernel, fun flag hflag => ?_⟩
  cases flag <;> revert hflag <;> decide +kernel

namespace FlagValues

open Arguments

variable {lib : Codecs}

theorem read_of_not_isFlag {args : List Text} (h : ∀ arg ∈ args, isFlag arg = false)
    (v : FlagValues) : v.read args = .ok (v, args) := by
  cases args with
  | nil => rfl
  | cons arg rest =>
    have hstop : reading arg = .stop := by
      rw [reading, if_pos (by simp [h arg List.mem_cons_self])]
    rw [read_cons, hstop]

/-! ## Values that only a path can have -/

/-- The text is neither empty nor a level nor the label of an encoding. -/
def Unusable (lib : Codecs) (value : Text) : Prop :=
  value ≠ [] ∧ LogLevel.ofName? value.lower = none ∧ (lib.get value).toOption.isNone

theorem unusable_endOfFlags (hlib : lib.RejectsFlags) : Unusable lib endOfFlags :=
  ⟨by decide, by decide +kernel, hlib.1⟩

theorem unusable_of_mem_spellings (hlib : lib.RejectsFlags) {flag : Flag}
    (hflag : flag.isSwitch = false) {arg : Text} (harg : arg ∈ spellings flag) :
    Unusable lib arg := by
  have hlevel : ∀ arg ∈ spellings flag, arg ≠ [] ∧ LogLevel.ofName? arg.lower = none := by
    cases flag <;> revert hflag <;> decide +kernel
  obtain ⟨hne, hnone⟩ := hlevel arg harg
  exact ⟨hne, hnone, hlib.2 flag hflag arg harg⟩

/-- Settings fail if they fail without inputs, or for too many inputs. -/
theorem settle_fails_iff (v : FlagValues) (lib : Codecs) (env : Environment) (inputs : List Text) :
    (∃ e, v.settle lib env inputs = .error e) ↔
      (∃ e, v.settle lib env [] = .error e) ∨ v.output ≠ [] ∧ 1 < inputs.length := by
  rcases v.settle_cases lib env with ⟨e, he⟩ | ⟨o, ho⟩
  · exact iff_of_true ⟨e, he v.output inputs⟩ (.inl ⟨e, he v.output []⟩)
  · rw [show v.settle lib env inputs = _ from ho v.output inputs,
      show v.settle lib env [] = _ from ho v.output []]
    by_cases hmany : v.output ≠ [] ∧ 1 < inputs.length
    · exact iff_of_true ⟨_, if_pos hmany⟩ (.inr hmany)
    · rw [if_neg hmany, if_neg (by simp)]
      simp [hmany]

/-- A value that only a path can have is rejected, unless it is given to the output and there are
not too many inputs. -/
theorem settle_setText_fails_iff (v : FlagValues) (env : Environment) {value : Text}
    (hvalue : Unusable lib value) {flag : Flag} (hflag : flag.isSwitch = false)
    (inputs : List Text) :
    (∃ e, (v.setText value flag).settle lib env inputs = .error e) ↔
      flag ≠ .output ∨ (∃ e, v.settle lib env [] = .error e) ∨ 1 < inputs.length := by
  obtain ⟨hne, hlevel, hlabel⟩ := hvalue
  cases flag with
  | output =>
    rw [settle_fails_iff]
    have hnone : (∃ e, (v.setText value .output).settle lib env [] = .error e) ↔
        ∃ e, v.settle lib env [] = .error e := by
      rcases v.settle_cases lib env with ⟨e, he⟩ | ⟨o, ho⟩
      · exact iff_of_true ⟨e, he value []⟩ ⟨e, he v.output []⟩
      · rw [show v.settle lib env [] = _ from ho v.output [],
          show (v.setText value .output).settle lib env [] = _ from ho value []]
        simp
    rw [hnone]
    simp [setText, hne]
  | logLevel =>
    refine iff_of_true ⟨.invalidLevel value.lower, ?_⟩ (.inl (by simp))
    simp only [settle, level, setText, firstGiven, hlevel]
  | encoding =>
    refine iff_of_true ?_ (.inl (by simp))
    simp only [settle, label, setText, firstGiven]
    cases hget : lib.get value with
    | ok codec => simp [hget, Except.toOption] at hlabel
    | error reason =>
      have hofLabel : Loader.ofLabel lib value = .error ⟨value, reason⟩ := by
        simp [Loader.ofLabel, hne, hget]
      rw [hofLabel]
      cases LogLevel.ofName? (level _ env) <;> exact ⟨_, rfl⟩
  | _ => cases hflag

end FlagValues

namespace Options

open Arguments

variable {lib : Codecs}

/-- A flag at the end that needs a value gets the end of the flags, if the flags before it are
complete. Otherwise it is not read as a flag, and the arguments before it decide. -/
theorem parse_append_cases (hlib : lib.RejectsFlags) (env : Environment) {front : List Text}
    {arg : Text} {flag : Flag} (hfront : endOfFlags ∉ front) (harg : arg ∈ spellings flag)
    (hflag : flag.isSwitch = false) :
    (FlagsComplete front ∧ ∃ v : FlagValues,
      parse lib env front = v.settle lib env (split front).2 ∧
      parse lib env (front ++ [arg]) =
        (v.setText endOfFlags flag).settle lib env (split front).2) ∨
    (¬ FlagsComplete front ∧
      ((∃ e, parse lib env (front ++ [arg]) = .error e) ↔
        ∃ e, parse lib env front = .error e)) := by
  obtain ⟨hisFlag, hne⟩ := isFlag_of_mem_spellings harg
  obtain ⟨name, hreading⟩ := (reading_of_mem_spellings harg).2 hflag
  have hreorder : reorder front = (split front).1 ++ endOfFlags :: (split front).2 :=
    reorder_of_split rfl
  have hreorder' : reorder (front ++ [arg]) =
      (split front).1 ++ arg :: endOfFlags :: (split front).2 := by
    rw [reorder_of_split (split_append_flag hisFlag hne hfront), List.append_assoc]
    rfl
  have hothers (v : FlagValues) : v.read (split front).2 = .ok (v, (split front).2) :=
    FlagValues.read_of_not_isFlag (isFlag_of_mem_split hfront) v
  have hend (v : FlagValues) :
      v.read (endOfFlags :: (split front).2) = .ok (v, (split front).2) := by
    rw [FlagValues.read_cons, FlagValues.reading_endOfFlags]
  cases FlagValues.outcome_of_not_mem (fun h => hfront (mem_of_mem_split h)) {} with
  | complete v h =>
    refine .inl ⟨⟨v, by simpa [FlagValues.read] using h []⟩, v, ?_, ?_⟩
    · exact parse_of_read (by rw [hreorder, h, hend])
    · exact parse_of_read (by rw [hreorder', h, FlagValues.read_cons, hreading]; exact hothers _)
  | stopped v first more h =>
    refine .inr ⟨?_, ?_⟩
    · rintro ⟨v', hv'⟩
      have hstopped := h []
      rw [List.append_nil, hv'] at hstopped
      simp at hstopped
    · -- what is left of the flags and the end of the flags are inputs, too many for an output
      have hparse : parse lib env front =
          v.settle lib env (first :: more ++ endOfFlags :: (split front).2) :=
        parse_of_read (by rw [hreorder, h])
      have hparse' : parse lib env (front ++ [arg]) =
          v.settle lib env (first :: more ++ arg :: endOfFlags :: (split front).2) :=
        parse_of_read (by rw [hreorder', h])
      rw [hparse, hparse', FlagValues.settle_fails_iff,
        FlagValues.settle_fails_iff v lib env (_ ++ _)]
      simp
  | waiting v name' flag' hflag' hnone h =>
    refine .inr ⟨?_, ?_⟩
    · rintro ⟨v', hv'⟩
      rw [hnone] at hv'
      cases hv'
    · -- the flag before it takes it for its value, in the place of the end of the flags
      have hparse : parse lib env front =
          (v.setText endOfFlags flag').settle lib env (split front).2 :=
        parse_of_read (by rw [hreorder, h, hothers])
      have hparse' : parse lib env (front ++ [arg]) =
          (v.setText arg flag').settle lib env (split front).2 :=
        parse_of_read (by rw [hreorder', h, hend])
      have hunusable := FlagValues.unusable_of_mem_spellings hlib hflag harg
      rw [hparse, hparse', FlagValues.settle_setText_fails_iff v env hunusable hflag',
        FlagValues.settle_setText_fails_iff v env (FlagValues.unusable_endOfFlags hlib) hflag']
  | refused e h =>
    refine .inr ⟨?_, iff_of_true ⟨e, ?_⟩ ⟨e, ?_⟩⟩
    · rintro ⟨v, hv⟩
      have hrefused := h []
      rw [List.append_nil, hv] at hrefused
      cases hrefused
    · exact parse_of_read_error (by rw [hreorder', h])
    · exact parse_of_read_error (by rw [hreorder, h])

/-- The flag is rejected with what comes before it, or because the end of the flags is not a value
that it can have, or because there are too many inputs for an output. -/
theorem parse_append_fails_iff (hlib : lib.RejectsFlags) (env : Environment) {front : List Text}
    {arg : Text} {flag : Flag} (hfront : endOfFlags ∉ front) (harg : arg ∈ spellings flag)
    (hflag : flag.isSwitch = false) :
    (∃ e, parse lib env (front ++ [arg]) = .error e) ↔
      (∃ e, parse lib env front = .error e) ∨
        FlagsComplete front ∧ (flag ≠ .output ∨ 1 < (split front).2.length) := by
  rcases parse_append_cases hlib env hfront harg hflag with ⟨hcomplete, v, hv, hv'⟩ | ⟨hnot, hsame⟩
  · rw [hv, hv',
      FlagValues.settle_setText_fails_iff v env (FlagValues.unusable_endOfFlags hlib) hflag,
      FlagValues.settle_fails_iff v lib env (split front).2]
    -- several inputs are too many now, whether there was an output before or not
    tauto
  · rw [hsame]
    simp [hnot]

/-- Where the flag is for the output and accepted, nothing but the output is different. -/
theorem parse_append_output (hlib : lib.RejectsFlags) (env : Environment) {front : List Text}
    {arg : Text} {o : Options} (hfront : endOfFlags ∉ front) (harg : arg ∈ spellings .output)
    (ho : parse lib env front = .ok o) (hcomplete : FlagsComplete front)
    (hfew : o.inputs.length ≤ 1) :
    parse lib env (front ++ [arg]) = .ok { o with output := endOfFlags } := by
  rcases parse_append_cases hlib env hfront harg rfl with ⟨-, v, hv, hv'⟩ | ⟨hnot, -⟩
  · rw [hv] at ho
    rw [hv']
    rcases v.settle_cases lib env with ⟨e, he⟩ | ⟨o', ho'⟩
    · rw [show v.settle lib env _ = _ from he v.output _] at ho
      cases ho
    · rw [show v.settle lib env _ = _ from ho' v.output _] at ho
      split at ho
      · cases ho
      · cases ho
        exact (ho' endOfFlags _).trans (if_neg fun hmany => Nat.not_lt.2 hfew hmany.2)
  · exact absurd hcomplete hnot

/-- Groups of flags among other arguments are complete, or they are wrong. -/
theorem flagsComplete_of_interleaved (lib : Codecs) (env : Environment) {groups : List (List Text)}
    {others args : List Text} (hgroups : ∀ g ∈ groups, IsFlagGroup g)
    (hothers : ∀ arg ∈ others, arg.head? ≠ some dash) (h : Interleaved groups others args) :
    FlagsComplete args ∨ ∃ e, parse lib env args = .error e := by
  have hsplit := split_of_interleaved h hgroups hothers
  rcases reads_flatten hgroups {} with ⟨v, hv⟩ | ⟨e, he⟩
  · refine .inl ⟨v, ?_⟩
    rw [hsplit]
    simpa [FlagValues.read] using hv []
  · exact .inr ⟨e, parse_of_read_error (by rw [reorder_of_split hsplit, he])⟩

/-- **A flag without its value takes the end of the flags for it.** Where flags are not labels of
encodings, a flag at the end of the arguments that needs a value is rejected exactly if the
arguments before it are rejected, or if the flags before it are complete and it is not that for the
output, or there are several inputs. If it is accepted, `--` is the path of the output. After groups
of flags and other arguments in any order only what comes before it, its kind and the number of
inputs decide. -/
theorem parse_append_value_flag (hlib : lib.RejectsFlags) (env : Environment) {front : List Text}
    {arg : Text} {flag : Flag} (hfront : endOfFlags ∉ front) (harg : arg ∈ spellings flag)
    (hflag : flag.isSwitch = false) :
    ((∃ e, parse lib env (front ++ [arg]) = .error e) ↔
      (∃ e, parse lib env front = .error e) ∨
        FlagsComplete front ∧ (flag ≠ .output ∨ 1 < (split front).2.length)) ∧
    (∀ o, parse lib env front = .ok o → FlagsComplete front → flag = .output → o.inputs.length ≤ 1 →
      parse lib env (front ++ [arg]) = .ok { o with output := endOfFlags }) ∧
    ∀ groups others, (∀ g ∈ groups, IsFlagGroup g) → (∀ a ∈ others, a.head? ≠ some dash) →
      Interleaved groups others front →
        ((∃ e, parse lib env (front ++ [arg]) = .error e) ↔
          (∃ e, parse lib env front = .error e) ∨ flag ≠ .output ∨ 1 < others.length) := by
  have hrejected := parse_append_fails_iff hlib env hfront harg hflag
  refine ⟨hrejected, ?_, ?_⟩
  · rintro o ho hcomplete rfl hfew
    exact parse_append_output hlib env hfront harg ho hcomplete hfew
  · intro groups others hgroups hothers hinterleaved
    rw [hrejected, split_of_interleaved hinterleaved hgroups hothers]
    rcases flagsComplete_of_interleaved lib env hgroups hothers hinterleaved with hcomplete | hfails
    · simp only [hcomplete, true_and]
    · exact iff_of_true (.inl hfails) (.inl hfails)

/-- After an input and a switch a flag for the log level without its value is rejected, and one for
the output is accepted. -/
theorem parse_append_value_flag_after_switch :
    let front := [utf8 "a.vm", utf8 "--strict"]
    endOfFlags ∉ front ∧
      (∃ e, parse Encoding.library {} (front ++ [utf8 "--log-level"]) = .error e) ∧
      parse Encoding.library {} (front ++ [utf8 "-o"]) =
        .ok { inputs := [utf8 "a.vm"], strict := true, output := endOfFlags } := by
  intro front
  have hfront : endOfFlags ∉ front := by decide
  have hcomplete : FlagsComplete front := ⟨_, rfl⟩
  have ho : parse Encoding.library {} front =
      .ok { inputs := [utf8 "a.vm"], strict := true } := by decide +kernel
  have hlevel : utf8 "--log-level" ∈ spellings .logLevel := by decide
  have houtput : utf8 "-o" ∈ spellings .output := by decide
  obtain ⟨hrejected, -, -⟩ :=
    parse_append_value_flag Encoding.library_rejectsFlags {} hfront hlevel rfl
  obtain ⟨-, haccepted, -⟩ :=
    parse_append_value_flag Encoding.library_rejectsFlags {} hfront houtput rfl
  exact ⟨hfront, hrejected.2 (.inr ⟨hcomplete, .inl (by decide)⟩),
    haccepted _ ho hcomplete rfl (by decide)⟩

/-- After an input a flag for the output without its value is accepted: its value is `--`. -/
theorem output_flag_without_value_accepted :
    let front := [utf8 "a.vm"]
    (endOfFlags ∉ front ∧ ∀ arg ∈ front, isFlag arg = false) ∧ utf8 "-o" ∈ spellings .output ∧
      parse Encoding.library {} (front ++ [utf8 "-o"]) =
        .ok { inputs := front, output := endOfFlags } := by
  decide +kernel

end Options

end HackVM
