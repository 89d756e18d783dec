import HackVM.Options
import HackVM.Proofs.Comments

/-!
# Reading flags

The arguments of a command line are read twice. `Arguments.split` takes out the flags with the
values that seem to belong to them; `split_induction` goes through what it makes of the first
arguments. `FlagValues.read` then reads the flags one by one. What a list of flags makes of the
arguments after it is one of four things (`FlagValues.Outcome`, `outcome_of_not_mem`): they are read
on, they are left as they are, the first of them is the value of the last flag, or there is an error
that they cannot change.
-/

namespace HackVM

namespace Arguments

/-! ## Taking the flags out -/

theorem isFlag_endOfFlags : isFlag endOfFlags = true := by decide

theorem split_endOfFlags (rest : List Text) : split (endOfFlags :: rest) = ([], rest) := by
  rw [split.eq_def]
  exact if_pos rfl

theorem ne_endOfFlags_of_not_isFlag {arg : Text} (h : isFlag arg = false) : arg ≠ endOfFlags := by
  rintro rfl
  simp [isFlag_endOfFlags] at h

/-- What looks like a flag is not taken along by another flag. -/
theorem isValue_of_isFlag {arg : Text} (h : isFlag arg = true) : isValue arg = false := by
  have hhead : arg.head? = some dash := by
    simp only [isFlag, Bool.and_eq_true, decide_eq_true_eq] at h
    exact h.1
  simp [isValue, hhead]

/-- An argument that is no flag is kept apart. -/
theorem split_of_not_isFlag {arg : Text} (h : isFlag arg = false) (rest : List Text) :
    split (arg :: rest) = ((split rest).1, arg :: (split rest).2) := by
  rw [split.eq_def]
  simp only [if_neg (ne_endOfFlags_of_not_isFlag h), h, Bool.false_eq_true, if_false]

/-- A flag stands alone if it is not followed by a value that it takes along. -/
theorem split_of_isFlag {arg : Text} (h : isFlag arg = true) (hne : arg ≠ endOfFlags)
    {rest : List Text} (halone : ∀ value ∈ rest.head?, (takesNext arg && isValue value) = false) :
    split (arg :: rest) = (arg :: (split rest).1, (split rest).2) := by
  rw [split.eq_def]
  cases rest with
  | nil => simp only [if_neg hne, if_pos h, split]
  | cons value rest =>
    simp only [if_neg hne, if_pos h, halone value rfl, Bool.false_eq_true, if_false]

/-- A flag takes its value along. -/
theorem split_of_value {arg value : Text} (h : isFlag arg = true) (hne : arg ≠ endOfFlags)
    (htakes : takesNext arg = true) (hvalue : isValue value = true) (rest : List Text) :
    split (arg :: value :: rest) = (arg :: value :: (split rest).1, (split rest).2) := by
  rw [split.eq_def]
  simp only [if_neg hne, if_pos h, htakes, hvalue, Bool.and_self, if_true]

/-- Arguments begin with the end of the flags, with an argument that is no flag, or with a flag
alone or with its value. -/
@[elab_as_elim]
theorem split_induction {motive : List Text → Prop} (nil : motive [])
    (finish : ∀ rest, motive (endOfFlags :: rest))
    (other : ∀ arg rest, isFlag arg = false → motive rest → motive (arg :: rest))
    (flag : ∀ arg rest, isFlag arg = true → arg ≠ endOfFlags →
      (∀ value ∈ rest.head?, (takesNext arg && isValue value) = false) → motive rest →
      motive (arg :: rest))
    (valued : ∀ arg value rest, isFlag arg = true → arg ≠ endOfFlags → takesNext arg = true →
      isValue value = true → motive rest → motive (arg :: value :: rest)) :
    ∀ args, motive args
  | [] => nil
  | arg :: rest => by
    by_cases hend : arg = endOfFlags
    · exact hend ▸ finish rest
    cases hflag : isFlag arg with
    | false => exact other arg rest hflag (split_induction nil finish other flag valued rest)
    | true =>
      match rest with
      | [] => exact flag arg [] hflag hend (fun _ h => by cases h) nil
      | value :: rest =>
        cases htakes : takesNext arg && isValue value with
        | true =>
          obtain ⟨htakes, hvalue⟩ := Bool.and_eq_true_iff.1 htakes
          exact valued arg value rest hflag hend htakes hvalue
            (split_induction nil finish other flag valued rest)
        | false =>
          refine flag arg (value :: rest) hflag hend (fun _ h => ?_)
            (split_induction nil finish other flag valued (value :: rest))
          cases h
          exact htakes

theorem reorder_of_split {args flags others : List Text} (h : split args = (flags, others)) :
    reorder args = flags ++ endOfFlags :: others := by
  rw [reorder, h]
  exact List.append_cons flags endOfFlags others |>.symm

/-- The flags that are taken out are among the arguments. -/
theorem mem_of_mem_split {arg : Text} {args : List Text} (h : arg ∈ (split args).1) :
    arg ∈ args := by
  induction args using split_induction with
  | nil => exact h
  | finish rest => simp [split_endOfFlags] at h
  | other first rest hflag ih =>
    rw [split_of_not_isFlag hflag] at h
    exact List.mem_cons_of_mem first (ih h)
  | flag first rest hflag hne halone ih =>
    rw [split_of_isFlag hflag hne halone] at h
    exact List.mem_cons.2 ((List.mem_cons.1 h).imp_right ih)
  | valued first value rest hflag hne htakes hvalue ih =>
    rw [split_of_value hflag hne htakes hvalue] at h
    simp only [List.mem_cons] at h ⊢
    exact h.imp_right (Or.imp_right ih)

end Arguments

namespace FlagValues

open Arguments

/-! ## Reading one flag -/

theorem read_cons (v : FlagValues) (arg : Text) (rest : List Text) :
    v.read (arg :: rest) =
      match reading arg, rest with
      | .stop, rest => .ok (v, arg :: rest)
      | .finish, rest => .ok (v, rest)
      | .refuse e, _ => .error e
      | .set change, rest => (change v).read rest
      | .await name _, [] => .error (.missingValue name)
      | .await _ flag, value :: rest => (v.setText value flag).read rest :=
  read.eq_def v (arg :: rest)

theorem reading_endOfFlags : reading endOfFlags = .finish := by rfl

/-- Only the end of the flags ends them. -/
theorem eq_endOfFlags_of_reading {arg : Text} (h : reading arg = .finish) : arg = endOfFlags := by
  unfold reading at h
  split at h
  · cases h
  · split at h
    · assumption
    · simp only at h
      repeat' split at h
      all_goals cases h

/-- Only a flag that is no switch waits for a value. -/
theorem isSwitch_of_reading {arg name : Text} {flag : Flag} (h : reading arg = .await name flag) :
    flag.isSwitch = false := by
  unfold reading at h
  simp only at h
  repeat' split at h
  all_goals cases h
  assumption

/-! ## Reading a list of flags -/

/-- What a list of flags makes of the arguments after it. -/
inductive Outcome (v : FlagValues) (flags : List Text) : Prop
  /-- All flags are read, and reading goes on after them. -/
  | complete (v' : FlagValues) (h : ∀ rest, v.read (flags ++ rest) = v'.read rest)
  /-- Reading stops before an argument that is no flag. -/
  | stopped (v' : FlagValues) (arg : Text) (more : List Text)
      (h : ∀ rest, v.read (flags ++ rest) = .ok (v', arg :: more ++ rest))
  /-- The last flag waits for its value. -/
  | waiting (v' : FlagValues) (name : Text) (flag : Flag) (hflag : flag.isSwitch = false)
      (hnone : v.read flags = .error (.missingValue name))
      (h : ∀ value rest, v.read (flags ++ value :: rest) = (v'.setText value flag).read rest)
  | refused (e : UsageError) (h : ∀ rest, v.read (flags ++ rest) = .error e)

/-- Flags that are read in full can be put before a list of flags. -/
theorem Outcome.append {v v' : FlagValues} (first : List Text) {flags : List Text}
    (hfirst : ∀ rest, v.read (first ++ rest) = v'.read rest) (h : v'.Outcome flags) :
    v.Outcome (first ++ flags) := by
  cases h with
  | complete v'' h => exact .complete v'' fun rest => by rw [List.append_assoc, hfirst, h]
  | stopped v'' arg more h =>
    exact .stopped v'' arg more fun rest => by rw [List.append_assoc, hfirst, h]
  | waiting v'' name flag hflag hnone h =>
    refine .waiting v'' name flag hflag (by rw [hfirst, hnone]) fun value rest => ?_
    rw [List.append_assoc, hfirst, h]
  | refused e h => exact .refused e fun rest => by rw [List.append_assoc, hfirst, h]

/-- Every list of flags without an end of flags has one of the four outcomes. -/
theorem outcome_of_not_mem : ∀ {flags : List Text} (_ : endOfFlags ∉ flags) (v : FlagValues),
    v.Outcome flags
  | [], _, v => .complete v fun _ => rfl
  | arg :: flags, hnot, v => by
    rw [List.mem_cons, not_or] at hnot
    cases harg : reading arg with
    | stop => exact .stopped v arg flags fun rest => by rw [List.cons_append, read_cons, harg]
    | finish => exact absurd (eq_endOfFlags_of_reading harg).symm hnot.1
    | refuse e => exact .refused e fun rest => by rw [List.cons_append, read_cons, harg]
    | set change =>
      refine Outcome.append [arg] (fun rest => ?_) (outcome_of_not_mem hnot.2 (change v))
      rw [List.singleton_append, read_cons, harg]
    | await name flag =>
      have hvalue (value : Text) (rest : List Text) :
          v.read (arg :: value :: rest) = (v.setText value flag).read rest := by
        rw [read_cons, harg]
      match flags with
      | [] => exact .waiting v name flag (isSwitch_of_reading harg) (by rw [read_cons, harg]) hvalue
      | value :: flags =>
        exact Outcome.append [arg, value] (hvalue value)
          (outcome_of_not_mem (fun h => hnot.2 (List.mem_cons_of_mem value h)) _)

/-! ## Settings -/

/-- Settings are wrong whatever the inputs and the output are, or both are taken as they are unless
there are too many inputs for one output. -/
theorem settle_cases (v : FlagValues) (lib : Codecs) (env : Environment) :
    (∃ e, ∀ output inputs, { v with output }.settle lib env inputs = .error e) ∨
    ∃ o : Options, ∀ output inputs, { v with output }.settle lib env inputs =
      if output ≠ [] ∧ 1 < inputs.length then .error (.outputForManyInputs inputs.length)
      else .ok { o with inputs, output } := by
  have hlevel (output : Text) : { v with output }.level env = v.level env := rfl
  have hlabel (output : Text) : { v with output }.label env = v.label env := rfl
  simp only [settle, hlevel, hlabel]
  cases LogLevel.ofName? (v.level env) with
  | none => exact .inl ⟨_, fun _ _ => rfl⟩
  | some level =>
    cases Loader.ofLabel lib (v.label env) with
    | error e => exact .inl ⟨_, fun _ _ => rfl⟩
    | ok l =>
      exact .inr ⟨{ logLevel := level, encoding := v.label env, strict := v.strict, help := v.help
                    staticNamespace := v.staticNamespace, keepGoing := v.keepGoing },
        fun _ _ => rfl⟩

end FlagValues

namespace Options

variable {lib : Codecs}

theorem parse_of_read {env : Environment} {args inputs : List Text} {v : FlagValues}
    (h : FlagValues.read {} (Arguments.reorder args) = .ok (v, inputs)) :
    parse lib env args = v.settle lib env inputs := by
  rw [parse, h]

theorem parse_of_read_error {env : Environment} {args : List Text} {e : UsageError}
    (h : FlagValues.read {} (Arguments.reorder args) = .error e) :
    parse lib env args = .error e := by
  rw [parse, h]

end Options

end HackVM
