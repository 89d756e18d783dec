import HackVM.Encoding.Basic
import HackVM.Proofs.FlagReading

/-!
# The place of flags

A flag with all that belongs to it is an `IsFlagGroup`: a switch, a flag with its value after `=`,
or a flag followed by its value. On a command line the groups may be `Interleaved` with other
arguments in any way. The flags that are taken out of it are the groups and nothing else
(`split_of_interleaved`), and each group is read as a whole (`IsFlagGroup.reads`). So only the order
of the groups and the order of the others count (`parse_of_interleaved`).
-/

namespace HackVM

namespace Arguments

/-! ## How flags are written -/

/-- How a flag is written: its names after one or two dashes. -/
def spellings (flag : Flag) : List Text :=
  (Flag.names.filter (·.2 = flag)).flatMap fun n => [dash :: n.1, dash :: dash :: n.1]

theorem exists_name_of_mem_spellings {arg : Text} {flag : Flag} (h : arg ∈ spellings flag) :
    ∃ name, (name, flag) ∈ Flag.names ∧ (arg = dash :: name ∨ arg = dash :: dash :: name) := by
  obtain ⟨⟨name, flag'⟩, hmem, harg⟩ := List.mem_flatMap.1 h
  obtain ⟨hname, hflag⟩ := List.mem_filter.1 hmem
  obtain rfl : flag' = flag := of_decide_eq_true hflag
  exact ⟨name, hname, by simpa using harg⟩

theorem names_wellFormed : ∀ n ∈ Flag.names, FlagValues.beginsWithName n.1 = true ∧
    equalsSign ∉ n.1 ∧ Flag.names.lookup n.1 = some n.2 := by decide

/-- A name after one or two dashes is found again. -/
theorem dropDashes_of_name {name arg : Text} (hname : FlagValues.beginsWithName name = true)
    (harg : arg = dash :: name ∨ arg = dash :: dash :: name) :
    isFlag arg = true ∧ arg ≠ endOfFlags ∧ FlagValues.dropDashes arg = name := by
  cases name with
  | nil => cases hname
  | cons b name =>
    have hb : b ≠ dash := by
      rintro rfl
      simp [FlagValues.beginsWithName] at hname
    rw [show endOfFlags = [dash, dash] from rfl]
    rcases harg with rfl | rfl
    · refine ⟨by simp [isFlag], by simp [hb], ?_⟩
      simp [FlagValues.dropDashes, show endOfFlags = [dash, dash] from rfl, hb]
    · refine ⟨by simp [isFlag], by simp, ?_⟩
      simp [FlagValues.dropDashes, show endOfFlags = [dash, dash] from rfl]

/-- A flag in any of its spellings is read as what it is. -/
theorem reading_of_mem_spellings {arg : Text} {flag : Flag} (h : arg ∈ spellings flag) :
    (flag.isSwitch = true → FlagValues.reading arg = .set fun v => v.setSwitch true flag) ∧
    (flag.isSwitch = false → ∃ name, FlagValues.reading arg = .await name flag) := by
  obtain ⟨name, hmem, harg⟩ := exists_name_of_mem_spellings h
  obtain ⟨hname, hequals, hlookup⟩ := names_wellFormed _ hmem
  obtain ⟨hflag, hne, hdrop⟩ := dropDashes_of_name hname harg
  have hsplit : FlagValues.splitFlag name = (name, none) := by
    rw [FlagValues.splitFlag, Text.cut?_eq_none_of_not_mem hequals]
  unfold FlagValues.reading
  simp only [hflag, hdrop, hname, hsplit, hlookup, if_neg hne, Bool.not_true, Bool.false_eq_true,
    if_false]
  constructor
  · intro hswitch
    rw [hswitch]
  · intro hswitch
    rw [hswitch]
    exact ⟨name, rfl⟩

/-! ## Groups -/

/-- A flag with all that belongs to it. -/
inductive IsFlagGroup : List Text → Prop
  | switch {arg : Text} (h : arg ∈ switches) : IsFlagGroup [arg]
  /-- A value after `=`. If there are two dashes, the second one is the first byte of the name. -/
  | assigned (name value : Text) : IsFlagGroup [dash :: name ++ equalsSign :: value]
  | valued {arg value : Text} {flag : Flag} (harg : arg ∈ spellings flag)
      (hflag : flag.isSwitch = false) (hvalue : isValue value = true) : IsFlagGroup [arg, value]

theorem switches_wellFormed : ∀ arg ∈ switches, takesNext arg = false ∧
    ∃ n ∈ Flag.names, n.2.isSwitch = true ∧ arg ∈ spellings n.2 := by decide

theorem takesNext_of_mem_spellings {flag : Flag} (hflag : flag.isSwitch = false) :
    ∀ arg ∈ spellings flag, takesNext arg = true := by
  cases flag <;> revert hflag <;> decide

theorem isFlag_of_mem_spellings {arg : Text} {flag : Flag} (h : arg ∈ spellings flag) :
    isFlag arg = true ∧ arg ≠ endOfFlags := by
  obtain ⟨name, hmem, harg⟩ := exists_name_of_mem_spellings h
  obtain ⟨hflag, hne, -⟩ := dropDashes_of_name (names_wellFormed _ hmem).1 harg
  exact ⟨hflag, hne⟩

theorem isFlag_assigned (name value : Text) :
    isFlag (dash :: name ++ equalsSign :: value) = true ∧
      dash :: name ++ equalsSign :: value ≠ endOfFlags := by
  refine ⟨by simp [isFlag], fun h => ?_⟩
  have hmem : equalsSign ∈ endOfFlags := by simp [← h]
  exact absurd hmem (by decide)

theorem exists_value_of_mem {body : Text} (h : equalsSign ∈ body) :
    ∃ name value, FlagValues.splitFlag body = (name, some value) := by
  unfold FlagValues.splitFlag
  cases hcut : Text.cut? [equalsSign] body with
  | none =>
    refine absurd ?_ ((Text.cut?_eq_none_iff (List.cons_ne_nil _ _)).1 hcut)
    obtain ⟨before, after, rfl⟩ := List.append_of_mem h
    exact ⟨before, after, by simp⟩
  | some parts => exact ⟨parts.1, parts.2, rfl⟩

/-- A flag with its value after `=` needs no other argument. -/
theorem reading_assigned (name value : Text) :
    (∃ e, FlagValues.reading (dash :: name ++ equalsSign :: value) = .refuse e) ∨
      ∃ change, FlagValues.reading (dash :: name ++ equalsSign :: value) = .set change := by
  obtain ⟨hflag, hne⟩ := isFlag_assigned name value
  have hmem : equalsSign ∈ FlagValues.dropDashes (dash :: name ++ equalsSign :: value) := by
    unfold FlagValues.dropDashes
    split
    · next hdashes =>
      cases name with
      | nil =>
        have hsign : equalsSign = dash := by
          simpa [show endOfFlags = [dash, dash] from rfl] using hdashes
        exact absurd hsign (by decide)
      | cons b name => simp
    · simp
  obtain ⟨name', value', hsplit⟩ := exists_value_of_mem hmem
  unfold FlagValues.reading
  simp only [hflag, hsplit, if_neg hne, Bool.not_true, Bool.false_eq_true, if_false]
  split
  · exact .inl ⟨_, rfl⟩
  · cases Flag.names.lookup name' with
    | none => exact .inl ⟨_, rfl⟩
    | some flag =>
      cases hswitch : flag.isSwitch with
      | false =>
        simp only [hswitch]
        exact .inr ⟨_, rfl⟩
      | true =>
        simp only [hswitch]
        cases boolOfWord? value' with
        | none => exact .inl ⟨_, rfl⟩
        | some on => exact .inr ⟨_, rfl⟩

/-- Taking the flags out leaves a group as it is. -/
theorem IsFlagGroup.split_append {g : List Text} (h : IsFlagGroup g) (args : List Text) :
    split (g ++ args) = (g ++ (split args).1, (split args).2) := by
  cases h with
  | @switch arg harg =>
    obtain ⟨htakes, n, -, -, hspelling⟩ := switches_wellFormed arg harg
    obtain ⟨hflag, hne⟩ := isFlag_of_mem_spellings hspelling
    exact split_of_isFlag hflag hne (fun value _ => by simp [htakes])
  | assigned name value =>
    obtain ⟨hflag, hne⟩ := isFlag_assigned name value
    exact split_of_isFlag hflag hne (fun value _ => by simp [takesNext])
  | valued harg hflag hvalue =>
    obtain ⟨hisFlag, hne⟩ := isFlag_of_mem_spellings harg
    exact split_of_value hisFlag hne (takesNext_of_mem_spellings hflag _ harg) hvalue args

/-- A group is read as a whole, or it is wrong whatever comes after it. -/
theorem IsFlagGroup.reads {g : List Text} (h : IsFlagGroup g) (v : FlagValues) :
    (∃ v', ∀ rest, v.read (g ++ rest) = FlagValues.read v' rest) ∨
      ∃ e, ∀ rest, v.read (g ++ rest) = .error e := by
  cases h with
  | @switch arg harg =>
    obtain ⟨-, n, -, hswitch, hspelling⟩ := switches_wellFormed arg harg
    have hreading := (reading_of_mem_spellings hspelling).1 hswitch
    refine .inl ⟨v.setSwitch true n.2, fun rest => ?_⟩
    rw [List.singleton_append, FlagValues.read_cons, hreading]
  | assigned name value =>
    rcases reading_assigned name value with ⟨e, hreading⟩ | ⟨change, hreading⟩
    · refine .inr ⟨e, fun rest => ?_⟩
      rw [List.singleton_append, FlagValues.read_cons, hreading]
    · refine .inl ⟨change v, fun rest => ?_⟩
      rw [List.singleton_append, FlagValues.read_cons, hreading]
  | @valued arg value flag harg hflag hvalue =>
    obtain ⟨name, hreading⟩ := (reading_of_mem_spellings harg).2 hflag
    refine .inl ⟨v.setText value flag, fun rest => ?_⟩
    rw [List.cons_append, List.singleton_append, FlagValues.read_cons, hreading]

theorem reads_flatten {groups : List (List Text)} (h : ∀ g ∈ groups, IsFlagGroup g)
    (v : FlagValues) :
    (∃ v', ∀ rest, v.read (groups.flatten ++ rest) = FlagValues.read v' rest) ∨
      ∃ e, ∀ rest, v.read (groups.flatten ++ rest) = .error e := by
  induction groups generalizing v with
  | nil => exact .inl ⟨v, fun _ => rfl⟩
  | cons g groups ih =>
    simp only [List.flatten_cons, List.append_assoc]
    rcases (h g List.mem_cons_self).reads v with ⟨v₁, hv₁⟩ | ⟨e, he⟩
    · simp only [hv₁]
      exact ih (fun g' hg' => h g' (List.mem_cons_of_mem g hg')) v₁
    · exact .inr ⟨e, fun rest => he _⟩

/-! ## Groups among other arguments -/

/-- The arguments are made of the groups and the others, each in their order and every group in one
piece. -/
inductive Interleaved : List (List Text) → List Text → List Text → Prop
  | nil : Interleaved [] [] []
  | group {groups : List (List Text)} {others args : List Text} (g : List Text)
      (h : Interleaved groups others args) : Interleaved (g :: groups) others (g ++ args)
  | other {groups : List (List Text)} {others args : List Text} (arg : Text)
      (h : Interleaved groups others args) : Interleaved groups (arg :: others) (arg :: args)

/-- All groups first. -/
theorem interleaved_flatten_append (groups : List (List Text)) (others : List Text) :
    Interleaved groups others (groups.flatten ++ others) := by
  induction groups with
  | nil =>
    induction others with
    | nil => exact .nil
    | cons arg others ih => exact .other arg ih
  | cons g groups ih =>
    rw [List.flatten_cons, List.append_assoc]
    exact .group g ih

theorem isFlag_of_head? {arg : Text} (h : arg.head? ≠ some dash) : isFlag arg = false := by
  simp [isFlag, h]

/-- The flags that are taken out are the groups. -/
theorem split_of_interleaved {groups : List (List Text)} {others args : List Text}
    (h : Interleaved groups others args) (hgroups : ∀ g ∈ groups, IsFlagGroup g)
    (hothers : ∀ arg ∈ others, arg.head? ≠ some dash) : split args = (groups.flatten, others) := by
  induction h with
  | nil => rfl
  | group g _ ih =>
    rw [(hgroups g List.mem_cons_self).split_append,
      ih (fun g' hg' => hgroups g' (List.mem_cons_of_mem g hg')) hothers, List.flatten_cons]
  | other arg _ ih =>
    rw [split_of_not_isFlag (isFlag_of_head? (hothers arg List.mem_cons_self)),
      ih hgroups fun arg' harg' => hothers arg' (List.mem_cons_of_mem arg harg')]

end Arguments

namespace Options

open Arguments

/-- Groups of flags are wrong whatever is beside them, or the settings are theirs with the other
arguments as inputs, unless there are too many for one output. -/
theorem parse_of_groups (lib : Codecs) (env : Environment) {groups : List (List Text)}
    (hgroups : ∀ g ∈ groups, IsFlagGroup g) :
    (∃ e, ∀ args others, split args = (groups.flatten, others) → parse lib env args = .error e) ∨
    ∃ o : Options, ∀ args others, split args = (groups.flatten, others) → parse lib env args =
      if o.output ≠ [] ∧ 1 < others.length then .error (.outputForManyInputs others.length)
      else .ok { o with inputs := others } := by
  rcases reads_flatten hgroups {} with ⟨v, hv⟩ | ⟨e, he⟩
  · have hparse (args others : List Text) (h : split args = (groups.flatten, others)) :
        parse lib env args = v.settle lib env others := by
      refine parse_of_read ?_
      rw [reorder_of_split h, hv, FlagValues.read_cons, FlagValues.reading_endOfFlags]
    rcases v.settle_cases lib env with ⟨e, he⟩ | ⟨o, ho⟩
    · exact .inl ⟨e, fun args others h => (hparse args others h).trans (he v.output others)⟩
    · exact .inr ⟨{ o with output := v.output }, fun args others h =>
        (hparse args others h).trans (ho v.output others)⟩
  · refine .inl ⟨e, fun args others h => parse_of_read_error ?_⟩
    rw [reorder_of_split h, he]

/-- **The place of flags does not count.** Groups of flags may stand anywhere among the other
arguments: the result is the same as with all groups first. The other arguments become the inputs,
in their order, and nothing else depends on them but whether there are too many for one output. -/
theorem parse_of_interleaved (lib : Codecs) (env : Environment) {groups : List (List Text)}
    {others args : List Text} (hgroups : ∀ g ∈ groups, IsFlagGroup g)
    (hothers : ∀ arg ∈ others, arg.head? ≠ some dash) (h : Interleaved groups others args) :
    parse lib env args = parse lib env (groups.flatten ++ others) ∧
    (∀ o, parse lib env args = .ok o → o.inputs = others) ∧
    (∀ e, parse lib env groups.flatten = .error e → parse lib env args = .error e) ∧
    ∀ o, parse lib env groups.flatten = .ok o →
      (o.output ≠ [] ∧ 1 < others.length →
        parse lib env args = .error (.outputForManyInputs others.length)) ∧
      (¬ (o.output ≠ [] ∧ 1 < others.length) →
        parse lib env args = .ok { o with inputs := others }) := by
  have hsplit := split_of_interleaved h hgroups hothers
  have hfirst := split_of_interleaved (interleaved_flatten_append groups others) hgroups hothers
  have halone : split groups.flatten = (groups.flatten, []) := by
    have hnone := split_of_interleaved (interleaved_flatten_append groups []) hgroups (by simp)
    rwa [List.append_nil] at hnone
  rcases parse_of_groups lib env hgroups with ⟨e, he⟩ | ⟨o, ho⟩
  · rw [he _ _ hsplit, he _ _ hfirst, he _ _ halone]
    refine ⟨rfl, fun o ho => ?_, fun e' he' => he', fun o ho => ?_⟩ <;> cases ho
  · rw [ho _ _ hsplit, ho _ _ hfirst, ho _ _ halone]
    refine ⟨rfl, fun o' ho' => ?_, fun e he => ?_, fun o' ho' => ?_⟩
    · split at ho' <;> cases ho'
      rfl
    · simp at he
    · rw [if_neg (by simp)] at ho'
      cases ho'
      exact ⟨fun hmany => if_pos hmany, fun hfits => if_neg hfits⟩

/-- A switch, a value after `=` and a value in the next argument between two inputs, one of them
empty. -/
theorem parse_of_interleaved_three_groups :
    let args := [utf8 "a.vm", utf8 "-k", utf8 "", utf8 "--log-level=WARN", utf8 "-e", utf8 "latin1"]
    parse Encoding.library {} args =
        parse Encoding.library {} [utf8 "-k", utf8 "--log-level=WARN", utf8 "-e", utf8 "latin1",
          utf8 "a.vm", utf8 ""] ∧
      ∃ o, parse Encoding.library {} args = .ok o ∧ o.inputs = [utf8 "a.vm", utf8 ""] := by
  intro args
  have hgroups : ∀ g ∈ [[utf8 "-k"], [utf8 "--log-level=WARN"], [utf8 "-e", utf8 "latin1"]],
      IsFlagGroup g := by
    simp only [List.forall_mem_cons]
    refine ⟨.switch (by decide), .assigned (utf8 "-log-level") (utf8 "WARN"),
      .valued (show utf8 "-e" ∈ spellings .encoding by decide) rfl (by decide), by simp⟩
  have hargs : Interleaved [[utf8 "-k"], [utf8 "--log-level=WARN"], [utf8 "-e", utf8 "latin1"]]
      [utf8 "a.vm", utf8 ""] args :=
    .other _ (.group _ (.other _ (.group _ (.group _ .nil))))
  obtain ⟨hsame, hinputs, -⟩ := parse_of_interleaved Encoding.library {} hgroups (by decide) hargs
  have hok : parse Encoding.library {} args = .ok {
      inputs := [utf8 "a.vm", utf8 ""], logLevel := .warn, encoding := utf8 "latin1" } := by
    decide +kernel
  exact ⟨hsame, _, hok, hinputs _ hok⟩

end Options

end HackVM
