import HackVM.Proofs.Listing

/-!
# Emitting to a limited sink

Instructions are given to an emitter one by one, whatever becomes of each of them. If its sink takes
only `room` lines, it writes what an emitter without a limit would write, up to that number
(`each_limited`). As long as there is room, the two emitters do the same (`emit_limited_of_le`); the
instruction whose lines do not fit is the last one that writes anything (`emit_limited_of_lt`),
because an emitter that has failed stays as it is (`emit_of_failed`).
-/

namespace HackVM

namespace Emitter

/-- The emitter after it was given instructions one by one. -/
def afterEach (e : Emitter) (is : List Instruction) : Emitter :=
  is.foldl (fun e i => (e.emit i).emitter) e

/-- The lines that are written when an emitter is given instructions one by one. -/
def linesOfEach (e : Emitter) : List Instruction → List AsmLine
  | [] => []
  | i :: is => (e.emit i).written ++ (e.emit i).emitter.linesOfEach is

theorem afterEach_cons (e : Emitter) (i : Instruction) (is : List Instruction) :
    e.afterEach (i :: is) = (e.emit i).emitter.afterEach is := rfl

theorem afterEach_append (e : Emitter) (is js : List Instruction) :
    e.afterEach (is ++ js) = (e.afterEach is).afterEach js :=
  List.foldl_append

/-! ## Single instructions -/

/-- An emitter that has failed stays as it is. -/
theorem emit_of_failed {e : Emitter} (h : e.failed = true) (i : Instruction) :
    e.emit i = ⟨e, [], some (.write e.sink.refusal)⟩ := by
  rw [emit, if_pos h, writeError, if_pos h]

theorem emit_of_operation_error {e : Emitter} (hfailed : e.failed = false) {i : Instruction}
    {err : CodeError} (h : i.operation = .error err) : e.emit i = ⟨e, [], some (.code err)⟩ := by
  simp [emit, hfailed, h]

theorem emit_of_operation_ok {e : Emitter} (hfailed : e.failed = false) {i : Instruction}
    {op : Operation} (h : i.operation = .ok op) :
    e.emit i = ⟨((e.countLabel op).write (e.block i op)).1,
      ((e.countLabel op).write (e.block i op)).2,
      ((e.countLabel op).write (e.block i op)).1.writeError⟩ := by
  simp [emit, hfailed, h]

/-- An instruction that is refused while the sink takes everything leaves no trace. -/
theorem emit_of_error {e : Emitter} {i : Instruction} (hfailed : (e.emit i).emitter.failed = false)
    (herror : (e.emit i).error ≠ none) : (e.emit i).written = [] ∧ (e.emit i).emitter = e := by
  cases hbefore : e.failed with
  | true =>
    rw [emit_of_failed hbefore] at hfailed
    exact absurd (hbefore.symm.trans hfailed) (by simp)
  | false =>
    cases hop : i.operation with
    | error err =>
      rw [emit_of_operation_error hbefore hop]
      exact ⟨rfl, rfl⟩
    | ok op =>
      rw [emit_of_operation_ok hbefore hop] at hfailed herror
      simp only at hfailed herror
      exact absurd (by simp [writeError, hfailed]) herror

theorem error_of_failed {e : Emitter} {i : Instruction} (h : (e.emit i).emitter.failed = true) :
    (e.emit i).error = some (.write (e.emit i).emitter.sink.refusal) := by
  cases hbefore : e.failed with
  | true => rw [emit_of_failed hbefore]
  | false =>
    cases hop : i.operation with
    | error err =>
      rw [emit_of_operation_error hbefore hop] at h
      exact absurd (hbefore.symm.trans h) (by simp)
    | ok op =>
      rw [emit_of_operation_ok hbefore hop] at h ⊢
      exact if_pos h

/-! ## Counting lines -/

theorem lines_write (e : Emitter) (ls : List AsmLine) :
    (e.write ls).1.lines = e.lines + (e.write ls).2.length := by
  induction ls generalizing e with
  | nil => rfl
  | cons l ls ih =>
    cases haccept : e.accept? with
    | none => simp [write, haccept]
    | some e' =>
      have hlines : e'.lines = e.lines + 1 := by
        unfold accept? at haccept
        split at haccept
        · cases haccept
        · rw [← Option.some.inj haccept]
      rw [write, haccept]
      simp only [ih, hlines, List.length_cons]
      rw [Nat.add_right_comm, Nat.add_assoc]

theorem lines_emit (e : Emitter) (i : Instruction) :
    (e.emit i).emitter.lines = e.lines + (e.emit i).written.length := by
  cases hfailed : e.failed with
  | true => simp [emit_of_failed hfailed]
  | false =>
    cases hop : i.operation with
    | error err => simp [emit_of_operation_error hfailed hop]
    | ok op =>
      rw [emit_of_operation_ok hfailed hop, lines_write, countLabel_eq]

theorem lines_afterEach (e : Emitter) (is : List Instruction) :
    (e.afterEach is).lines = e.lines + (e.linesOfEach is).length := by
  induction is generalizing e with
  | nil => rfl
  | cons i is ih =>
    rw [afterEach_cons, ih, lines_emit, linesOfEach, List.length_append, Nat.add_assoc]

/-! ## Sinks with and without a limit -/

/-- Every line has been taken, and there is no limit. -/
structure Unlimited (e : Emitter) : Prop where
  room : e.sink.room = none
  failed : e.failed = false

/-- The emitter with a sink that takes only so many lines more. -/
def limited (e : Emitter) (room : Nat) (refusal : Text) : Emitter :=
  { e with sink := { room := some room, refusal := refusal } }

theorem write_limited_of_le {e : Emitter} {room : Nat} {refusal : Text} {ls : List AsmLine}
    (h : ls.length ≤ room) :
    (e.limited room refusal).write ls =
      ({ e.limited (room - ls.length) refusal with lines := e.lines + ls.length }, ls) := by
  induction ls generalizing e room with
  | nil => rfl
  | cons l ls ih =>
    obtain ⟨room, rfl⟩ : ∃ r, room = r + 1 :=
      Nat.exists_eq_add_of_le' (Nat.le_trans (Nat.le_add_left 1 ls.length) h)
    have haccept : (e.limited (room + 1) refusal).accept? =
        some (limited { e with lines := e.lines + 1 } room refusal) := rfl
    rw [write, haccept]
    simp only [ih (Nat.le_of_succ_le_succ h)]
    rw [List.length_cons, Nat.add_sub_add_right, Nat.add_right_comm, Nat.add_assoc]
    rfl

theorem write_limited_of_lt {e : Emitter} {room : Nat} {refusal : Text} {ls : List AsmLine}
    (h : room < ls.length) :
    (e.limited room refusal).write ls =
      ({ e.limited 0 refusal with lines := e.lines + room, failed := true }, ls.take room) := by
  induction ls generalizing e room with
  | nil => cases h
  | cons l ls ih =>
    cases room with
    | zero => rfl
    | succ room =>
      have haccept : (e.limited (room + 1) refusal).accept? =
          some (limited { e with lines := e.lines + 1 } room refusal) := rfl
      rw [write, haccept]
      simp only [ih (Nat.lt_of_succ_lt_succ h)]
      rw [List.take_succ_cons, Nat.add_right_comm, Nat.add_assoc]
      rfl

theorem countLabel_limited (e : Emitter) (room : Nat) (refusal : Text) (op : Operation) :
    (e.limited room refusal).countLabel op = (e.countLabel op).limited room refusal := by
  cases op <;> rfl

theorem Unlimited.emit {e : Emitter} (h : e.Unlimited) (i : Instruction) :
    (e.emit i).emitter.Unlimited := by
  cases hop : i.operation with
  | error err =>
    rw [emit_of_operation_error h.failed hop]
    exact h
  | ok op =>
    rw [emit_of_room_none h.room h.failed hop]
    exact ⟨h.room, h.failed⟩

/-- As long as there is room, a limit makes no difference. -/
theorem emit_limited_of_le {e : Emitter} (he : e.Unlimited) {i : Instruction} {room : Nat}
    (h : (e.emit i).written.length ≤ room) (refusal : Text) :
    (e.limited room refusal).emit i =
      ⟨(e.emit i).emitter.limited (room - (e.emit i).written.length) refusal, (e.emit i).written,
        (e.emit i).error⟩ := by
  have hfailed : (e.limited room refusal).failed = false := he.failed
  cases hop : i.operation with
  | error err =>
    rw [emit_of_operation_error he.failed hop, emit_of_operation_error hfailed hop]
    rfl
  | ok op =>
    rw [emit_of_room_none he.room he.failed hop] at h ⊢
    rw [emit_of_operation_ok hfailed hop, countLabel_limited, countLabel_eq]
    have hblock : (e.limited room refusal).block i op = e.block i op := rfl
    rw [hblock, write_limited_of_le h]
    simp [limited, writeError, he.failed]

/-- The lines that fit are written, and the emitter has failed. -/
theorem emit_limited_of_lt {e : Emitter} (he : e.Unlimited) {i : Instruction} {room : Nat}
    (h : room < (e.emit i).written.length) (refusal : Text) :
    ((e.limited room refusal).emit i).emitter.failed = true ∧
      ((e.limited room refusal).emit i).emitter.sink.refusal = refusal ∧
      ((e.limited room refusal).emit i).written = (e.emit i).written.take room := by
  have hfailed : (e.limited room refusal).failed = false := he.failed
  cases hop : i.operation with
  | error err =>
    rw [emit_of_operation_error he.failed hop] at h
    cases h
  | ok op =>
    rw [emit_of_room_none he.room he.failed hop] at h ⊢
    rw [emit_of_operation_ok hfailed hop, countLabel_limited, countLabel_eq]
    have hblock : (e.limited room refusal).block i op = e.block i op := rfl
    rw [hblock, write_limited_of_lt h]
    exact ⟨rfl, rfl, rfl⟩

/-! ## Sequences of instructions -/

theorem afterEach_of_failed {e : Emitter} (h : e.failed = true) (is : List Instruction) :
    e.afterEach is = e := by
  induction is with
  | nil => rfl
  | cons i is ih =>
    rw [afterEach_cons, emit_of_failed h]
    exact ih

theorem linesOfEach_of_failed {e : Emitter} (h : e.failed = true) (is : List Instruction) :
    e.linesOfEach is = [] := by
  induction is with
  | nil => rfl
  | cons i is ih =>
    rw [linesOfEach, emit_of_failed h]
    exact ih

/-- An emitter with a limited sink is given the same instructions as one without a limit. It writes
the first lines of the other one. If they do not all fit, it has failed, and otherwise that much
room is left. -/
theorem each_limited {e : Emitter} (he : e.Unlimited) (is : List Instruction) (room : Nat)
    (refusal : Text) :
    (e.limited room refusal).linesOfEach is = (e.linesOfEach is).take room ∧
      ((e.linesOfEach is).length ≤ room →
        (e.limited room refusal).afterEach is =
          (e.afterEach is).limited (room - (e.linesOfEach is).length) refusal) ∧
      (room < (e.linesOfEach is).length →
        ((e.limited room refusal).afterEach is).failed = true ∧
          ((e.limited room refusal).afterEach is).sink.refusal = refusal) := by
  induction is generalizing e room with
  | nil => exact ⟨by simp [linesOfEach], fun _ => rfl, fun h => absurd h (Nat.not_lt_zero room)⟩
  | cons i is ih =>
    rw [afterEach_cons, afterEach_cons, linesOfEach, linesOfEach, List.length_append,
      List.take_append]
    rcases Nat.lt_or_ge room (e.emit i).written.length with hroom | hroom
    · obtain ⟨hfailed, hrefusal, hwritten⟩ := emit_limited_of_lt he hroom refusal
      rw [linesOfEach_of_failed hfailed, afterEach_of_failed hfailed, hwritten]
      refine ⟨?_, fun h => ?_, fun _ => ⟨hfailed, hrefusal⟩⟩
      · rw [Nat.sub_eq_zero_of_le (Nat.le_of_lt hroom), List.take_zero]
      · omega
    · obtain ⟨htaken, hfits, hexceeds⟩ := ih (he.emit i) (room - (e.emit i).written.length)
      rw [emit_limited_of_le he hroom]
      refine ⟨?_, fun h => ?_, fun h => hexceeds (by omega)⟩
      · rw [htaken, List.take_of_length_le hroom]
      · rw [hfits (by omega), Nat.sub_sub]

theorem Unlimited.afterEach {e : Emitter} (h : e.Unlimited) (is : List Instruction) :
    (e.afterEach is).Unlimited := by
  induction is generalizing e with
  | nil => exact h
  | cons i is ih => exact ih (h.emit i)

/-- The emitter has failed exactly if there were more lines than room for them. -/
theorem failed_afterEach_limited {e : Emitter} (he : e.Unlimited) (is : List Instruction)
    (room : Nat) (refusal : Text) :
    ((e.limited room refusal).afterEach is).failed = true ↔
      room < (e.linesOfEach is).length := by
  obtain ⟨-, hfits, hexceeds⟩ := each_limited he is room refusal
  refine ⟨fun hfailed => ?_, fun h => (hexceeds h).1⟩
  by_contra hle
  rw [hfits (Nat.not_lt.1 hle)] at hfailed
  exact absurd hfailed (by simp [limited, (he.afterEach is).failed])

/-- **A sink that takes `n` lines cuts the output off after `n` lines.** Instructions are given to a
new emitter one by one. One that is refused while no line has been is as if it had not been given.
If the sink takes `n` lines and no more, the lines that are written are the first `n` of those that
would be written without a limit, and all are counted. From the instruction on at which a line is
refused, all instructions end in the error of the sink, and no later one changes anything. -/
theorem limited_sink_cuts_off (ns : Text) (k : Int64) (is : List Instruction) :
    let start (sink : Sink) : Emitter := { staticNamespace := ns, labels := k, sink := sink }
    (∀ sink before i after, is = before ++ i :: after →
      let e := (start sink).afterEach before
      (e.emit i).emitter.failed = false → (e.emit i).error ≠ none →
        (e.emit i).written = [] ∧ (e.emit i).emitter = e) ∧
    ∀ n refusal,
      let unlimited := start {}
      let limited := start { room := some n, refusal := refusal }
      limited.linesOfEach is = (unlimited.linesOfEach is).take n ∧
      (limited.afterEach is).lines = (limited.linesOfEach is).length ∧
      ∀ before i after, is = before ++ i :: after →
        let e := limited.afterEach before
        ((e.emit i).emitter.failed = true ↔
          n < (unlimited.linesOfEach (before ++ [i])).length) ∧
        ((e.emit i).emitter.failed = true → (e.emit i).error = some (.write refusal) ∧
          ∀ middle j rest, after = middle ++ j :: rest →
            let e' := limited.afterEach (before ++ i :: middle)
            e'.emit j = ⟨e', [], some (.write refusal)⟩) := by
  intro start
  refine ⟨fun sink before i after _ => emit_of_error, fun n refusal => ?_⟩
  intro unlimited limited
  have hunlimited : unlimited.Unlimited := ⟨rfl, rfl⟩
  have hlimited : limited = unlimited.limited n refusal := rfl
  refine ⟨(each_limited hunlimited is n refusal).1, ?_, fun before i after _ => ?_⟩
  · rw [lines_afterEach, Nat.zero_add]
  · intro e
    have hafter : (e.emit i).emitter = limited.afterEach (before ++ [i]) :=
      (afterEach_append limited before [i]).symm
    refine ⟨by rw [hafter, hlimited, failed_afterEach_limited hunlimited], fun hfailed => ?_⟩
    have hrefusal : (e.emit i).emitter.sink.refusal = refusal := by
      rw [hafter, hlimited] at hfailed ⊢
      obtain ⟨-, -, hexceeds⟩ := each_limited hunlimited (before ++ [i]) n refusal
      exact (hexceeds ((failed_afterEach_limited hunlimited _ n refusal).1 hfailed)).2
    refine ⟨by rw [error_of_failed hfailed, hrefusal], fun middle j rest _ => ?_⟩
    -- the emitter is still the one that the failing instruction has left
    intro e'
    have hsame : e' = (e.emit i).emitter := by
      have hstays := afterEach_of_failed hfailed middle
      rw [hafter, ← afterEach_append, ← List.append_cons] at hstays
      rw [hafter]
      exact hstays
    rw [hsame, emit_of_failed hfailed, hrefusal]

/-- The sink is full in the middle of the second instruction; the first one has no code, and the
last one is not even looked at. -/
theorem limited_sink_cuts_off_push :
    let is : List Instruction :=
      [⟨utf8 "pop", utf8 "constant", 1, 1⟩, ⟨utf8 "push", utf8 "constant", 1, 2⟩,
        ⟨utf8 "eq", [], 0, 3⟩, ⟨utf8 "mul", [], 0, 4⟩]
    let e : Emitter := { sink := { room := some 3, refusal := utf8 "disk full" } }
    e.linesOfEach is =
        [.comment (utf8 "push constant 1"), .load (utf8 "1"), .compute (utf8 "D=A")] ∧
      (e.afterEach is).lines = 3 ∧
      ((e.afterEach (is.take 3)).emit ⟨utf8 "mul", [], 0, 4⟩).error =
        some (.write (utf8 "disk full")) := by
  intro is e
  obtain ⟨-, hlimited⟩ := limited_sink_cuts_off [] 0 is
  obtain ⟨hlines, hcount, hsplit⟩ := hlimited 3 (utf8 "disk full")
  obtain ⟨-, hfails⟩ := hsplit (is.take 1) ⟨utf8 "push", utf8 "constant", 1, 2⟩ (is.drop 2) rfl
  obtain ⟨-, hlater⟩ := hfails rfl
  refine ⟨hlines.trans rfl, hcount.trans (congrArg List.length (hlines.trans rfl)), ?_⟩
  exact congrArg Emission.error (hlater [⟨utf8 "eq", [], 0, 3⟩] ⟨utf8 "mul", [], 0, 4⟩ [] rfl)

end Emitter

end HackVM
