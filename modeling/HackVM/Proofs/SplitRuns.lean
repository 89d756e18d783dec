import HackVM.Proofs.Runs

/-!
# Runs in parts

A run is limited by the number of steps that a computer has made in all, not by the steps of one
call. So a run that was stopped by the limit can be taken up again with a higher one, and nothing
shows that it was interrupted (`run_run_of_stepLimit`); one that came to its end comes to the same
end under every higher limit (`run_eq_run_of_ne_stepLimit`).

The count of steps wraps around, but not within a run: a run steps only as long as its count is
below the limit. So a run is the loop of `run_eq_loop`, and `run_induction` goes through the four
ways in which it can start; all that is said here about runs follows from it.
-/

namespace HackVM

namespace Machine

/-! ## How a run starts -/

theorem compute_ne_stepLimit (m : Machine) (dest comp jump : Text) (line : Int)
    (steps : Int64) (pc : Int) :
    (m.compute dest comp jump line).2 ≠ some (.stepLimit steps pc) := by
  unfold compute
  repeat' split
  all_goals simp

/-- The limit is not a matter of single words. -/
theorem step_ne_stepLimit (m : Machine) (steps : Int64) (pc : Int) :
    m.step.2 ≠ some (.stepLimit steps pc) := by
  unfold step
  split
  · simp
  · next w _ =>
    cases w with
    | address v line => simp [execute]
    | compute dest comp jump line => exact compute_ne_stepLimit _ dest comp jump line steps pc

theorem runFor_zero {m : Machine} (h : m.isHalted = false) :
    m.runFor 0 = (m, some (.stepLimit m.steps m.pc)) := by
  rw [runFor, if_neg (by simp [h])]

theorem runFor_of_fault {m m' : Machine} {fault : Fault} (hhalted : m.isHalted = false)
    (h : m.step = (m', some fault)) (n : Nat) : m.runFor (n + 1) = (m', some fault) := by
  rw [runFor, if_neg (by simp [hhalted])]
  simp only [h]

theorem toInt_add_one_of_lt {a b : Int64} (h : a < b) : (a + 1).toInt = a.toInt + 1 := by
  have hlow := a.le_toInt
  have hhigh := b.toInt_lt
  rw [Int64.lt_iff_toInt_lt] at h
  rw [Int64.toInt_add, Int64.toInt_one]
  exact Int.bmod_eq_of_le (by omega) (by omega)

/-- **A run is a loop.** As long as the computer is not halted and its count of steps has not come
to the limit, a run executes a word and goes on, unless the word fails. -/
theorem run_eq_loop (m : Machine) (limit : Int64) :
    m.run limit =
      if m.isHalted then (m, none)
      else if limit ≤ m.steps then (m, some (.stepLimit m.steps m.pc))
      else match m.step with
        | (m', some fault) => (m', some fault)
        | (m', none) => m'.run limit := by
  cases hhalted : m.isHalted with
  | true => exact runFor_of_isHalted hhalted _
  | false =>
    rw [if_neg Bool.false_ne_true]
    by_cases hlimit : limit ≤ m.steps
    · rw [if_pos hlimit, run]
      rw [Int64.le_iff_toInt_le] at hlimit
      rw [Int.toNat_of_nonpos (by omega), runFor_zero hhalted]
    · have hlt : m.steps < limit := Int64.not_le.1 hlimit
      rw [if_neg hlimit, run]
      obtain ⟨n, hn⟩ : ∃ n, (limit.toInt - m.steps.toInt).toNat = n + 1 := by
        rw [Int64.lt_iff_toInt_lt] at hlt
        exact ⟨(limit.toInt - m.steps.toInt).toNat - 1, by omega⟩
      rw [hn]
      rcases hstep : m.step with ⟨m', _ | fault⟩
      · -- the step that was made is counted, so one less is left
        have hsteps : m'.steps.toInt = m.steps.toInt + 1 := by
          rw [Continues.steps_eq ⟨hhalted, hstep⟩, toInt_add_one_of_lt hlt]
        rw [runFor_of_continues ⟨hhalted, hstep⟩]
        simp only [run]
        rw [show (limit.toInt - m'.steps.toInt).toNat = n by omega]
      · rw [runFor_of_fault hhalted hstep]

theorem run_of_isHalted {m : Machine} (h : m.isHalted = true) (limit : Int64) :
    m.run limit = (m, none) := by
  rw [run_eq_loop, if_pos h]

theorem run_of_limit_le {m : Machine} (hhalted : m.isHalted = false) {limit : Int64}
    (h : limit ≤ m.steps) : m.run limit = (m, some (.stepLimit m.steps m.pc)) := by
  rw [run_eq_loop, if_neg (by simp [hhalted]), if_pos h]

theorem run_of_fault {m m' : Machine} {fault : Fault} (hhalted : m.isHalted = false)
    (hstep : m.step = (m', some fault)) {limit : Int64} (h : m.steps < limit) :
    m.run limit = (m', some fault) := by
  rw [run_eq_loop, if_neg (by simp [hhalted]), if_neg (Int64.not_le.2 h), hstep]

theorem run_of_continues {m m' : Machine} (hcontinues : m.Continues m') {limit : Int64}
    (h : m.steps < limit) : m.run limit = m'.run limit := by
  rw [run_eq_loop, if_neg (by simp [hcontinues.1]), if_neg (Int64.not_le.2 h), hcontinues.2]

/-- A run is over because the computer is halted, because the limit is reached or because the next
word fails; otherwise it goes on, closer to the limit. -/
@[elab_as_elim]
theorem run_induction {limit : Int64} {motive : Machine → Machine × Option Fault → Prop}
    (halted : ∀ m, m.isHalted = true → motive m (m, none))
    (stopped : ∀ m, m.isHalted = false → limit ≤ m.steps →
      motive m (m, some (.stepLimit m.steps m.pc)))
    (fails : ∀ m m' fault, m.isHalted = false → m.steps < limit → m.step = (m', some fault) →
      motive m (m', some fault))
    (continues : ∀ m m', m.steps < limit → m.Continues m' → motive m' (m'.run limit) →
      motive m (m'.run limit))
    (m : Machine) : motive m (m.run limit) := by
  induction hn : (limit.toInt - m.steps.toInt).toNat using Nat.strong_induction_on
    generalizing m with
  | _ n ih =>
    cases hhalted : m.isHalted with
    | true =>
      rw [run_of_isHalted hhalted]
      exact halted m hhalted
    | false =>
      by_cases hlimit : limit ≤ m.steps
      · rw [run_of_limit_le hhalted hlimit]
        exact stopped m hhalted hlimit
      · have hlt : m.steps < limit := Int64.not_le.1 hlimit
        rcases hstep : m.step with ⟨m', _ | fault⟩
        · have hcontinues : m.Continues m' := ⟨hhalted, hstep⟩
          have hsteps : m'.steps.toInt = m.steps.toInt + 1 := by
            rw [hcontinues.steps_eq, toInt_add_one_of_lt hlt]
          rw [run_of_continues hcontinues hlt]
          refine continues m m' hlt hcontinues (ih _ ?_ m' rfl)
          rw [Int64.lt_iff_toInt_lt] at hlt
          omega
        · rw [run_of_fault hhalted hstep hlt]
          exact fails m m' fault hhalted hlt hstep

/-! ## Runs with a higher limit -/

/-- A run that was stopped by its limit goes on from where it was stopped. -/
theorem run_run_of_stepLimit {m : Machine} {a b : Int64} (hab : a ≤ b) {steps : Int64} {pc : Int}
    (h : (m.run a).2 = some (.stepLimit steps pc)) : (m.run a).1.run b = m.run b := by
  induction m using run_induction with
  | halted m hhalted => cases h
  | stopped m hhalted hlimit => rfl
  | fails m m' fault hhalted hlt hstep =>
    refine absurd ?_ (m.step_ne_stepLimit steps pc)
    rw [hstep, ← h]
  | continues m m' hlt hcontinues ih =>
    rw [run_of_continues hcontinues (Int64.lt_of_lt_of_le hlt hab)]
    exact ih h

/-- A run that was not stopped by its limit does not change under a higher one. -/
theorem run_eq_run_of_ne_stepLimit {m : Machine} {a b : Int64} (hab : a ≤ b)
    (h : ∀ steps pc, (m.run a).2 ≠ some (.stepLimit steps pc)) : m.run b = m.run a := by
  induction m using run_induction with
  | halted m hhalted => exact run_of_isHalted hhalted b
  | stopped m hhalted hlimit => exact absurd rfl (h m.steps m.pc)
  | fails m m' fault hhalted hlt hstep =>
    exact run_of_fault hhalted hstep (Int64.lt_of_lt_of_le hlt hab)
  | continues m m' hlt hcontinues ih =>
    rw [run_of_continues hcontinues (Int64.lt_of_lt_of_le hlt hab)]
    exact ih h

/-- How many words a run executes: each step counts, and a run is stopped by the limit only after
all the steps that it leaves. -/
theorem exists_iterate_of_run (m : Machine) (limit : Int64) :
    ∃ k : Nat, (k : Int) ≤ max 0 (limit.toInt - m.steps.toInt) ∧
      (m.run limit).1 = (fun m => m.step.1)^[k] m ∧
      (m.run limit).1.steps.toInt = m.steps.toInt + k ∧
      ∀ steps pc, (m.run limit).2 = some (.stepLimit steps pc) →
        (k : Int) = max 0 (limit.toInt - m.steps.toInt) := by
  induction m using run_induction with
  | halted m hhalted => exact ⟨0, by omega, rfl, by simp, fun _ _ h => by cases h⟩
  | stopped m hhalted hlimit =>
    rw [Int64.le_iff_toInt_le] at hlimit
    exact ⟨0, by omega, rfl, by simp, fun _ _ _ => by omega⟩
  | fails m m' fault hhalted hlt hstep =>
    have hsteps : m'.steps.toInt = m.steps.toInt + 1 := by
      rw [← toInt_add_one_of_lt hlt, ← steps_step hhalted, hstep]
    rw [Int64.lt_iff_toInt_lt] at hlt
    refine ⟨1, by omega, by rw [Function.iterate_one, hstep], hsteps, fun steps pc h => ?_⟩
    refine absurd ?_ (m.step_ne_stepLimit steps pc)
    rw [hstep, ← h]
  | continues m m' hlt hcontinues ih =>
    obtain ⟨k, hk, hiterate, hsteps, hlimit⟩ := ih
    have hstep : m'.steps.toInt = m.steps.toInt + 1 := by
      rw [hcontinues.steps_eq, toInt_add_one_of_lt hlt]
    rw [Int64.lt_iff_toInt_lt] at hlt
    refine ⟨k + 1, by omega, ?_, by omega, fun steps pc h => ?_⟩
    · rw [Function.iterate_succ_apply, hcontinues.2]
      exact hiterate
    · have hall := hlimit steps pc h
      omega

/-- **A run may be split.** If it is stopped by its limit, a second run from there with a limit that
is not lower ends as one run with that limit would have. If it ends otherwise, it does so under
every higher limit. It executes no more words than the limit leaves after the steps made before, and
just as many if it is stopped by the limit. -/
theorem run_in_parts (m : Machine) {a b : Int64} (h : a ≤ b) :
    (∀ steps pc, (m.run a).2 = some (.stepLimit steps pc) → (m.run a).1.run b = m.run b) ∧
    ((∀ steps pc, (m.run a).2 ≠ some (.stepLimit steps pc)) → m.run b = m.run a) ∧
    ∃ k : Nat, (k : Int) ≤ max 0 (a.toInt - m.steps.toInt) ∧
      (m.run a).1 = (fun m => m.step.1)^[k] m ∧
      (m.run a).1.steps.toInt = m.steps.toInt + k ∧
      ∀ steps pc, (m.run a).2 = some (.stepLimit steps pc) →
        (k : Int) = max 0 (a.toInt - m.steps.toInt) :=
  ⟨fun _ _ => run_run_of_stepLimit h, run_eq_run_of_ne_stepLimit h, exists_iterate_of_run m a⟩

/-- A write to the address -1, which comes after two steps: a run of two steps is taken up again,
and one of three steps has failed for good. -/
theorem run_in_parts_write_outside :
    let m := load [.address 0 1, .compute (utf8 "A") (utf8 "!A") [] 2,
      .compute (utf8 "M") (utf8 "1") [] 3]
    (m.run 2).2 = some (.stepLimit 2 2) ∧ (m.run 2).1.run 5 = m.run 5 ∧
      (m.run 3).2 = some (.writeOutside 3 (-1)) ∧ m.run 5 = m.run 3 := by
  have hfailed : ((load [.address 0 1, .compute (utf8 "A") (utf8 "!A") [] 2,
      .compute (utf8 "M") (utf8 "1") [] 3]).run 3).2 = some (.writeOutside 3 (-1)) := by
    decide +kernel
  intro m
  have hstopped : (m.run 2).2 = some (.stepLimit 2 2) := by rfl
  obtain ⟨hresume, -, -⟩ := run_in_parts m (show (2 : Int64) ≤ 5 by decide)
  obtain ⟨-, hsame, -⟩ := run_in_parts m (show (3 : Int64) ≤ 5 by decide)
  refine ⟨hstopped, hresume 2 2 hstopped, hfailed, hsame fun steps pc h => ?_⟩
  rw [hfailed] at h
  cases h

end Machine

end HackVM
