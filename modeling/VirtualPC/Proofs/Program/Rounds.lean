/-
VirtualPC/Proofs/Program/Rounds.lean

Runs of a program put together from pieces.  `Reaches base program n s after` says that `n` steps
lead from one state to another; single steps are chained by `Reaches.trans`, and a loop goes by
its rounds,

    P 0 s,  and each round of `period` steps leads from P j to P (j + 1)

so that `period * j` steps lead from the start to a state with `P j` (`Reaches.rounds`).

The processor, which follows a well-formed program step by step, spends its budget in the same
way: where `n` steps lead to a state that has not stopped, a run of `n` instructions completes
(`Matches.run_completed`), and where they lead to one that has, every run of at least `n` ends
halted there (`Matches.run_halted`).
-/
import VirtualPC.Proofs.Program.Refinement

namespace VirtualPC.Program

variable {base size m n period count : Nat} {program : List Instruction} {s mid after : State}
variable {i : Instruction}

/-- `n` steps lead from one state to another. -/
def Reaches (base : Nat) (program : List Instruction) (n : Nat) (s after : State) : Prop :=
  ∃ trace, run? base program n s = some (trace, after)

namespace Reaches

theorem refl (base : Nat) (program : List Instruction) (s : State) :
    Reaches base program 0 s s := ⟨[], rfl⟩

/-- An instruction carried out is a step. -/
theorem step (hrun : s.stopped = false) (hi : program[s.index]? = some i)
    (hafter : carryOut? base program s i = some after) : Reaches base program 1 s after := by
  refine ⟨[i], ?_⟩
  rw [run?, step?_eq_some_iff.2 ⟨hrun, hi, hafter⟩]
  rfl

theorem trans (first : Reaches base program m s mid) (second : Reaches base program n mid after) :
    Reaches base program (m + n) s after := by
  obtain ⟨trace, hfirst⟩ := first
  induction m generalizing s trace with
  | zero =>
    cases hfirst
    rwa [Nat.zero_add]
  | succ m ih =>
    obtain ⟨⟨i, next⟩, hstep, hfirst⟩ := Option.bind_eq_some_iff.1 hfirst
    obtain ⟨⟨rest, last⟩, hrest, hfirst⟩ := Option.bind_eq_some_iff.1 hfirst
    cases hfirst
    obtain ⟨trace', hrun⟩ := ih rest hrest
    refine ⟨i :: trace', ?_⟩
    rw [Nat.add_right_comm, run?, hstep]
    show (run? base program (m + n) next).bind _ = _
    rw [hrun]
    rfl

/-- **A loop by its rounds**: what holds at the start, and goes on from each of the first `count`
rounds to the next, holds after any number of them. -/
theorem rounds {P : Nat → State → Prop}
    (hround : ∀ j < count, ∀ s, P j s → ∃ after, Reaches base program period s after ∧
      P (j + 1) after)
    (hstart : P 0 s) :
    ∀ j ≤ count, ∃ after, Reaches base program (period * j) s after ∧ P j after := by
  intro j hj
  induction j with
  | zero => exact ⟨s, refl base program s, hstart⟩
  | succ j ih =>
    obtain ⟨mid, hmid, hP⟩ := ih (Nat.le_of_succ_le hj)
    obtain ⟨after, hafter, hP'⟩ := hround j hj mid hP
    exact ⟨after, Nat.mul_succ period j ▸ hmid.trans hafter, hP'⟩

end Reaches

/-! ### The processor -/

section Processor

variable {base : UInt16} {core : Core}

/-- A run starts with the steps of the program that it follows. -/
theorem Matches.run_add (hp : WellFormed base.toNat size program)
    (h : Matches base program s core) (hreach : Reaches base.toNat program n s after) :
    ∃ last, (∀ rest, Core.run (n + rest) core
        = ((Core.run rest last).1.after n, (Core.run rest last).2)) ∧
      Matches base program after last := by
  obtain ⟨trace, hrun⟩ := hreach
  obtain ⟨last, hcalls, hlast⟩ := h.run hp hrun
  exact ⟨last, fun rest => Core.run_add_of_calls rest hcalls, hlast⟩

/-- A run of as many instructions as the program has taken steps completes, if the program has
not stopped. -/
theorem Matches.run_completed (hp : WellFormed base.toNat size program)
    (h : Matches base program s core) (hreach : Reaches base.toNat program n s after)
    (hrun : after.stopped = false) :
    ∃ last, Core.run n core = (.completed n, last) ∧ Matches base program after last := by
  obtain ⟨last, hadd, hlast⟩ := h.run_add hp hreach
  refine ⟨last, ?_, hlast⟩
  have hall := hadd 0
  rw [Nat.add_zero, Core.run_zero, hlast.halted, hrun, if_neg Bool.false_ne_true] at hall
  exact hall

/-- A program that stops within the budget halts the processor. -/
theorem Matches.run_halted (hp : WellFormed base.toNat size program)
    (h : Matches base program s core) (hreach : Reaches base.toNat program n s after)
    (hstop : after.stopped = true) :
    ∃ last, (∀ budget, n ≤ budget → Core.run budget core = (.halted n, last)) ∧
      Matches base program after last := by
  obtain ⟨last, hadd, hlast⟩ := h.run_add hp hreach
  refine ⟨last, ?_, hlast⟩
  intro budget hn
  obtain ⟨rest, rfl⟩ := Nat.exists_eq_add_of_le hn
  rw [hadd, Core.run_of_halted rest (hlast.halted.trans hstop)]
  rfl

end Processor

end VirtualPC.Program
