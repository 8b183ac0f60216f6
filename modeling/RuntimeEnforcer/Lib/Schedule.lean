import RuntimeEnforcer.Lib.Run

/-!
# Endless runs

A schedule is an endless sequence of inputs, and `trace` has the state after each number of them.
An input that cannot do anything where it arrives leaves the state alone, so nothing is said about
who is scheduled when. What a schedule owes is that inputs of some kind keep coming (`Recurs`), and
`trace_reaches` is what that is good for: a rank that never grows and that every input of the kind
lowers comes down to zero.
-/

set_option autoImplicit false

namespace RuntimeEnforcer.Lib

variable {σ ι : Type}

def trace (step : ι → σ → σ) (sched : Nat → ι) (s : σ) (n : Nat) : σ :=
  run step ((List.range n).map sched) s

/-- Inputs of this kind keep coming. -/
def Recurs (sched : Nat → ι) (kind : ι → Prop) : Prop := ∀ n, ∃ m, n ≤ m ∧ kind (sched m)

variable {step : ι → σ → σ} {sched : Nat → ι} {s : σ}

theorem trace_succ (n : Nat) :
    trace step sched s (n + 1) = step (sched n) (trace step sched s n) := by
  rw [trace, List.range_succ, List.map_append, run_append]
  rfl

theorem trace_inv {I : σ → Prop} (hstep : ∀ s i, I s → I (step i s)) (h : I s) (n : Nat) :
    I (trace step sched s n) := by
  induction n with
  | zero => exact h
  | succ n ih =>
    rw [trace_succ]
    exact hstep _ _ ih

section Rank

variable {I P : σ → Prop} {kind : ι → Prop} (rank : σ → Nat)

theorem trace_rank_le (hI : ∀ n, I (trace step sched s n))
    (hlasts : ∀ s i, I s → P s → P (step i s) ∧ rank (step i s) ≤ rank s) {n m : Nat}
    (hnm : n ≤ m) (h : P (trace step sched s n)) :
    P (trace step sched s m) ∧ rank (trace step sched s m) ≤ rank (trace step sched s n) := by
  induction hnm with
  | refl => exact ⟨h, Nat.le_refl _⟩
  | @step m _ ih =>
    have hone := hlasts _ (sched m) (hI m) ih.1
    rw [trace_succ]
    exact ⟨hone.1, Nat.le_trans hone.2 ih.2⟩

/-- **Progress.** -/
theorem trace_reaches (hI : ∀ n, I (trace step sched s n))
    (hlasts : ∀ s i, I s → P s → P (step i s) ∧ rank (step i s) ≤ rank s)
    (hturn : ∀ s i, I s → P s → kind i → rank s ≠ 0 → rank (step i s) < rank s)
    (hrecurs : Recurs sched kind) {n : Nat} (h : P (trace step sched s n)) :
    ∃ m, n ≤ m ∧ rank (trace step sched s m) = 0 := by
  -- on the rank, for every moment
  induction hr : rank (trace step sched s n) using Nat.strongRecOn generalizing n with
  | ind r ih =>
    obtain ⟨m, hnm, hkind⟩ := hrecurs n
    obtain ⟨hP, hle⟩ := trace_rank_le rank hI hlasts hnm h
    by_cases hzero : rank (trace step sched s m) = 0
    · exact ⟨m, hnm, hzero⟩
    · have hlt : rank (trace step sched s (m + 1)) < rank (trace step sched s m) := by
        rw [trace_succ]
        exact hturn _ _ (hI m) hP hkind hzero
      have hnext := (trace_rank_le rank hI hlasts (Nat.le_add_right m 1) hP).1
      obtain ⟨k, hk, hdone⟩ := ih _ (by omega) hnext rfl
      exact ⟨k, by omega, hdone⟩

end Rank

end RuntimeEnforcer.Lib
