import Mathlib.Data.List.Basic

/-!
# Runs of a step function

A run is a list of inputs fed to a step function. `Along C is s` says that each input meets `C`
in the state it arrives in, and `run_inv` is the one induction: what every step that meets `C`
preserves, every run whose steps all meet `C` preserves.
-/

set_option autoImplicit false

namespace RuntimeEnforcer.Lib

variable {σ ι : Type} (step : ι → σ → σ)

def run : List ι → σ → σ
  | [], s => s
  | i :: is, s => run is (step i s)

/-- Every input meets `C` in the state it arrives in. -/
def Along (C : σ → ι → Prop) : List ι → σ → Prop
  | [], _ => True
  | i :: is, s => C s i ∧ Along C is (step i s)

instance Along.decidable {C : σ → ι → Prop} [∀ s i, Decidable (C s i)] :
    (is : List ι) → (s : σ) → Decidable (Along step C is s)
  | [], _ => .isTrue trivial
  | i :: is, s => @instDecidableAnd _ _ _ (Along.decidable is (step i s))

variable {step}

theorem run_append {is js : List ι} {s : σ} :
    run step (is ++ js) s = run step js (run step is s) := by
  induction is generalizing s with
  | nil => rfl
  | cons i is ih => exact ih

theorem map_run {τ : Type} {step' : ι → τ → τ} (f : σ → τ)
    (h : ∀ i s, f (step i s) = step' i (f s)) (is : List ι) (s : σ) :
    f (run step is s) = run step' is (f s) := by
  induction is generalizing s with
  | nil => rfl
  | cons i is ih => exact (ih (step i s)).trans (congrArg _ (h i s))

theorem along_append {C : σ → ι → Prop} {is js : List ι} {s : σ} :
    Along step C (is ++ js) s ↔ Along step C is s ∧ Along step C js (run step is s) := by
  induction is generalizing s with
  | nil => simp [Along, run]
  | cons i is ih => simp only [List.cons_append, Along, run, ih, and_assoc]

theorem Along.mono {C D : σ → ι → Prop} (h : ∀ s i, C s i → D s i) {is : List ι} {s : σ}
    (hC : Along step C is s) : Along step D is s := by
  induction is generalizing s with
  | nil => trivial
  | cons i is ih => exact ⟨h s i hC.1, ih hC.2⟩

theorem Along.and {C D : σ → ι → Prop} {is : List ι} {s : σ} (hC : Along step C is s)
    (hD : Along step D is s) : Along step (fun s i => C s i ∧ D s i) is s := by
  induction is generalizing s with
  | nil => trivial
  | cons i is ih => exact ⟨⟨hC.1, hD.1⟩, ih hC.2 hD.2⟩

theorem along_of_forall {D : ι → Prop} {is : List ι} {s : σ} (h : ∀ i ∈ is, D i) :
    Along step (fun _ i => D i) is s := by
  induction is generalizing s with
  | nil => trivial
  | cons i is ih => exact ⟨h i (by simp), ih fun j hj => h j (by simp [hj])⟩

/-- **The run rule.** -/
theorem run_inv {C : σ → ι → Prop} {I : σ → Prop}
    (hstep : ∀ s i, I s → C s i → I (step i s)) {is : List ι} {s : σ} (h : I s)
    (hC : Along step C is s) : I (run step is s) := by
  induction is generalizing s with
  | nil => exact h
  | cons i is ih => exact ih (hstep s i h hC.1) hC.2

/-- What follows of an input from an invariant, along a whole run. -/
theorem along_of_inv {C D : σ → ι → Prop} {I : σ → Prop}
    (hstep : ∀ s i, I s → C s i → I (step i s)) (hD : ∀ s i, I s → C s i → D s i) {is : List ι}
    {s : σ} (h : I s) (hC : Along step C is s) : Along step D is s := by
  induction is generalizing s with
  | nil => trivial
  | cons i is ih => exact ⟨hD s i h hC.1, ih (hstep s i h hC.1) hC.2⟩

/-- **The converse.** An input that does not meet `C` spoils the state for good, so a run that ends
unspoilt has met `C` all along. -/
theorem along_of_unspoilt {L C : σ → ι → Prop} {I S : σ → Prop}
    (hstep : ∀ s i, I s → L s i → I (step i s))
    (hkeep : ∀ s i, I s → L s i → S s → S (step i s))
    (hspoil : ∀ s i, I s → L s i → ¬ C s i → S (step i s)) {is : List ι} {s : σ} (h : I s)
    (hL : Along step L is s) (hend : ¬ S (run step is s)) : Along step C is s := by
  induction is generalizing s with
  | nil => trivial
  | cons i is ih =>
    have hi := hstep s i h hL.1
    refine ⟨Classical.byContradiction fun hC => hend ?_, ih hi hL.2 hend⟩
    have hrun : I (run step is (step i s)) ∧ S (run step is (step i s)) :=
      run_inv (I := fun s => I s ∧ S s)
        (fun s i hs hl => ⟨hstep s i hs.1 hl, hkeep s i hs.1 hl hs.2⟩)
        ⟨hi, hspoil s i h hL.1 hC⟩ hL.2
    exact hrun.2

/-- Where a step keeps `I` if and only if its input meets `C`, every state of a run has `I` if and
only if every input meets `C`. -/
theorem forall_take_iff {L C : σ → ι → Prop} {J I : σ → Prop}
    (hJ : ∀ s i, J s → L s i → J (step i s))
    (hstep : ∀ s i, J s → L s i → I s → (I (step i s) ↔ C s i)) {is : List ι} {s : σ} (hs : J s)
    (hi : I s) (hL : Along step L is s) :
    (∀ n, I (run step (is.take n) s)) ↔ Along step C is s := by
  induction is generalizing s with
  | nil => simp [run, Along, hi]
  | cons i is ih =>
    have hhead := hstep s i hs hL.1 hi
    constructor
    · intro h
      have hone : I (step i s) := h 1
      exact ⟨hhead.mp hone, (ih (hJ s i hs hL.1) hone hL.2).mp fun n => h (n + 1)⟩
    · rintro ⟨hC, h⟩ n
      cases n with
      | zero => exact hi
      | succ n => exact (ih (hJ s i hs hL.1) (hhead.mpr hC) hL.2).mpr h n

/-- **Unwinding.** Two runs, one of them with the high inputs left out. They stay related all along
if and only if each high input, where it arrives, is one the relation does not notice. -/
theorem related_filter_iff {low : ι → Bool} {L : ι → Prop} {C : σ → ι → Prop}
    {R : σ → σ → Prop}
    (hlow : ∀ i s t, L i → low i = true → R s t → R (step i s) (step i t))
    (hhigh : ∀ i s t, L i → low i = false → R s t → (R (step i s) t ↔ C s i)) {is : List ι}
    {s t : σ} (hL : ∀ i ∈ is, L i) (hR : R s t) :
    (∀ n, R (run step (is.take n) s) (run step ((is.take n).filter low) t)) ↔
      Along step (fun s i => low i = false → C s i) is s := by
  induction is generalizing s t with
  | nil => simp [run, Along, hR]
  | cons i is ih =>
    have hLi := hL i (by simp)
    have hLis : ∀ j ∈ is, L j := fun j hj => hL j (by simp [hj])
    cases hi : low i with
    | true =>
      have hnext := ih hLis (hlow i s t hLi hi hR)
      constructor
      · intro h
        refine ⟨fun hf => absurd hi (by simp [hf]), hnext.mp fun n => ?_⟩
        simpa [run, hi] using h (n + 1)
      · rintro ⟨_, h⟩ n
        cases n with
        | zero => exact hR
        | succ n => simpa [run, hi] using hnext.mpr h n
    | false =>
      have hhead := hhigh i s t hLi hi hR
      constructor
      · intro h
        have hone : R (step i s) t := by simpa [run, hi] using h 1
        refine ⟨fun _ => hhead.mp hone, (ih hLis hone).mp fun n => ?_⟩
        simpa [run, hi] using h (n + 1)
      · rintro ⟨hC, h⟩ n
        have hone := hhead.mpr (hC hi)
        cases n with
        | zero => exact hR
        | succ n => simpa [run, hi] using (ih hLis hone).mpr h n

end RuntimeEnforcer.Lib
