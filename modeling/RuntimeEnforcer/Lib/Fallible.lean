import Mathlib.Data.List.Basic
import Mathlib.Data.Set.Basic

/-!
# Fallible computations that keep their state

Imperative code that returns an error does not roll back: whatever it wrote before the error
stays written. `EStateM` is exactly that shape, so a shallow embedding of such code is a term of
`EStateM ε σ α`, and what is missing is a way to reason about it without unfolding it.

`Ends r Q E` is that way, a two-sided postcondition on an outcome: `Q` of the answer and the
state when the computation returned, `E` of the error and the state when it failed. One rule a
construct (`Ends.bind`, `Ends.forM`, `Ends.zoom`), and a function's spec lemma is an `Ends` at an
arbitrary starting state — so the precondition is an ordinary hypothesis and a spec may mention
the state it started in.
-/

set_option autoImplicit false

namespace RuntimeEnforcer.Lib

variable {ε ε' σ τ α β : Type}

/-- The two-sided postcondition of an outcome. -/
def Ends (r : EStateM.Result ε σ α) (Q : α → σ → Prop) (E : ε → σ → Prop) : Prop :=
  match r with
  | .ok a s => Q a s
  | .error e s => E e s

/-- The state an outcome leaves behind, whichever way it went. -/
def after : EStateM.Result ε σ α → σ
  | .ok _ s => s
  | .error _ s => s

@[simp] theorem after_ok (a : α) (s : σ) : after (.ok a s : EStateM.Result ε σ α) = s := rfl

@[simp] theorem after_error (e : ε) (s : σ) : after (.error e s : EStateM.Result ε σ α) = s := rfl

theorem after_of_ok {r : EStateM.Result ε σ α} {a : α} {s : σ} (h : r = .ok a s) :
    after r = s := by rw [h]; rfl

theorem after_of_error {r : EStateM.Result ε σ α} {e : ε} {s : σ} (h : r = .error e s) :
    after r = s := by rw [h]; rfl

def isOk : EStateM.Result ε σ α → Bool
  | .ok _ _ => true
  | .error _ _ => false

theorem isOk_iff {r : EStateM.Result ε σ α} : isOk r = true ↔ ∃ a, r = .ok a (after r) := by
  cases r with
  | ok a s => exact ⟨fun _ => ⟨a, rfl⟩, fun _ => rfl⟩
  | error e s => exact ⟨fun h => absurd h (by simp [isOk]), fun ⟨_, h⟩ => absurd h (by simp)⟩

theorem isOk_eq_false_iff {r : EStateM.Result ε σ α} :
    isOk r = false ↔ ∃ e, r = .error e (after r) := by
  cases r with
  | ok a s => exact ⟨fun h => absurd h (by simp [isOk]), fun ⟨_, h⟩ => absurd h (by simp)⟩
  | error e s => exact ⟨fun _ => ⟨e, rfl⟩, fun _ => rfl⟩

theorem after_adaptExcept {ε' : Type} (f : ε → ε') (x : EStateM ε σ α) (s : σ) :
    after (x.adaptExcept f s) = after (x s) := by
  unfold EStateM.adaptExcept
  cases x s <;> rfl

theorem isOk_adaptExcept {ε' : Type} (f : ε → ε') (x : EStateM ε σ α) (s : σ) :
    isOk (x.adaptExcept f s) = isOk (x s) := by
  unfold EStateM.adaptExcept
  cases x s <;> rfl

@[simp] theorem ends_ok {a : α} {s : σ} {Q : α → σ → Prop} {E : ε → σ → Prop} :
    Ends (.ok a s) Q E ↔ Q a s := Iff.rfl

@[simp] theorem ends_error {e : ε} {s : σ} {Q : α → σ → Prop} {E : ε → σ → Prop} :
    Ends (.error e s) Q E ↔ E e s := Iff.rfl

theorem Ends.mono {r : EStateM.Result ε σ α} {Q Q' : α → σ → Prop} {E E' : ε → σ → Prop}
    (h : Ends r Q E) (hQ : ∀ a s, Q a s → Q' a s) (hE : ∀ e s, E e s → E' e s) :
    Ends r Q' E' := by
  cases r with
  | ok a s => exact hQ a s h
  | error e s => exact hE e s h

/-- Two facts about one outcome, conjoined. -/
theorem Ends.and {r : EStateM.Result ε σ α} {Q Q' : α → σ → Prop} {E E' : ε → σ → Prop}
    (h : Ends r Q E) (h' : Ends r Q' E') :
    Ends r (fun a s => Q a s ∧ Q' a s) (fun e s => E e s ∧ E' e s) := by
  cases r with
  | ok a s => exact ⟨h, h'⟩
  | error e s => exact ⟨h, h'⟩

/-- A postcondition that does not look at the way the computation ended is one about `after`. -/
theorem Ends.after {r : EStateM.Result ε σ α} {P : σ → Prop}
    (h : Ends r (fun _ => P) (fun _ => P)) : P (after r) := by
  cases r with
  | ok a s => exact h
  | error e s => exact h

theorem Ends.of_ok {r : EStateM.Result ε σ α} {Q : α → σ → Prop} {E : ε → σ → Prop}
    (h : Ends r Q E) {a : α} {s : σ} (hr : r = .ok a s) : Q a s := by
  subst hr; exact h

theorem Ends.of_error {r : EStateM.Result ε σ α} {Q : α → σ → Prop} {E : ε → σ → Prop}
    (h : Ends r Q E) {e : ε} {s : σ} (hr : r = .error e s) : E e s := by
  subst hr; exact h

/-- What an outcome is, as a fact to conjoin. -/
theorem Ends.self (r : EStateM.Result ε σ α) :
    Ends r (fun a s => r = .ok a s) (fun e s => r = .error e s) := by
  cases r with
  | ok a s => rfl
  | error e s => rfl

/-! ## Rules -/

variable {E : ε → σ → Prop} {f : α → EStateM ε σ β} {x : EStateM ε σ α} {s : σ}

/-- Sequencing: the second computation starts where the first returned, and a failure of the
first is the failure of both. -/
theorem Ends.bind {Q : β → σ → Prop} (h : Ends (x s) (fun a s' => Ends (f a s') Q E) E) :
    Ends ((x >>= f) s) Q E := by
  show Ends (EStateM.bind x f s) Q E
  unfold EStateM.bind
  cases hx : x s with
  | ok a s' => rw [hx] at h; exact h
  | error e s' => rw [hx] at h; exact h

theorem bind_of_ok {t : σ} {a : α} (h : x s = .ok a t) : (x >>= f) s = f a t := by
  show EStateM.bind x f s = _
  unfold EStateM.bind
  rw [h]

theorem bind_of_error {t : σ} {e : ε} (h : x s = .error e t) : (x >>= f) s = .error e t := by
  show EStateM.bind x f s = _
  unfold EStateM.bind
  rw [h]

/-- The loop rule. The invariant is indexed by what is left to visit, so it can say what the
visited part has already achieved. -/
theorem Ends.forM {f : α → EStateM ε σ PUnit} (I : List α → σ → Prop)
    (step : ∀ a rest s, I (a :: rest) s → Ends (f a s) (fun _ s' => I rest s') E) :
    ∀ (xs : List α) (s : σ), I xs s → Ends (xs.forM f s) (fun _ s' => I [] s') E
  | [], _, h => h
  | a :: rest, s, h => by
    rw [List.forM_eq_forM, List.forM_cons]
    exact Ends.bind ((step a rest s h).mono
      (fun _ s' h' => Ends.forM I step rest s' h') (fun _ _ he => he))

/-- The loop rule for a loop whose state is described by the set of things done so far: a visit of
`a` adds `g a` to the set, whatever the order of the visits. -/
theorem Ends.forM_adds {γ : Type} {f : α → EStateM ε σ PUnit} (g : α → Set γ) (J : Set γ → σ → Prop)
    (xs : List α) (step : ∀ a ∈ xs, ∀ V s, J V s → Ends (f a s) (fun _ s' => J (V ∪ g a) s') E) :
    ∀ (V : Set γ) (s : σ), J V s →
      Ends (xs.forM f s) (fun _ s' => J (V ∪ {c | ∃ a ∈ xs, c ∈ g a}) s') E := by
  induction xs with
  | nil =>
    intro V s h
    have hV : V ∪ {c | ∃ a ∈ ([] : List α), c ∈ g a} = V := by ext c; simp
    rw [hV]
    exact h
  | cons a rest ih =>
    intro V s h
    have hV : V ∪ {c | ∃ b ∈ a :: rest, c ∈ g b} = V ∪ g a ∪ {c | ∃ b ∈ rest, c ∈ g b} := by
      ext c; simp [or_assoc]
    rw [hV, List.forM_eq_forM, List.forM_cons]
    refine Ends.bind ((step a (by simp) V s h).mono (fun _ s' h' => ?_) (fun _ _ he => he))
    exact ih (fun b hb => step b (by simp [hb])) _ s' h'

/-- The loop rule for a loop that carries an accumulator. -/
theorem Ends.foldlM {f : β → α → EStateM ε σ β} (I : List α → β → σ → Prop)
    (step : ∀ a rest b s, I (a :: rest) b s → Ends (f b a s) (fun b' s' => I rest b' s') E) :
    ∀ (xs : List α) (b : β) (s : σ), I xs b s →
      Ends (xs.foldlM f b s) (fun b' s' => I [] b' s') E
  | [], _, _, h => h
  | a :: rest, b, s, h => by
    rw [List.foldlM_cons]
    exact Ends.bind ((step a rest b s h).mono
      (fun b' s' h' => Ends.foldlM I step rest b' s' h') (fun _ _ he => he))

/-- The same for a loop whose state is described by the set of things done so far. -/
theorem Ends.foldlM_adds {γ : Type} {f : β → α → EStateM ε σ β} (g : α → Set γ)
    (J : Set γ → β → σ → Prop) (xs : List α)
    (step : ∀ a ∈ xs, ∀ V b s, J V b s → Ends (f b a s) (fun b' s' => J (V ∪ g a) b' s') E) :
    ∀ (V : Set γ) (b : β) (s : σ), J V b s →
      Ends (xs.foldlM f b s) (fun b' s' => J (V ∪ {c | ∃ a ∈ xs, c ∈ g a}) b' s') E := by
  induction xs with
  | nil =>
    intro V b s h
    have hV : V ∪ {c | ∃ a ∈ ([] : List α), c ∈ g a} = V := by ext c; simp
    rw [hV]
    exact h
  | cons a rest ih =>
    intro V b s h
    have hV : V ∪ {c | ∃ d ∈ a :: rest, c ∈ g d} = V ∪ g a ∪ {c | ∃ d ∈ rest, c ∈ g d} := by
      ext c; simp [or_assoc]
    rw [hV, List.foldlM_cons]
    refine Ends.bind ((step a (by simp) V b s h).mono (fun b' s' h' => ?_) (fun _ _ he => he))
    exact ih (fun d hd => step d (by simp [hd])) _ b' s' h'

/-! ## Running a computation on a part of the state -/

/-- Run `x` on the part of the state that `get` reads and `set` writes back, with its errors
translated. -/
def zoom (get : σ → τ) (set : τ → σ → σ) (err : ε → ε') (x : EStateM ε τ α) :
    EStateM ε' σ α := fun s =>
  match x (get s) with
  | .ok a t => .ok a (set t s)
  | .error e t => .error (err e) (set t s)

theorem Ends.zoom {get : σ → τ} {set : τ → σ → σ} {err : ε → ε'} {x : EStateM ε τ α}
    {Q : α → σ → Prop} {E : ε' → σ → Prop}
    (h : Ends (x (get s)) (fun a t => Q a (set t s)) (fun e t => E (err e) (set t s))) :
    Ends (zoom get set err x s) Q E := by
  unfold Lib.zoom
  cases hx : x (get s) with
  | ok a t => rw [hx] at h; exact h
  | error e t => rw [hx] at h; exact h

/-! ## `Except` -/

theorem bind_eq_ok {α β ε : Type} {x : Except ε α} {f : α → Except ε β} {b : β} :
    (x >>= f) = .ok b ↔ ∃ a, x = .ok a ∧ f a = .ok b := by
  cases x with
  | error e => exact iff_of_false nofun nofun
  | ok a =>
    constructor
    · exact fun h => ⟨a, rfl, h⟩
    · rintro ⟨a', ha, h⟩
      cases ha
      exact h

theorem map_eq_ok {α β ε : Type} {x : Except ε α} {f : α → β} {b : β} :
    x.map f = .ok b ↔ ∃ a, x = .ok a ∧ f a = b := by
  cases x with
  | error e => exact iff_of_false nofun nofun
  | ok a => simp [Except.map]

theorem mapError_eq_ok {α ε ε' : Type} {x : Except ε α} {f : ε → ε'} {a : α} :
    x.mapError f = .ok a ↔ x = .ok a := by
  cases x with
  | error e => exact iff_of_false nofun nofun
  | ok a' => simp [Except.mapError]

/-- A loop that collects results succeeds in every round. -/
theorem forall₂_of_mapM {α β ε : Type} {f : α → Except ε β} {l : List α} {bs : List β}
    (h : l.mapM f = .ok bs) : List.Forall₂ (fun a b => f a = .ok b) l bs := by
  induction l generalizing bs with
  | nil =>
    cases h
    exact List.Forall₂.nil
  | cons a l ih =>
    rw [List.mapM_cons] at h
    obtain ⟨b, hb, h⟩ := bind_eq_ok.mp h
    obtain ⟨bs', hbs, h⟩ := bind_eq_ok.mp h
    cases h
    exact List.Forall₂.cons hb (ih hbs)

theorem forM_eq_ok {α ε : Type} (f : α → Except ε Unit) (l : List α) :
    l.forM f = .ok () ↔ ∀ x ∈ l, f x = .ok () := by
  induction l with
  | nil => simp [pure, Except.pure]
  | cons x l ih =>
    rw [List.forall_mem_cons, ← ih]
    show (f x >>= fun _ => l.forM f) = .ok () ↔ _
    cases hx : f x with
    | error e => simp [bind, Except.bind]
    | ok u => simp [bind, Except.bind]

/-- A loop in which no round fails. -/
theorem foldlM_eq_foldl {α β ε : Type} {f : β → α → Except ε β} {g : β → α → β} {l : List α}
    (h : ∀ a ∈ l, ∀ b, f b a = .ok (g b a)) (b : β) : l.foldlM f b = .ok (l.foldl g b) := by
  induction l generalizing b with
  | nil => rfl
  | cons a l ih =>
    rw [List.foldlM_cons, h a List.mem_cons_self b]
    exact ih (fun a ha => h a (List.mem_cons_of_mem _ ha)) (g b a)

/-- A loop that gets through one more element got through those before it. -/
theorem foldlM_push_eq_ok {α β ε : Type} {f : β → α → Except ε β} {b c : β} {l : List α} {a : α} :
    (l ++ [a]).foldlM f b = .ok c ↔ ∃ b', l.foldlM f b = .ok b' ∧ f b' a = .ok c := by
  rw [List.foldlM_append]
  cases hl : l.foldlM f b with
  | error e => exact iff_of_false nofun nofun
  | ok b' =>
    show [a].foldlM f b' = .ok c ↔ _
    simp only [List.foldlM_cons, List.foldlM_nil, bind_pure]
    constructor
    · exact fun hlast => ⟨b', rfl, hlast⟩
    · rintro ⟨b'', heq, hlast⟩
      cases heq
      exact hlast

end RuntimeEnforcer.Lib
