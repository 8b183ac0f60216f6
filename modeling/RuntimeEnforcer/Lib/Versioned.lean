import Mathlib.Data.List.Basic

/-!
# One object of a store with optimistic concurrency

A `Slot` is one name of a store: the object that is there now, if any, and everything that was
there before. Each write gives the object a version that no other write has; a replacement must
carry the version it was computed from, and an object that carries a version cannot be created.
A read may return anything that was ever there (`read`), so a client that is behind, by any
amount, is a client that reads with a large `lag`.

`Ok` is the invariant, `Change` is what the writes can do, and `Ok.eq_current` is what optimistic
concurrency is for: a version that the store still accepts is the object itself, not only its
number.
-/

set_option autoImplicit false

namespace RuntimeEnforcer.Lib

variable {code : Nat}

/-- An object as the store holds it. `uid` is kept by replacements and never given twice. -/
structure Stored (α : Type) where
  version : Nat
  uid : Nat
  value : α

/-- One name of the store, with what was there before, latest first, and the version of the next
write. No version and no uid is given twice. -/
structure Slot (α : Type) where
  current : Option (Stored α)
  older : List (Option (Stored α)) := []
  next : Nat := 1

/-- What a client is told about a write that did not succeed; `connection` is that no answer
arrived. -/
inductive WriteErr
  | conflict
  | alreadyExists
  | notFound
  | status (code : Nat)
  | connection
  deriving DecidableEq, Repr

variable {α : Type}

namespace Slot

variable {value : α} {x : Option (Stored α)}

def start (x : Option α) : Slot α := { current := x.map fun value => ⟨0, 0, value⟩ }

def history (s : Slot α) : List (Option (Stored α)) := s.current :: s.older

/-- What a client that is `lag` writes behind sees. -/
def read (s : Slot α) (lag : Nat) : Option (Stored α) := s.history.getD lag s.current

def put (s : Slot α) (x : Option (Stored α)) : Slot α :=
  { current := x, older := s.history, next := s.next + 1 }

/-- `carried` is the version that the object to create carries. -/
def create (carried : Option Nat) (value : α) (s : Slot α) : Except WriteErr (Slot α) :=
  if carried.isSome then .error (.status 500)
  else
    match s.current with
    | some _ => .error .alreadyExists
    | none => .ok (s.put (some ⟨s.next, s.next, value⟩))

def update (version : Nat) (value : α) (s : Slot α) : Except WriteErr (Slot α) :=
  match s.current with
  | none => .error .notFound
  | some cur =>
    if cur.version = version then .ok (s.put (some ⟨s.next, cur.uid, value⟩))
    else .error .conflict

def delete (s : Slot α) : Except WriteErr (Slot α) :=
  match s.current with
  | none => .error .notFound
  | some _ => .ok (s.put none)

variable {s s' : Slot α}

theorem create_eq_ok {carried : Option Nat} (h : s.create carried value = .ok s') :
    carried = none ∧ s.current = none ∧ s' = s.put (some ⟨s.next, s.next, value⟩) := by
  cases carried <;> cases hc : s.current <;> simp_all [create]

theorem update_eq_ok {version : Nat} (h : s.update version value = .ok s') :
    ∃ cur, s.current = some cur ∧ cur.version = version ∧
      s' = s.put (some ⟨s.next, cur.uid, value⟩) := by
  cases hc : s.current with
  | none => simp [update, hc] at h
  | some cur =>
    by_cases hv : cur.version = version
    · simp only [update, hc, hv, if_true, Except.ok.injEq] at h
      exact ⟨cur, rfl, hv, h.symm⟩
    · simp [update, hc, hv] at h

theorem delete_eq_ok (h : s.delete = .ok s') :
    ∃ cur, s.current = some cur ∧ s' = s.put none := by
  cases hc : s.current <;> simp_all [delete]

theorem create_status {carried : Option Nat} (h : s.create carried value = .error (.status code)) :
    code = 500 := by
  cases carried <;> cases hc : s.current <;> simp_all [create]

theorem update_ne_status {version : Nat} : s.update version value ≠ .error (.status code) := by
  unfold update
  split
  · simp
  · split <;> simp

theorem read_mem (s : Slot α) (lag : Nat) : s.read lag ∈ s.history := by
  rw [read, List.getD_eq_getElem?_getD]
  cases h : s.history[lag]? with
  | none => simp [history]
  | some x => exact List.mem_of_getElem? h

theorem current_mem (s : Slot α) : s.current ∈ s.history := List.mem_cons_self

theorem mem_put {y : Option (Stored α)} :
    y ∈ (s.put x).history ↔ y = x ∨ y ∈ s.history := List.mem_cons

/-! ## The invariant -/

/-- Versions and uids were given out before, and a version names one object. -/
structure Ok (s : Slot α) : Prop where
  below : ∀ v, some v ∈ s.history → v.version < s.next ∧ v.uid < s.next
  unique : ∀ v w, some v ∈ s.history → some w ∈ s.history → v.version = w.version → v = w

theorem Ok.start (x : Option α) : (Slot.start x).Ok := by
  have hmem : ∀ v, some v ∈ (Slot.start x).history → ∃ a, x = some a ∧ v = ⟨0, 0, a⟩ := by
    intro v hv
    have hv : some v = x.map fun value => (⟨0, 0, value⟩ : Stored α) := List.mem_singleton.mp hv
    obtain ⟨a, ha, rfl⟩ := Option.map_eq_some_iff.mp hv.symm
    exact ⟨a, ha, rfl⟩
  constructor
  · intro v hv
    obtain ⟨a, -, rfl⟩ := hmem v hv
    exact ⟨Nat.zero_lt_one, Nat.zero_lt_one⟩
  · intro v w hv hw _
    obtain ⟨a, ha, rfl⟩ := hmem v hv
    obtain ⟨b, hb, rfl⟩ := hmem w hw
    rw [Option.some.inj (ha.symm.trans hb)]

/-- Optimistic concurrency: what carries the version of the object is the object. -/
theorem Ok.eq_current (h : s.Ok) {v cur : Stored α} (hv : some v ∈ s.history)
    (hc : s.current = some cur) (hver : cur.version = v.version) : cur = v :=
  h.unique cur v (hc ▸ s.current_mem) hv hver

/-- A write keeps the invariant if it takes the next version, and an old or the next uid. -/
theorem Ok.put (h : s.Ok) (hx : ∀ v, x = some v → v.version = s.next ∧ v.uid ≤ s.next) :
    (s.put x).Ok := by
  have hnew : ∀ v w, x = some v → some w ∈ s.history → v.version ≠ w.version := by
    intro v w hv hw
    have hlt := (h.below w hw).1
    rw [(hx v hv).1]
    omega
  constructor
  · intro v hv
    rcases mem_put.mp hv with hv | hv
    · obtain ⟨hver, huid⟩ := hx v hv.symm
      exact ⟨by rw [hver]; exact Nat.lt_succ_self _, Nat.lt_succ_of_le huid⟩
    · obtain ⟨hver, huid⟩ := h.below v hv
      exact ⟨Nat.lt_succ_of_lt hver, Nat.lt_succ_of_lt huid⟩
  · intro v w hv hw heq
    rcases mem_put.mp hv with hv | hv <;> rcases mem_put.mp hw with hw | hw
    · exact Option.some.inj (hv.trans hw.symm)
    · exact absurd heq (hnew v w hv.symm hw)
    · exact absurd heq.symm (hnew w v hw.symm hv)
    · exact h.unique v w hv hw heq

/-- What the writes of a store can do to one name. -/
inductive Change (s : Slot α) : Slot α → Prop
  | keep : Change s s
  | create (hc : s.current = none) (value : α) : Change s (s.put (some ⟨s.next, s.next, value⟩))
  | update {cur : Stored α} (hc : s.current = some cur) (value : α) :
    Change s (s.put (some ⟨s.next, cur.uid, value⟩))
  | delete {cur : Stored α} (hc : s.current = some cur) : Change s (s.put none)

theorem Change.mem (hch : Change s s') (hx : x ∈ s.history) : x ∈ s'.history := by
  cases hch with
  | keep => exact hx
  | create _ _ => exact mem_put.mpr (.inr hx)
  | update _ _ => exact mem_put.mpr (.inr hx)
  | delete _ => exact mem_put.mpr (.inr hx)

theorem Change.ok (hch : Change s s') (h : s.Ok) : s'.Ok := by
  cases hch with
  | keep => exact h
  | create hc value =>
    refine h.put fun v hv => ?_
    obtain rfl := Option.some.inj hv
    exact ⟨rfl, Nat.le_refl _⟩
  | @update cur hc value =>
    refine h.put fun v hv => ?_
    obtain rfl := Option.some.inj hv
    exact ⟨rfl, Nat.le_of_lt (h.below cur (hc ▸ s.current_mem)).2⟩
  | delete hc => exact h.put fun v hv => nomatch hv

end Slot

/-! ## Answers that are lost or refused -/

/-- How a write goes. The store's answer arrives; or no answer arrives, and the write may have been
carried out; or the write is refused before it reaches the store. -/
inductive Answer
  | answered
  | lost (applied : Bool)
  | refused (code : Nat)
  deriving DecidableEq, Repr

/-- What comes of a write: the state, what the client is told, and whether it was carried out. -/
structure Attempt (σ : Type) where
  state : σ
  error : Option WriteErr
  applied : Bool

variable {σ : Type}

def attempt (answer : Answer) (op : σ → Except WriteErr σ) (s : σ) : Attempt σ :=
  match answer, op s with
  | .refused code, _ => ⟨s, some (.status code), false⟩
  | .lost false, _ => ⟨s, some .connection, false⟩
  | .lost true, .ok s' => ⟨s', some .connection, true⟩
  | .lost true, .error _ => ⟨s, some .connection, false⟩
  | .answered, .ok s' => ⟨s', none, true⟩
  | .answered, .error e => ⟨s, some e, false⟩

/-- A write is carried out as the store does it, or nothing happens and the client hears of an
error. -/
theorem attempt_cases (answer : Answer) (op : σ → Except WriteErr σ) (s : σ) :
    (∃ s' e, op s = .ok s' ∧ attempt answer op s = ⟨s', e, true⟩) ∨
      ∃ e, attempt answer op s = ⟨s, some e, false⟩ := by
  cases h : op s <;> rcases answer with _ | applied | code <;> try cases applied
  all_goals simp [attempt, h]

/-- A status code is the one the write was refused with, or the store's own. -/
theorem attempt_status {answer : Answer} {op : σ → Except WriteErr σ} {s : σ}
    (h : (attempt answer op s).error = some (.status code)) :
    answer = .refused code ∨ op s = .error (.status code) := by
  cases hop : op s <;> rcases answer with _ | applied | code' <;> try cases applied
  all_goals simp_all [attempt]

end RuntimeEnforcer.Lib
