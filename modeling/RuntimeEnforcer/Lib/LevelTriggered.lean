import Mathlib.Logic.Function.Basic
import RuntimeEnforcer.Lib.Run

/-!
# Level-triggered controllers

A store of objects, a cache that follows it, and a reconciler that is told which keys to look at. A
change of the store reaches the cache later, in order; when the watch is lost the cache is replaced,
key by key, by what the store has then. Each change of the cache puts its key in a queue, unless it
is an update that a filter drops. A worker takes a key out, reads the object as the cache has it and
reconciles; if either fails the key goes back to the queue. Others change the state as well.

What the state is to agree on may be less than what the reconciler looks at: `q` is the part that
counts. The filter is sound for a change if dropping it loses nothing of that part (`Adj`). If the
filter is sound for every change, then whatever is not in the queue and not being worked on is as
the reconciler has left it for the object in the cache (`Inv.settled`), so when there is nothing
left to do, the state agrees with the store (`Inv.idle`). A filter that is too coarse for all of the
object can be sound for the question whether there is one.
-/

set_option autoImplicit false

namespace RuntimeEnforcer.Lib.LevelTriggered

variable {K O V W σ ι : Type}

/-- A controller: what its reconciler looks at of an object, which updates of an object its filter
drops, and one call of the reconciler for what was read, which says whether it succeeds and leaves a
state. -/
structure Controller (K O V σ : Type) where
  view : O → V
  drops : O → O → Bool
  reconcile : K → Option V → σ → Bool × σ

/-- The store, the controller's cache with the changes that have not reached it, oldest first, the
queue, and the key that is being reconciled, with what was read. -/
structure Machine (K O V σ : Type) where
  state : σ
  store : K → Option O := fun _ => none
  cache : K → Option O := fun _ => none
  events : List (K × Option O) := []
  queue : List K := []
  processing : Option (K × Option V) := none

inductive Step (K O ι : Type)
  | change (k : K) (o : Option O)
  | deliver
  | replace (k : K)
  | take (k : K)
  | finish
  | giveUp
  | other (i : ι)

/-- No key is queued for this change. -/
def dropped (c : Controller K O V σ) : Option O → Option O → Bool
  | some a, some b => c.drops a b
  | none, none => true
  | _, _ => false

section

variable [DecidableEq K]

/-- The changes of `k` among those that have not reached the cache. -/
def pending (k : K) (events : List (K × Option O)) : List (Option O) :=
  events.filterMap fun e => if e.1 = k then some e.2 else none

namespace Machine

/-- The cache has another object for `k`, and `events` are still to come. -/
def observe (c : Controller K O V σ) (k : K) (o : Option O) (events : List (K × Option O))
    (m : Machine K O V σ) : Machine K O V σ :=
  { m with
    cache := Function.update m.cache k o
    events := events
    queue := if dropped c (m.cache k) o then m.queue else m.queue.insert k }

def step (c : Controller K O V σ) (others : ι → σ → σ) (s : Step K O ι) (m : Machine K O V σ) :
    Machine K O V σ :=
  match s with
  | .change k o =>
    { m with store := Function.update m.store k o, events := m.events ++ [(k, o)] }
  | .deliver =>
    match m.events with
    | [] => m
    | (k, o) :: rest => m.observe c k o rest
  | .replace k => m.observe c k (m.store k) (m.events.filter fun e => e.1 ≠ k)
  | .take k =>
    if k ∈ m.queue ∧ m.processing.isNone then
      { m with
        queue := m.queue.filter (· ≠ k)
        processing := some (k, (m.cache k).map c.view) }
    else m
  | .finish =>
    match m.processing with
    | none => m
    | some (k, v) =>
      { m with
        state := (c.reconcile k v m.state).2
        processing := none
        queue := if (c.reconcile k v m.state).1 then m.queue else m.queue.insert k }
  | .giveUp =>
    match m.processing with
    | none => m
    | some (k, _) => { m with processing := none, queue := m.queue.insert k }
  | .other i => { m with state := others i m.state }

end Machine

end

structure Machine.Idle (m : Machine K O V σ) : Prop where
  events : m.events = []
  queue : m.queue = []
  processing : m.processing = none

/-! ## The filter -/

/-- If the filter drops the change, what counts of the object has not changed. -/
def Adj (c : Controller K O V σ) (q : V → W) (a b : Option O) : Prop :=
  dropped c a b = true → a.map (q ∘ c.view) = b.map (q ∘ c.view)

/-- Whether there is an object is never hidden: the filter is not asked when one comes or goes. -/
theorem adj_const (c : Controller K O V σ) (w : W) (a b : Option O) : Adj c (fun _ => w) a b := by
  intro hdrop
  cases a <;> cases b <;> simp_all [dropped]

/-- The changes `l` lead from `a` to `z`, and the filter is sound for each. -/
def Leads (c : Controller K O V σ) (q : V → W) : Option O → List (Option O) → Option O → Prop
  | a, [], z => a = z
  | a, b :: l, z => Adj c q a b ∧ Leads c q b l z

theorem Leads.append {c : Controller K O V σ} {q : V → W} {a z b : Option O} {l : List (Option O)}
    (h : Leads c q a l z) (hb : Adj c q z b) : Leads c q a (l ++ [b]) b := by
  induction l generalizing a with
  | nil =>
    obtain rfl : a = z := h
    exact ⟨hb, rfl⟩
  | cons o l ih => exact ⟨h.1, ih h.2⟩

/-- The filter is sound for the changes that are made, and for those that a lost watch skips; the
others keep to `D`. -/
def Step.Sound (c : Controller K O V σ) (q : V → W) (D : σ → ι → Prop) (m : Machine K O V σ) :
    Step K O ι → Prop
  | .change k o => Adj c q (m.store k) o
  | .replace k => Adj c q (m.cache k) (m.store k)
  | .other i => D m.state i
  | _ => True

/-! ## The reconciler -/

/-- A reconciliation that succeeds makes the state agree, and no other one spoils it. -/
structure Reconciles (c : Controller K O V σ) (q : V → W) (others : ι → σ → σ)
    (D : σ → ι → Prop) (J : σ → Prop) (P : K → Option W → σ → Prop) : Prop where
  inv : ∀ k v s, J s → J (c.reconcile k v s).2
  agrees : ∀ k v s, J s → (c.reconcile k v s).1 = true → P k (v.map q) (c.reconcile k v s).2
  frame : ∀ k v s k' w, J s → k' ≠ k → P k' w s → P k' w (c.reconcile k v s).2
  othersInv : ∀ i s, D s i → J s → J (others i s)
  othersFrame : ∀ i s k w, D s i → J s → P k w s → P k w (others i s)

section

variable [DecidableEq K]

structure Inv (c : Controller K O V σ) (q : V → W) (J : σ → Prop) (P : K → Option W → σ → Prop)
    (m : Machine K O V σ) : Prop where
  inv : J m.state
  leads : ∀ k, Leads c q (m.cache k) (pending k m.events) (m.store k)
  reading : ∀ k v, m.processing = some (k, v) →
    k ∈ m.queue ∨ v.map q = (m.cache k).map (q ∘ c.view)
  settled : ∀ k, k ∈ m.queue ∨ (∃ v, m.processing = some (k, v)) ∨
    P k ((m.cache k).map (q ∘ c.view)) m.state

variable {c : Controller K O V σ} {q : V → W} {others : ι → σ → σ} {D : σ → ι → Prop}
  {J : σ → Prop} {P : K → Option W → σ → Prop} {m : Machine K O V σ}

theorem Inv.start {s : σ} (hJ : J s) (hP : ∀ k, P k none s) : Inv c q J P { state := s } where
  inv := hJ
  leads _ := rfl
  reading _ _ h := absurd h (by simp)
  settled k := .inr (.inr (hP k))

theorem pending_append (k k' : K) (o : Option O) (events : List (K × Option O)) :
    pending k (events ++ [(k', o)]) = pending k events ++ if k' = k then [o] else [] := by
  unfold pending
  rw [List.filterMap_append]
  by_cases hk : k' = k
  · simp [hk]
  · simp [hk]

theorem Inv.change (h : Inv c q J P m) {k : K} {o : Option O} (hadj : Adj c q (m.store k) o) :
    Inv c q J P (m.step c others (.change k o)) where
  inv := h.inv
  leads k' := by
    show Leads c q (m.cache k') (pending k' (m.events ++ [(k, o)])) (Function.update m.store k o k')
    rw [pending_append]
    by_cases hk : k = k'
    · subst hk
      rw [if_pos rfl, Function.update_self]
      exact (h.leads k).append hadj
    · rw [if_neg hk, List.append_nil, Function.update_of_ne (Ne.symm hk)]
      exact h.leads k'
  reading := h.reading
  settled := h.settled

/-- What the cache is told of `k` is queued, or does not count. -/
theorem queued_or_same {k : K} {o : Option O} (hadj : Adj c q (m.cache k) o)
    (events : List (K × Option O)) :
    k ∈ (m.observe c k o events).queue ∨
      (m.cache k).map (q ∘ c.view) = o.map (q ∘ c.view) := by
  unfold Machine.observe
  simp only
  split
  · next hdrop => exact .inr (hadj hdrop)
  · exact .inl List.mem_insert_self

theorem mem_queue_observe {k k' : K} (h : k' ∈ m.queue) (o : Option O)
    (events : List (K × Option O)) : k' ∈ (m.observe c k o events).queue := by
  unfold Machine.observe
  simp only
  split
  · exact h
  · exact List.mem_insert_of_mem h

/-- Either way of keeping the cache up to date. -/
theorem Inv.observe (h : Inv c q J P m) {k : K} {o : Option O} (hadj : Adj c q (m.cache k) o)
    {events : List (K × Option O)} (hsame : Leads c q o (pending k events) (m.store k))
    (hothers : ∀ k', k' ≠ k → pending k' events = pending k' m.events) :
    Inv c q J P (m.observe c k o events) := by
  have hself : (m.observe c k o events).cache k = o := Function.update_self ..
  have hne : ∀ k', k' ≠ k → (m.observe c k o events).cache k' = m.cache k' :=
    fun k' hk => Function.update_of_ne hk ..
  constructor
  case inv => exact h.inv
  case leads =>
    intro k'
    by_cases hk : k' = k
    · subst hk
      rw [hself]
      exact hsame
    · rw [hne k' hk]
      exact hothers k' hk ▸ h.leads k'
  case reading =>
    intro k' v hv
    rcases h.reading k' v hv with hq | hread
    · exact .inl (mem_queue_observe hq o events)
    · by_cases hk : k' = k
      · subst hk
        exact (queued_or_same hadj events).imp id fun hview => by rw [hread, hview, hself]
      · exact .inr (by rw [hread, hne k' hk])
  case settled =>
    intro k'
    rcases h.settled k' with hq | hproc | hP
    · exact .inl (mem_queue_observe hq o events)
    · exact .inr (.inl hproc)
    · by_cases hk : k' = k
      · subst hk
        rcases queued_or_same hadj events with hq | hview
        · exact .inl hq
        · refine .inr (.inr ?_)
          rw [hself, ← hview]
          exact hP
      · exact .inr (.inr (by rw [hne k' hk]; exact hP))

theorem Inv.deliver (h : Inv c q J P m) : Inv c q J P (m.step c others .deliver) := by
  unfold Machine.step
  cases hev : m.events with
  | nil => exact h
  | cons e rest =>
    obtain ⟨k, o⟩ := e
    have hfirst : Adj c q (m.cache k) o ∧ Leads c q o (pending k rest) (m.store k) := by
      have hlead := h.leads k
      rw [hev, show pending k ((k, o) :: rest) = o :: pending k rest by simp [pending]] at hlead
      exact hlead
    refine h.observe hfirst.1 hfirst.2 fun k' hk => ?_
    rw [hev]
    simp [pending, Ne.symm hk]

theorem Inv.replace (h : Inv c q J P m) {k : K} (hadj : Adj c q (m.cache k) (m.store k)) :
    Inv c q J P (m.step c others (.replace k)) := by
  refine h.observe hadj ?_ fun k' hk => ?_
  · have hnone : pending k (m.events.filter fun e => e.1 ≠ k) = [] := by
      unfold pending
      rw [List.filterMap_filter, List.filterMap_eq_nil_iff]
      intro e _
      by_cases he : e.1 = k <;> simp [he]
    rw [hnone]
    rfl
  · unfold pending
    rw [List.filterMap_filter]
    refine List.filterMap_congr fun e _ => ?_
    by_cases he : e.1 = k
    · simp [he, Ne.symm hk]
    · simp [he]

theorem Inv.take (h : Inv c q J P m) (k : K) : Inv c q J P (m.step c others (.take k)) := by
  unfold Machine.step
  simp only
  split
  · next hk =>
    have hnone : m.processing = none := Option.isNone_iff_eq_none.mp hk.2
    refine ⟨h.inv, h.leads, fun k' v hv => ?_, fun k' => ?_⟩
    · obtain ⟨rfl, rfl⟩ := Prod.mk.inj (Option.some.inj hv)
      exact .inr (Option.map_map ..)
    · by_cases hkk : k' = k
      · exact .inr (.inl ⟨_, by rw [hkk]⟩)
      · rcases h.settled k' with hq | ⟨v, hproc⟩ | hP
        · exact .inl (List.mem_filter.mpr ⟨hq, by simpa using hkk⟩)
        · exact absurd (hnone.symm.trans hproc) (by simp)
        · exact .inr (.inr hP)
  · exact h

theorem Inv.giveUp (h : Inv c q J P m) : Inv c q J P (m.step c others .giveUp) := by
  unfold Machine.step
  cases hproc : m.processing with
  | none => exact h
  | some kv =>
    obtain ⟨k, v⟩ := kv
    refine ⟨h.inv, h.leads, fun k' v' hv => absurd hv (by simp), fun k' => ?_⟩
    rcases h.settled k' with hq | ⟨v', hproc'⟩ | hP
    · exact .inl (List.mem_insert_of_mem hq)
    · rw [hproc] at hproc'
      obtain ⟨rfl, -⟩ := Prod.mk.inj (Option.some.inj hproc')
      exact .inl List.mem_insert_self
    · exact .inr (.inr hP)

variable (hr : Reconciles c q others D J P)

include hr

theorem Inv.finish (h : Inv c q J P m) : Inv c q J P (m.step c others .finish) := by
  unfold Machine.step
  cases hproc : m.processing with
  | none => exact h
  | some kv =>
    obtain ⟨k, v⟩ := kv
    simp only
    refine ⟨hr.inv k v _ h.inv, h.leads, fun k' v' hv => absurd hv (by simp), fun k' => ?_⟩
    have hkeep : ∀ k', k' ∈ m.queue →
        k' ∈ (if (c.reconcile k v m.state).1 then m.queue else m.queue.insert k) := by
      intro k' hq
      split
      · exact hq
      · exact List.mem_insert_of_mem hq
    by_cases hk : k' = k
    · subst hk
      cases hok : (c.reconcile k' v m.state).1 with
      | false => exact .inl (by simp)
      | true =>
        rcases h.reading k' v hproc with hq | hread
        · exact .inl hq
        · -- what was read is what the cache has
          refine .inr (.inr ?_)
          simp only [← hread]
          exact hr.agrees k' v _ h.inv hok
    · rcases h.settled k' with hq | ⟨v', hproc'⟩ | hP
      · exact .inl (hkeep k' hq)
      · rw [hproc] at hproc'
        exact absurd (Prod.mk.inj (Option.some.inj hproc')).1.symm hk
      · exact .inr (.inr (hr.frame k v _ k' _ h.inv hk hP))

theorem Inv.other (h : Inv c q J P m) {i : ι} (hi : D m.state i) :
    Inv c q J P (m.step c others (.other i)) where
  inv := hr.othersInv i _ hi h.inv
  leads := h.leads
  reading := h.reading
  settled k := (h.settled k).imp id (Or.imp id (hr.othersFrame i _ k _ hi h.inv))

theorem Inv.step (h : Inv c q J P m) {s : Step K O ι} (hs : s.Sound c q D m) :
    Inv c q J P (m.step c others s) := by
  cases s with
  | change k o => exact h.change hs
  | deliver => exact h.deliver
  | replace k => exact h.replace hs
  | take k => exact h.take k
  | finish => exact h.finish hr
  | giveUp => exact h.giveUp
  | other i => exact h.other hr hs

theorem Inv.run (h : Inv c q J P m) {steps : List (Step K O ι)}
    (hs : Along (Machine.step c others) (Step.Sound c q D) steps m) :
    Inv c q J P (run (Machine.step c others) steps m) :=
  run_inv (fun _ _ h hs => h.step hr hs) h hs

omit hr

/-- What a step does to the state. -/
theorem state_step (c : Controller K O V σ) (others : ι → σ → σ) (s : Step K O ι)
    (m : Machine K O V σ) :
    (m.step c others s).state = m.state ∨
      (∃ k v, (m.step c others s).state = (c.reconcile k v m.state).2) ∨
      ∃ i, s = .other i ∧ (m.step c others s).state = others i m.state := by
  cases s with
  | change k o => exact .inl rfl
  | deliver =>
    unfold Machine.step
    cases m.events with
    | nil => exact .inl rfl
    | cons e rest => exact .inl rfl
  | replace k => exact .inl rfl
  | take k =>
    unfold Machine.step
    simp only
    split <;> exact .inl rfl
  | finish =>
    unfold Machine.step
    cases m.processing with
    | none => exact .inl rfl
    | some kv => exact .inr (.inl ⟨kv.1, kv.2, rfl⟩)
  | giveUp =>
    unfold Machine.step
    cases m.processing with
    | none => exact .inl rfl
    | some kv => exact .inl rfl
  | other i => exact .inr (.inr ⟨i, rfl, rfl⟩)

/-- **When there is nothing left to do, the state agrees with the store.** -/
theorem Inv.idle (h : Inv c q J P m) (hidle : m.Idle) (k : K) :
    P k ((m.store k).map (q ∘ c.view)) m.state := by
  have hcache : m.cache k = m.store k := by
    have hlead := h.leads k
    rw [hidle.events] at hlead
    exact hlead
  rcases h.settled k with hq | ⟨v, hproc⟩ | hP
  · exact absurd hq (by simp [hidle.queue])
  · exact absurd (hidle.processing.symm.trans hproc) (by simp)
  · exact hcache ▸ hP

end

end RuntimeEnforcer.Lib.LevelTriggered
