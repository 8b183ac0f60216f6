import Mathlib.Algebra.Order.Ring.Nat
import Mathlib.Algebra.Order.BigOperators.Group.List
import Mathlib.Algebra.Order.Group.Nat
import Mathlib.Data.List.AList
import Mathlib.Data.Set.Basic

/-!
# Maps with an unspecified iteration order

A map that is read by key and visited in an order the language leaves open. The map itself is
Mathlib's `AList` (one entry a key); the order is not part of it, so every loop over a map takes
its order from an `Order`: an arbitrary permutation of the entries, chosen anew each time. A
statement about every `Order` is a statement about every order a run can take.
-/

set_option autoImplicit false

namespace RuntimeEnforcer.Lib

variable {κ α : Type}

abbrev GoMap (κ α : Type) := AList fun _ : κ => α

abbrev Entry (κ α : Type) := Sigma fun _ : κ => α

/-- The iteration orders of one run. Go leaves the order of a loop over a map open and may choose
another one each time, so the order is a function of the moment: at the `n`-th, the entries are
visited in the order that it gives them. -/
structure Order (κ α : Type) where
  pick : Nat → List (Entry κ α) → List (Entry κ α)
  perm : ∀ n l, (pick n l).Perm l

def Order.stored : Order κ α := ⟨fun _ l => l, fun _ l => List.Perm.refl l⟩

def Order.range (o : Order κ α) (n : Nat) (m : GoMap κ α) : List (Entry κ α) :=
  o.pick n m.entries

/-- A loop visits no key twice. -/
theorem Order.nodup_range (o : Order κ α) (n : Nat) (m : GoMap κ α) :
    ((o.range n m).map Sigma.fst).Nodup :=
  ((o.perm n m.entries).map Sigma.fst).nodup_iff.mpr m.nodupKeys

def GoMap.filter (p : κ → Bool) (m : GoMap κ α) : GoMap κ α :=
  ⟨m.entries.filter fun e => p e.1, m.nodupKeys.sublist List.filter_sublist⟩

def GoMap.map {β : Type} (f : α → β) (m : GoMap κ α) : GoMap κ β where
  entries := m.entries.map fun e => ⟨e.1, f e.2⟩
  nodupKeys := by
    have hkeys : (m.entries.map fun e => (⟨e.1, f e.2⟩ : Entry κ β)).keys = m.entries.keys := by
      simp [List.keys]
    rw [List.NodupKeys, hkeys]
    exact m.nodupKeys

variable [DecidableEq κ]

theorem GoMap.mem_entries {m : GoMap κ α} {k : κ} {v : α} :
    (⟨k, v⟩ : Entry κ α) ∈ m.entries ↔ m.lookup k = some v :=
  (AList.mem_lookup_iff (s := m)).symm

/-- A loop visits exactly the entries of the map. -/
theorem Order.mem_range (o : Order κ α) (n : Nat) {m : GoMap κ α} {k : κ} {v : α} :
    (⟨k, v⟩ : Entry κ α) ∈ o.range n m ↔ m.lookup k = some v :=
  ((o.perm n m.entries).mem_iff).trans GoMap.mem_entries

/-- The keys that a loop has visited when it is over, as `Ends.foldlM_adds` collects them. -/
theorem Order.keys_range (o : Order κ α) (n : Nat) (m : GoMap κ α) :
    (∅ : Set κ) ∪ {k | ∃ e ∈ o.range n m, k ∈ ({e.1} : Set κ)} = {k | (m.lookup k).isSome} := by
  ext k
  simp only [Set.empty_union, Set.mem_ofPred_eq, Option.isSome_iff_exists]
  constructor
  · rintro ⟨⟨k', v⟩, he, rfl⟩
    exact ⟨v, (o.mem_range n).mp he⟩
  · rintro ⟨v, hv⟩
    exact ⟨⟨k, v⟩, (o.mem_range n).mpr hv, rfl⟩

theorem GoMap.lookup_insert_eq {m : GoMap κ α} {k k' : κ} {v : α} :
    (m.insert k' v).lookup k = if k = k' then some v else m.lookup k := by
  by_cases h : k = k'
  · subst h; simp
  · rw [AList.lookup_insert_ne h, if_neg h]

theorem GoMap.lookup_erase_eq {m : GoMap κ α} {k k' : κ} :
    (m.erase k').lookup k = if k = k' then none else m.lookup k := by
  by_cases h : k = k'
  · subst h; simp
  · rw [AList.lookup_erase_ne h, if_neg h]

theorem GoMap.lookup_filter {p : κ → Bool} {m : GoMap κ α} {k : κ} :
    (m.filter p).lookup k = if p k then m.lookup k else none := by
  have hmem : ∀ v, (m.filter p).lookup k = some v ↔ m.lookup k = some v ∧ p k = true := by
    intro v
    rw [← GoMap.mem_entries, ← GoMap.mem_entries]
    exact List.mem_filter
  cases hp : p k with
  | true =>
    simp only [hp, and_true] at hmem
    exact Option.ext hmem
  | false =>
    simp only [hp, Bool.false_eq_true, and_false, iff_false] at hmem
    exact Option.eq_none_iff_forall_ne_some.mpr hmem

theorem GoMap.lookup_map {β : Type} {f : α → β} {m : GoMap κ α} {k : κ} :
    (m.map f).lookup k = (m.lookup k).map f := by
  refine Option.ext fun v => ?_
  rw [Option.map_eq_some_iff, ← GoMap.mem_entries]
  constructor
  · intro h
    obtain ⟨⟨k', a⟩, hmem, heq⟩ := List.mem_map.mp h
    obtain ⟨rfl, rfl⟩ : k' = k ∧ f a = v := by simpa using heq
    exact ⟨a, GoMap.mem_entries.mp hmem, rfl⟩
  · rintro ⟨a, ha, rfl⟩
    exact List.mem_map.mpr ⟨⟨k, a⟩, GoMap.mem_entries.mpr ha, rfl⟩

/-- The left map wins. -/
theorem GoMap.lookup_union {m₁ m₂ : GoMap κ α} {k : κ} :
    (m₁ ∪ m₂).lookup k = (m₁.lookup k).or (m₂.lookup k) := by
  cases h : m₁.lookup k with
  | none => exact AList.lookup_union_right (AList.lookup_eq_none.mp h)
  | some v =>
    rw [AList.lookup_union_left (AList.lookup_isSome.mp (by simp [h])), h]
    rfl

/-- Of the values stored under one key the last stays. -/
theorem GoMap.lookup_foldl_insert {β : Type} (key : β → κ) (value : β → α) (l : List β)
    (m : GoMap κ α) (k : κ) :
    (l.foldl (fun m b => m.insert (key b) (value b)) m).lookup k =
      ((l.reverse.find? fun b => key b = k).map value).or (m.lookup k) := by
  induction l generalizing m with
  | nil => simp
  | cons b l ih =>
    rw [List.foldl_cons, ih, GoMap.lookup_insert_eq, List.reverse_cons, List.find?_append,
      Option.map_or, Option.or_assoc]
    by_cases hkey : k = key b
    · simp [hkey]
    · simp [hkey, Ne.symm hkey]

/-- A map of one entry has one key. -/
theorem GoMap.eq_of_length_one {m : GoMap κ α} (h : m.entries.length = 1) {k k' : κ} {v v' : α}
    (hk : m.lookup k = some v) (hk' : m.lookup k' = some v') : k' = k := by
  obtain ⟨e, he⟩ := List.length_eq_one_iff.mp h
  rw [← GoMap.mem_entries, he, List.mem_singleton] at hk hk'
  exact congrArg Sigma.fst (hk'.trans hk.symm)

/-- Only a map of one entry is emptied by dropping a key. -/
theorem GoMap.exists_lookup_erase {m : GoMap κ α} (h : m.entries.length ≠ 1) {k : κ} {v : α}
    (hk : m.lookup k = some v) : ∃ k' v', (m.erase k).lookup k' = some v' := by
  have hmem : k ∈ m.keys := AList.mem_keys.mp (AList.lookup_isSome.mp (by simp [hk]))
  have hlen : (m.erase k).keys.length = m.entries.length - 1 := by
    rw [AList.keys_erase, List.length_erase_of_mem hmem]
    simp [AList.keys, List.keys]
  have hpos : 0 < m.entries.length := List.length_pos_of_mem (GoMap.mem_entries.mpr hk)
  obtain ⟨k', hk'⟩ := List.exists_mem_of_length_pos (l := (m.erase k).keys) (by omega)
  obtain ⟨v', hv'⟩ := Option.isSome_iff_exists.mp (AList.lookup_isSome.mpr (AList.mem_keys.mpr hk'))
  exact ⟨k', v', hv'⟩

/-! ## Loops that change what they visit -/

/-- **A loop over a map that changes no entry before it comes to it** finds each entry as it was
when the loop began, and so keeps what a round that finds its entry keeps. -/
theorem GoMap.foldl_visits {σ : Type} (view : σ → GoMap κ α) {step : σ → Entry κ α → σ}
    {I : σ → Prop}
    (hstep : ∀ s e, I s → (view s).lookup e.1 = some e.2 →
      I (step s e) ∧ ∀ k, k ≠ e.1 → (view (step s e)).lookup k = (view s).lookup k)
    {es : List (Entry κ α)} (hnodup : (es.map Sigma.fst).Nodup) {s : σ} (hs : I s)
    (hes : ∀ e ∈ es, (view s).lookup e.1 = some e.2) : I (es.foldl step s) := by
  induction es generalizing s with
  | nil => exact hs
  | cons e es ih =>
    obtain ⟨hfresh, hnodup⟩ := List.nodup_cons.mp hnodup
    obtain ⟨hi, hkeep⟩ := hstep s e hs (hes e (by simp))
    refine ih hnodup hi fun e' he' => ?_
    have hne : e'.1 ≠ e.1 := fun heq => hfresh (heq ▸ List.mem_map.mpr ⟨e', he', rfl⟩)
    rw [hkeep e'.1 hne]
    exact hes e' (by simp [he'])

/-- The same for a loop over all entries. -/
theorem Order.foldl_range_visits {σ : Type} (view : σ → GoMap κ α) {step : σ → Entry κ α → σ}
    {I : σ → Prop}
    (hstep : ∀ s e, I s → (view s).lookup e.1 = some e.2 →
      I (step s e) ∧ ∀ k, k ≠ e.1 → (view (step s e)).lookup k = (view s).lookup k)
    (o : Order κ α) (n : Nat) {s : σ} (hs : I s) : I ((o.range n (view s)).foldl step s) :=
  GoMap.foldl_visits view hstep (o.nodup_range n (view s)) hs
    fun _ he => (o.mem_range n).mp he

/-! ## Comparing two maps -/

/-- Two maps hold equal values under the same keys, in whatever order they were built. -/
def GoMap.deepEqual (eq : α → α → Bool) (m m' : GoMap κ α) : Bool :=
  (m.keys ++ m'.keys).all fun k =>
    match m.lookup k, m'.lookup k with
    | some v, some v' => eq v v'
    | _, _ => false

theorem GoMap.deepEqual_self {eq : α → α → Bool} (heq : ∀ v, eq v v = true) (m : GoMap κ α) :
    m.deepEqual eq m = true := by
  refine List.all_eq_true.mpr fun k hk => ?_
  have hk : k ∈ m.keys := by simpa using hk
  obtain ⟨v, hv⟩ := Option.isSome_iff_exists.mp (AList.lookup_isSome.mpr (AList.mem_keys.mpr hk))
  simp only [hv, heq]

theorem GoMap.deepEqual_lookup {eq : α → α → Bool} {m m' : GoMap κ α}
    (h : m.deepEqual eq m' = true) {k : κ} {v' : α} (hk : m'.lookup k = some v') :
    ∃ v, m.lookup k = some v ∧ eq v v' = true := by
  have hmem : k ∈ m.keys ++ m'.keys :=
    List.mem_append_right _ (AList.mem_keys.mp (AList.lookup_isSome.mp (by simp [hk])))
  have hall := List.all_eq_true.mp h k hmem
  cases hv : m.lookup k with
  | none => simp [hv] at hall
  | some v => exact ⟨v, rfl, by simpa [hv, hk] using hall⟩

/-! ## Adding up over a map -/

/-- The sum of `f` over the values. -/
def GoMap.sum (f : α → Nat) (m : GoMap κ α) : Nat := (m.entries.map fun e => f e.2).sum

theorem GoMap.le_sum (f : α → Nat) {m : GoMap κ α} {k : κ} {v : α} (h : m.lookup k = some v) :
    f v ≤ GoMap.sum f m :=
  List.le_sum_of_mem (List.mem_map.mpr ⟨⟨k, v⟩, GoMap.mem_entries.mpr h, rfl⟩)

theorem GoMap.sum_insert (f : α → Nat) (m : GoMap κ α) (k : κ) (v : α) :
    GoMap.sum f (m.insert k v) + ((m.lookup k).map f).getD 0 = GoMap.sum f m + f v := by
  by_cases hk : k ∈ m.entries.keys
  · obtain ⟨v₀, l₁, l₂, -, hsplit, hrest⟩ := List.exists_of_kerase hk
    have hv₀ : m.lookup k = some v₀ := by
      rw [← GoMap.mem_entries, hsplit]
      simp
    simp only [GoMap.sum, AList.entries_insert, hrest, hv₀]
    simp only [hsplit, List.map_cons, List.map_append, List.sum_cons, List.sum_append,
      Option.map_some, Option.getD_some]
    omega
  · have hnone : m.lookup k = none := AList.lookup_eq_none.mpr hk
    simp only [GoMap.sum, AList.entries_insert, List.kerase_of_notMem_keys hk, hnone]
    simp [Nat.add_comm]

/-- A new key makes a map longer by one, a known one leaves its length. -/
theorem GoMap.length_insert (m : GoMap κ α) (k : κ) (v : α) :
    (m.insert k v).entries.length + ((m.lookup k).map fun _ => 1).getD 0 =
      m.entries.length + 1 := by
  simpa [GoMap.sum, Nat.add_comm] using GoMap.sum_insert (fun _ => 1) m k v

/-! ## Indexing a list -/

/-- The map holds, for each key of the list, its position; so no key stands there twice. -/
def Indexes (keys : List κ) (m : GoMap κ Nat) : Prop :=
  ∀ k i, m.lookup k = some i ↔ keys[i]? = some k

theorem Indexes.empty : Indexes ([] : List κ) ∅ := by
  intro k i
  simp

theorem Indexes.lookup_eq_none {keys : List κ} {m : GoMap κ Nat} (h : Indexes keys m) {k : κ} :
    m.lookup k = none ↔ k ∉ keys := by
  rw [Option.eq_none_iff_forall_ne_some, List.mem_iff_getElem?, not_exists]
  exact forall_congr' fun i => not_congr (h k i)

/-- A new key goes to the end. -/
theorem Indexes.push {keys : List κ} {m : GoMap κ Nat} (h : Indexes keys m) {k : κ}
    (hk : k ∉ keys) : Indexes (keys ++ [k]) (m.insert k keys.length) := by
  intro k' i
  rw [GoMap.lookup_insert_eq, List.getElem?_append]
  by_cases hkk : k' = k
  · subst hkk
    have hold : keys[i]? ≠ some k' := fun hi => hk (List.mem_of_getElem? hi)
    grind
  · rw [if_neg hkk, h k' i]
    split
    · rfl
    · next hi => grind

end RuntimeEnforcer.Lib
