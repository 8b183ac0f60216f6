import Mathlib.Data.List.Basic
import Mathlib.Logic.Function.Basic

/-!
# Layered file systems

An image is a list of layers that are extracted one after the other. A layer first hides paths of
the layers below it, and then adds files, hard links and other nodes; a hard link names the file
that its destination names at that moment. This is `runtime`.

An index of the image does not extract anything. It keeps, for each layer, what the layer added
under each path (`bound`), with a link resolved only if its destination was added by the same layer,
and for each number of layers, which layer a path comes from (`tree`). `runtime_eq_tree` says how
the index is read: a path is what its layer bound it to, and a link that was not resolved is looked
up in the tree of the layer that added it (`names_link`), where it leads to a lower layer
(`tree_link_lt`).
-/

set_option autoImplicit false

namespace RuntimeEnforcer.Lib.Layers

variable {π τ : Type} [DecidableEq π]

/-- What a layer adds under a path; the destination of a link is a `τ`. -/
inductive Added (τ : Type)
  | file
  | link (t : τ)
  | other

structure Layer (π τ : Type) where
  hides : π → Bool
  adds : List (π × Added τ)

structure Ref (π : Type) where
  layer : Nat
  path : π
  deriving DecidableEq

inductive Node (π : Type)
  | file (ref : Ref π)
  | other
  deriving DecidableEq

abbrev FileSystem (π : Type) := π → Option (Node π)

/-! ## Extraction -/

def extract (dest : τ → π) (n : Nat) (fs : FileSystem π) (e : π × Added τ) : FileSystem π :=
  match e.2 with
  | .file => Function.update fs e.1 (some (.file ⟨n, e.1⟩))
  | .link t => Function.update fs e.1 (fs (dest t))
  | .other => Function.update fs e.1 (some .other)

/-- What layer `l` leaves of the layers below. -/
def Layer.below (l : Layer π τ) (fs : FileSystem π) : FileSystem π :=
  fun p => if l.hides p then none else fs p

def runtime (dest : τ → π) (ls : List (Layer π τ)) : Nat → FileSystem π
  | 0 => fun _ => none
  | n + 1 =>
    match ls[n]? with
    | none => runtime dest ls n
    | some l => l.adds.foldl (extract dest n) (l.below (runtime dest ls n))

/-! ## The index -/

/-- What the index has for a path of one layer. -/
inductive Bound (π τ : Type)
  | file (ref : Ref π)
  | link (t : τ)
  | other

/-- A link is resolved if its destination has been added by the same layer. -/
def bindEntry (dest : τ → π) (n : Nat) (index : π → Option (Bound π τ)) (e : π × Added τ) :
    π → Option (Bound π τ) :=
  match e.2 with
  | .file => Function.update index e.1 (some (.file ⟨n, e.1⟩))
  | .link t => Function.update index e.1 (some ((index (dest t)).getD (.link t)))
  | .other => Function.update index e.1 (some .other)

def Layer.index (dest : τ → π) (n : Nat) (l : Layer π τ) : π → Option (Bound π τ) :=
  l.adds.foldl (bindEntry dest n) fun _ => none

/-- What layer `n` bound `p` to. -/
def bound (dest : τ → π) (ls : List (Layer π τ)) (n : Nat) (p : π) : Option (Bound π τ) :=
  (ls[n]?).bind fun l => l.index dest n p

/-- The layer that a path comes from, among the first `n`. -/
def tree (dest : τ → π) (ls : List (Layer π τ)) : Nat → π → Option (Ref π)
  | 0, _ => none
  | n + 1, p =>
    match ls[n]? with
    | none => tree dest ls n p
    | some l =>
      if (l.index dest n p).isSome then some ⟨n, p⟩
      else if l.hides p then none
      else tree dest ls n p

/-- No layer adds the destination of a link after the link. -/
def Ordered (dest : τ → π) (ls : List (Layer π τ)) : Prop :=
  ∀ n p t, bound dest ls n p = some (.link t) → bound dest ls n (dest t) = none

/-! ## Reading the index -/

section

variable {dest : τ → π} {ls : List (Layer π τ)}

theorem bindEntry_of_ne {n : Nat} {index : π → Option (Bound π τ)} {e : π × Added τ} {p : π}
    (h : p ≠ e.1) : bindEntry dest n index e p = index p := by
  obtain ⟨q, a⟩ := e
  cases a <;> simp [bindEntry, Function.update_of_ne h]

def Bound.node (dest : τ → π) (below : FileSystem π) : Bound π τ → Option (Node π)
  | .file ref => some (.file ref)
  | .link t => below (dest t)
  | .other => some .other

def overlay (dest : τ → π) (below : FileSystem π) (index : π → Option (Bound π τ)) :
    FileSystem π := fun p =>
  match index p with
  | some b => b.node dest below
  | none => below p

theorem overlay_update (below : FileSystem π) (index : π → Option (Bound π τ)) (p : π)
    (b : Bound π τ) :
    overlay dest below (Function.update index p (some b))
      = Function.update (overlay dest below index) p (b.node dest below) := by
  funext q
  by_cases h : q = p
  · subst h
    simp [overlay]
  · simp [overlay, Function.update_of_ne h]

/-- Extracting an entry and indexing it agree. -/
theorem extract_overlay (n : Nat) (below : FileSystem π) (index : π → Option (Bound π τ))
    (e : π × Added τ) :
    extract dest n (overlay dest below index) e
      = overlay dest below (bindEntry dest n index e) := by
  obtain ⟨p, a⟩ := e
  cases a with
  | file => simp [extract, bindEntry, overlay_update, Bound.node]
  | other => simp [extract, bindEntry, overlay_update, Bound.node]
  | link t =>
    simp only [extract, bindEntry, overlay_update]
    congr 1
    cases h : index (dest t) with
    | none => simp [overlay, h, Bound.node]
    | some b => simp [overlay, h]

theorem foldl_extract (n : Nat) (below : FileSystem π) (es : List (π × Added τ))
    (index : π → Option (Bound π τ)) :
    es.foldl (extract dest n) (overlay dest below index)
      = overlay dest below (es.foldl (bindEntry dest n) index) := by
  induction es generalizing index with
  | nil => rfl
  | cons e es ih => rw [List.foldl_cons, List.foldl_cons, extract_overlay, ih]

/-- **A layer lies over what it leaves of the layers below.** -/
theorem runtime_succ {n : Nat} {l : Layer π τ} (hl : ls[n]? = some l) :
    runtime dest ls (n + 1) = overlay dest (l.below (runtime dest ls n)) (l.index dest n) := by
  simp only [runtime, hl]
  exact foldl_extract n _ l.adds fun _ => none

def names (dest : τ → π) (ls : List (Layer π τ)) (ref : Ref π) : Option (Node π) :=
  match bound dest ls ref.layer ref.path with
  | none => none
  | some b => b.node dest (runtime dest ls (ref.layer + 1))

theorem tree_succ_of_none {n : Nat} {l : Layer π τ} (hl : ls[n]? = some l) {p : π}
    (hp : l.index dest n p = none) :
    tree dest ls (n + 1) p = if l.hides p then none else tree dest ls n p := by
  simp [tree, hl, hp]

/-- A tree leads to what some layer has added. -/
theorem bound_of_tree {n : Nat} {p : π} {ref : Ref π} (h : tree dest ls n p = some ref) :
    ref.layer < n ∧ ref.path = p ∧ (bound dest ls ref.layer ref.path).isSome := by
  induction n with
  | zero => exact absurd h (by simp [tree])
  | succ n ih =>
    cases hl : ls[n]? with
    | none =>
      simp only [tree, hl] at h
      obtain ⟨hlt, hrest⟩ := ih h
      exact ⟨Nat.lt_succ_of_lt hlt, hrest⟩
    | some l =>
      simp only [tree, hl] at h
      split at h
      · next hsome =>
        obtain rfl := Option.some.inj h
        exact ⟨Nat.lt_succ_self n, rfl, by simpa [bound, hl] using hsome⟩
      · split at h
        · exact absurd h (by simp)
        · obtain ⟨hlt, hrest⟩ := ih h
          exact ⟨Nat.lt_succ_of_lt hlt, hrest⟩

/-- A layer's index has only what the layer adds. -/
theorem Layer.mem_adds_of_index (l : Layer π τ) {n : Nat} {p : π}
    (h : (l.index dest n p).isSome) : p ∈ l.adds.map Prod.fst := by
  have hfold : ∀ (es : List (π × Added τ)) (index : π → Option (Bound π τ)),
      (es.foldl (bindEntry dest n) index p).isSome → (index p).isSome ∨ p ∈ es.map Prod.fst := by
    intro es
    induction es with
    | nil => exact fun index h => .inl h
    | cons e es ih =>
      intro index h
      rcases ih _ h with hp | hmem
      · by_cases hne : p = e.1
        · exact .inr (by simp [hne])
        · rw [bindEntry_of_ne hne] at hp
          exact .inl hp
      · exact .inr (List.mem_cons_of_mem _ hmem)
  rcases hfold l.adds _ h with hnone | hmem
  · exact absurd hnone (by simp)
  · exact hmem

/-- **The index is read by following the tree.** -/
theorem runtime_eq_tree (ho : Ordered dest ls) (n : Nat) (p : π) :
    runtime dest ls n p = (tree dest ls n p).bind (names dest ls) := by
  induction n generalizing p with
  | zero => rfl
  | succ n ih =>
    cases hl : ls[n]? with
    | none =>
      simp only [runtime, tree, hl]
      exact ih p
    | some l =>
      cases hp : l.index dest n p with
      | none =>
        rw [runtime_succ hl, tree_succ_of_none hl hp]
        simp only [overlay, hp, Layer.below]
        split
        · rfl
        · exact ih p
      | some b =>
        have htree : tree dest ls (n + 1) p = some ⟨n, p⟩ := by simp [tree, hl, hp]
        have hbound : bound dest ls n p = some b := by simp [bound, hl, hp]
        rw [htree, Option.bind_some, names, hbound, runtime_succ hl]
        simp only [overlay, hp]
        cases b with
        | file ref => rfl
        | other => rfl
        | link t =>
          -- the destination is not in the layer, so that it is seen through it
          have hdest : l.index dest n (dest t) = none := by simpa [bound, hl] using ho n p t hbound
          simp [Bound.node, overlay, hdest]

/-- A link that was not resolved is looked up in the tree of its own layer. -/
theorem names_link (ho : Ordered dest ls) {ref : Ref π} {t : τ}
    (h : bound dest ls ref.layer ref.path = some (.link t)) :
    names dest ls ref = (tree dest ls (ref.layer + 1) (dest t)).bind (names dest ls) := by
  rw [names, h]
  exact runtime_eq_tree ho _ _

/-- There it leads to a lower layer. -/
theorem tree_link_lt (ho : Ordered dest ls) {ref ref' : Ref π} {t : τ}
    (h : bound dest ls ref.layer ref.path = some (.link t))
    (htree : tree dest ls (ref.layer + 1) (dest t) = some ref') : ref'.layer < ref.layer := by
  have hnone := ho _ _ _ h
  cases hl : ls[ref.layer]? with
  | none => simp [bound, hl] at h
  | some l =>
    have hindex : l.index dest ref.layer (dest t) = none := by simpa [bound, hl] using hnone
    rw [tree_succ_of_none hl hindex] at htree
    split at htree
    · exact absurd htree (by simp)
    · exact (bound_of_tree htree).1

end

end RuntimeEnforcer.Lib.Layers
