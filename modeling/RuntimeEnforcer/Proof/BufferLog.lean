import RuntimeEnforcer.Agent.ViolationBuffer

/-!
# The violation buffer is a bounded log

A session is a sequence of calls on one buffer. What the buffer is for is said by `sinceDrain`, the
records of the calls since the last drain, newest first: a drain answers with the first ten thousand
of them, and a record is reported as dropped when there are that many already.

The position is an `int64`, so this is true of sessions with fewer than 2^63 records between two
drains. Such a session stays with the ring (`Int64Buffer.Stands`), which knows no bound; the wrap of
the index is dealt with there.
-/

set_option autoImplicit false

namespace RuntimeEnforcer.Violationbuf

open Lib Api

/-! ## The buffer and the ring -/

theorem mapM_eq_some_map {α β : Type} {f : α → Option β} {g : α → β} {l : List α}
    (h : ∀ a ∈ l, f a = some (g a)) : l.mapM f = some (l.map g) := by
  induction l with
  | nil => rfl
  | cons a l ih =>
    have hrest := ih fun x hx => h x (List.mem_cons_of_mem a hx)
    simp [List.mapM_cons, h a List.mem_cons_self, hrest]

/-- The buffer with its position in range, as a ring. -/
structure Int64Buffer.Stands (b : Int64Buffer) (r : Buffer) : Prop where
  buf : b.buf = r.buf
  pos : b.pos = r.pos

namespace Int64Buffer

variable {b : Int64Buffer} {r : Buffer}

theorem stands_new : new.Stands newBuffer := ⟨rfl, rfl⟩

theorem index_natCast (n : Nat) : index n = some (Ring.slot maxBufferEntries n) := by
  have hmod : (n : Int).tmod maxBufferEntries = ((n % maxBufferEntries : Nat) : Int) := by
    rw [Int.tmod_eq_emod_of_nonneg (by omega)]
    rfl
  unfold index
  rw [hmod, if_pos (by omega), Int.toNat_natCast]
  refine congrArg some (Fin.ext ?_)
  simp [Ring.slot, Fin.ofNat]

theorem Stands.index_read (h : b.Stands r) {i : Nat} (hi : i < r.pos) :
    index (b.pos - 1 - i) = some (Ring.slot maxBufferEntries (r.pos - 1 - i)) := by
  have hcast : b.pos - 1 - i = ((r.pos - 1 - i : Nat) : Int) := by
    rw [h.pos]
    omega
  rw [hcast, index_natCast]

theorem Stands.index_pos (h : b.Stands r) :
    index b.pos = some (Ring.slot maxBufferEntries r.pos) := by
  rw [h.pos, index_natCast]

theorem Stands.record (h : b.Stands r) (hne : r.pos ≠ 2 ^ 63 - 1) (rec : ViolationRecord) :
    ∃ b', b.record rec = some ((r.record rec).1, b') ∧ b'.Stands (r.record rec).2 := by
  have hfull : decide ((maxBufferEntries : Int) ≤ b.pos) = decide (maxBufferEntries ≤ r.pos) := by
    simp [h.pos]
  have hsucc : int64Succ b.pos = ((r.pos + 1 : Nat) : Int) := by
    rw [int64Succ, if_neg (by have := h.pos; omega), h.pos]
    rfl
  refine ⟨⟨Function.update b.buf (Ring.slot maxBufferEntries r.pos) rec, int64Succ b.pos⟩, ?_,
    congrArg (Function.update · (Ring.slot maxBufferEntries r.pos) rec) h.buf, hsucc⟩
  unfold Int64Buffer.record Ring.record
  rw [h.index_pos, hfull]
  rfl

theorem Stands.drain (h : b.Stands r) :
    ∃ b', b.drain = some (r.contents, b') ∧ b'.Stands r.drain.2 := by
  have hmin : min b.pos (maxBufferEntries : Int) = ((min r.pos maxBufferEntries : Nat) : Int) := by
    rw [h.pos]
    omega
  unfold Int64Buffer.drain Ring.drain
  rw [hmin]
  by_cases hzero : min r.pos maxBufferEntries = 0
  · rw [if_pos (by omega), if_pos hzero]
    refine ⟨b, ?_, h⟩
    simp [Ring.contents, hzero]
  · rw [if_neg (by omega), if_neg (by omega), if_neg hzero]
    have hread : ∀ i ∈ List.range (min r.pos maxBufferEntries),
        (index (b.pos - 1 - i)).map b.buf =
          some (r.buf (Ring.slot maxBufferEntries (r.pos - 1 - i))) := by
      intro i hi
      have hlt : i < min r.pos maxBufferEntries := List.mem_range.mp hi
      rw [h.index_read (by omega), h.buf]
      rfl
    refine ⟨{ b with pos := 0 }, ?_, h.buf, rfl⟩
    rw [Int.toNat_natCast, mapM_eq_some_map hread]
    rfl

/-! ### What a drain would answer with

A position below zero is one that has wrapped. From there on a drain panics, and so does a record,
but for the few whose index is a multiple of the capacity. -/

theorem stands_of_nonneg (h : 0 ≤ b.pos) : b.Stands ⟨b.buf, b.pos.toNat⟩ := ⟨rfl, by simp [h]⟩

theorem Stands.held (h : b.Stands r) : b.held = r.contents := by
  obtain ⟨b', hdrain, -⟩ := h.drain
  rw [Int64Buffer.held, hdrain]
  rfl

theorem drain_of_neg (h : b.pos < 0) : b.drain = none := by
  have hmin : min b.pos (maxBufferEntries : Int) < 0 := by omega
  rw [Int64Buffer.drain, if_neg (by omega), if_pos hmin]

theorem held_of_neg (h : b.pos < 0) : b.held = [] := by
  rw [Int64Buffer.held, drain_of_neg h]
  rfl

theorem held_new : new.held = [] := by
  rw [stands_new.held]
  rfl

theorem afterRecord_of_neg (h : b.pos < 0) (rec : ViolationRecord) :
    (b.afterRecord rec).held = [] := by
  unfold afterRecord Int64Buffer.record index
  by_cases hmod : 0 ≤ b.pos.tmod maxBufferEntries
  · -- the index is a multiple of the capacity, so the next position is still below zero
    rw [if_pos hmod]
    refine held_of_neg ?_
    have hneg : b.pos.tmod maxBufferEntries = -(-b.pos % maxBufferEntries) := by
      rw [← Int.tmod_eq_emod_of_nonneg (by omega), Int.neg_tmod, Int.neg_neg]
    have hcap : (maxBufferEntries : Int) = 10000 := rfl
    rw [hneg, hcap] at hmod
    show int64Succ b.pos < 0
    unfold int64Succ
    split <;> omega
  · rw [if_neg hmod]
    exact held_new

theorem mem_held_afterRecord {rec x : ViolationRecord} (hx : x ∈ (b.afterRecord rec).held) :
    x = rec ∨ x ∈ b.held := by
  by_cases hneg : b.pos < 0
  · rw [afterRecord_of_neg hneg] at hx
    exact absurd hx List.not_mem_nil
  have hstands := stands_of_nonneg (Int.not_lt.mp hneg)
  by_cases hwrap : b.pos.toNat = 2 ^ 63 - 1
  · -- the position wraps, and nothing can be drained any more
    have hpos : b.pos = 2 ^ 63 - 1 := by omega
    have hafter : (b.afterRecord rec).pos < 0 := by
      unfold afterRecord Int64Buffer.record
      rw [hstands.index_pos]
      show int64Succ b.pos < 0
      rw [hpos]
      decide
    rw [held_of_neg hafter] at hx
    exact absurd hx List.not_mem_nil
  · obtain ⟨b', hrecord, hstands'⟩ := hstands.record hwrap rec
    have hafter : b.afterRecord rec = b' := by
      rw [afterRecord, hrecord]
      rfl
    rw [hafter, hstands'.held, Ring.contents_record] at hx
    rw [hstands.held]
    exact List.mem_cons.mp (List.mem_of_mem_take hx)

theorem held_afterDrain (b : Int64Buffer) : b.afterDrain.held = [] := by
  by_cases hneg : b.pos < 0
  · rw [afterDrain, drain_of_neg hneg]
    exact held_new
  · obtain ⟨b', hdrain, hstands⟩ := (stands_of_nonneg (Int.not_lt.mp hneg)).drain
    rw [afterDrain, hdrain]
    show b'.held = []
    rw [hstands.held, Ring.contents_drain]

/-- The next record goes into a slot that a drain would read now. -/
def Overwrites (b : Int64Buffer) : Prop :=
  ∃ i : Nat, (i : Int) < min b.pos maxBufferEntries ∧ index (b.pos - 1 - i) = index b.pos

theorem Stands.overwrites_iff (h : b.Stands r) : b.Overwrites ↔ maxBufferEntries ≤ r.pos := by
  have hpos := h.pos
  constructor
  · rintro ⟨i, hi, hslot⟩
    by_contra hlt
    rw [h.index_read (by omega), h.index_pos, Option.some.injEq] at hslot
    exact Ring.slot_ne (by omega) (by omega) hslot
  · intro hfull
    have hcap : 0 < maxBufferEntries := Nat.pos_of_neZero _
    -- the oldest of the records that are held
    refine ⟨maxBufferEntries - 1, by omega, ?_⟩
    rw [h.index_read (by omega), h.index_pos]
    refine congrArg some (Fin.ext ?_)
    have hback : r.pos = r.pos - 1 - (maxBufferEntries - 1) + maxBufferEntries := by omega
    show (r.pos - 1 - (maxBufferEntries - 1)) % maxBufferEntries = r.pos % maxBufferEntries
    conv_rhs => rw [hback]
    exact (Nat.add_mod_right _ _).symm

end Int64Buffer

/-! ## Sessions -/

inductive Call
  | record (rec : ViolationRecord)
  | drain

inductive Answer
  | dropped (b : Bool)
  | records (l : List ViolationRecord)

/-- The buffer, and what it has answered so far. -/
structure Session where
  buffer : Int64Buffer := .new
  answers : List Answer := []

def Session.call (s : Session) : Call → Option Session
  | .record rec => do
    let (dropped, buffer) ← s.buffer.record rec
    return { buffer, answers := s.answers ++ [.dropped dropped] }
  | .drain => do
    let (records, buffer) ← s.buffer.drain
    return { buffer, answers := s.answers ++ [.records records] }

def session (calls : List Call) : Option Session := calls.foldlM Session.call {}

/-- The records of the calls since the last drain, newest first. -/
def sinceDrain (calls : List Call) : List ViolationRecord :=
  calls.foldl (fun log c =>
    match c with
    | .record rec => rec :: log
    | .drain => []) []

/-- What a bounded log with these records answers. -/
def expected (log : List ViolationRecord) : Call → Answer
  | .record _ => .dropped (decide (maxBufferEntries ≤ log.length))
  | .drain => .records (log.take maxBufferEntries)

def recorded (calls : List Call) : Nat :=
  calls.countP fun c =>
    match c with
    | .record _ => true
    | .drain => false

def drained (answers : List Answer) : Nat :=
  (answers.map fun a =>
    match a with
    | .dropped _ => 0
    | .records l => l.length).sum

def drops (answers : List Answer) : Nat :=
  answers.countP fun a =>
    match a with
    | .dropped b => b
    | .records _ => false

theorem session_push (calls : List Call) (c : Call) :
    session (calls ++ [c]) = (session calls).bind fun s => s.call c := by
  simp [session, List.foldlM_append]

@[simp] theorem sinceDrain_record (calls : List Call) (rec : ViolationRecord) :
    sinceDrain (calls ++ [.record rec]) = rec :: sinceDrain calls := by simp [sinceDrain]

@[simp] theorem sinceDrain_drain (calls : List Call) : sinceDrain (calls ++ [.drain]) = [] := by
  simp [sinceDrain]

/-- The session after the calls. -/
structure Session.After (s : Session) (calls : List Call) : Prop where
  ring : ∃ r, s.buffer.Stands r ∧ r.pos = (sinceDrain calls).length ∧
    r.contents = (sinceDrain calls).take maxBufferEntries
  length : s.answers.length = calls.length
  answers : ∀ k c, calls[k]? = some c →
    s.answers[k]? = some (expected (sinceDrain (calls.take k)) c)
  balance : recorded calls = drained s.answers + drops s.answers +
    ((sinceDrain calls).take maxBufferEntries).length

theorem Session.After.push_answers {s : Session} {calls : List Call} (h : s.After calls) (c : Call)
    {a : Answer} (ha : a = expected (sinceDrain calls) c) {k : Nat} {c' : Call}
    (hk : (calls ++ [c])[k]? = some c') :
    (s.answers ++ [a])[k]? = some (expected (sinceDrain ((calls ++ [c]).take k)) c') := by
  have hlt : k < calls.length + 1 := by
    have := (List.getElem?_eq_some_iff.mp hk).1
    simpa using this
  rw [List.take_append_of_le_length (by omega)]
  by_cases hold : k < calls.length
  · rw [List.getElem?_append_left hold] at hk
    rw [List.getElem?_append_left (by rw [h.length]; exact hold)]
    exact h.answers k c' hk
  · obtain rfl : k = calls.length := by omega
    rw [List.getElem?_concat_length, Option.some.injEq] at hk
    subst hk ha
    rw [← h.length, List.getElem?_concat_length, h.length, List.take_length]

theorem Session.After.call {s : Session} {calls : List Call} (h : s.After calls) (c : Call)
    (hlt : (sinceDrain (calls ++ [c])).length < 2 ^ 63) :
    ∃ s', s.call c = some s' ∧ s'.After (calls ++ [c]) := by
  obtain ⟨r, hr, hpos, hcontents⟩ := h.ring
  have hlen : ∀ a : Answer, (s.answers ++ [a]).length = (calls ++ [c]).length := by
    intro a
    simp [h.length]
  cases c with
  | record rec =>
    rw [sinceDrain_record, List.length_cons] at hlt
    obtain ⟨b', hb', hstands⟩ := hr.record (by omega) rec
    refine ⟨⟨b', s.answers ++ [.dropped (r.record rec).1]⟩, by simp [Session.call, hb'], ?_,
      hlen _, fun k c' hk => ?_, ?_⟩
    · refine ⟨(r.record rec).2, hstands, by simp [hpos], ?_⟩
      rw [Ring.contents_record, hcontents, sinceDrain_record, ← List.take_succ_cons,
        List.take_take, min_eq_left (Nat.le_succ _)]
    · refine h.push_answers (.record rec) ?_ hk
      simp [expected, Ring.record, hpos]
    · have hbal := h.balance
      simp only [recorded, drained, drops, List.countP_append, List.map_append, List.sum_append,
        sinceDrain_record, List.length_take, List.length_cons, Ring.record, hpos] at hbal ⊢
      by_cases hfull : maxBufferEntries ≤ (sinceDrain calls).length
      · simp [hfull]
        omega
      · simp [hfull]
        omega
  | drain =>
    obtain ⟨b', hb', hstands⟩ := hr.drain
    refine ⟨⟨b', s.answers ++ [.records r.contents]⟩, by simp [Session.call, hb'], ?_,
      hlen _, fun k c' hk => ?_, ?_⟩
    · refine ⟨r.drain.2, hstands, by simp [Ring.drain_pos], ?_⟩
      simp [Ring.contents_drain]
    · refine h.push_answers .drain ?_ hk
      rw [expected, hcontents]
    · have hbal := h.balance
      simp only [recorded, drained, drops, List.countP_append, List.map_append, List.sum_append,
        sinceDrain_drain, List.length_take, hcontents] at hbal ⊢
      simp
      omega

theorem session_after {calls : List Call}
    (h : ∀ k, (sinceDrain (calls.take k)).length < 2 ^ 63) :
    ∃ s, session calls = some s ∧ s.After calls := by
  induction calls using List.reverseRecOn with
  | nil =>
    refine ⟨{}, rfl, ⟨newBuffer, Int64Buffer.stands_new, rfl, rfl⟩, rfl, fun k c hk => ?_, rfl⟩
    simp at hk
  | append_singleton calls c ih =>
    have hbefore : ∀ k, (sinceDrain (calls.take k)).length < 2 ^ 63 := by
      intro k
      have hk := h (min k calls.length)
      rwa [List.take_append_of_le_length (by omega), ← List.take_eq_take_min] at hk
    obtain ⟨s, hs, hafter⟩ := ih hbefore
    have hall := h (calls ++ [c]).length
    rw [List.take_length] at hall
    obtain ⟨s', hs', hafter'⟩ := hafter.call c hall
    exact ⟨s', by rw [session_push, hs]; exact hs', hafter'⟩

/-- **The buffer is a bounded log, newest first.** With fewer than 2^63 records between two drains
no call panics; every drain answers with the newest ten thousand records since the one before it; a
record is reported as dropped exactly when it is written over one that a drain would have returned;
and nothing is lost or counted twice. -/
theorem buffer_is_bounded_log {calls : List Call}
    (h : ∀ k, (sinceDrain (calls.take k)).length < 2 ^ 63) :
    ∃ s, session calls = some s ∧
      (∀ k c, calls[k]? = some c →
        s.answers[k]? = some (expected (sinceDrain (calls.take k)) c)) ∧
      (∀ k rec, calls[k]? = some (.record rec) → ∃ before, session (calls.take k) = some before ∧
        (s.answers[k]? = some (.dropped true) ↔ before.buffer.Overwrites)) ∧
      ∃ held b, s.buffer.drain = some (held, b) ∧
        recorded calls = drained s.answers + drops s.answers + held.length := by
  obtain ⟨s, hs, hafter⟩ := session_after h
  refine ⟨s, hs, hafter.answers, fun k rec hk => ?_, ?_⟩
  · have hfew : ∀ j, (sinceDrain ((calls.take k).take j)).length < 2 ^ 63 := by
      intro j
      rw [List.take_take]
      exact h _
    obtain ⟨before, hbefore, hupto⟩ := session_after hfew
    obtain ⟨r, hr, hpos, _⟩ := hupto.ring
    refine ⟨before, hbefore, ?_⟩
    rw [hafter.answers k _ hk, hr.overwrites_iff, hpos]
    simp [expected]
  · obtain ⟨r, hr, _, hcontents⟩ := hafter.ring
    obtain ⟨b, hb, _⟩ := hr.drain
    refine ⟨r.contents, b, hb, ?_⟩
    rw [hcontents]
    exact hafter.balance

theorem length_sinceDrain_le (calls : List Call) : (sinceDrain calls).length ≤ calls.length := by
  induction calls using List.reverseRecOn with
  | nil => exact Nat.le_refl 0
  | append_singleton calls c ih =>
    cases c with
    | record rec => simpa using ih
    | drain => simp

namespace Sample

/-- One violation more than the buffer takes, a drain, and another violation. -/
def overflowing : List Call :=
  List.replicate 10001 (.record {}) ++ [.drain, .record {}]

theorem buffer_is_bounded_log_overflowing :
    ∃ s, session overflowing = some s ∧
      (∀ k c, overflowing[k]? = some c →
        s.answers[k]? = some (expected (sinceDrain (overflowing.take k)) c)) ∧
      (∀ k rec, overflowing[k]? = some (.record rec) →
        ∃ before, session (overflowing.take k) = some before ∧
          (s.answers[k]? = some (.dropped true) ↔ before.buffer.Overwrites)) ∧
      ∃ held b, s.buffer.drain = some (held, b) ∧
        recorded overflowing = drained s.answers + drops s.answers + held.length := by
  refine buffer_is_bounded_log fun k => ?_
  have hlog := length_sinceDrain_le (overflowing.take k)
  have htake : (overflowing.take k).length ≤ 10003 := by
    rw [List.length_take, overflowing, List.length_append, List.length_replicate]
    exact Nat.min_le_right _ _
  omega

end Sample

end RuntimeEnforcer.Violationbuf
