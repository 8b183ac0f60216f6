import RuntimeEnforcer.Wpgen.OpenFile

/-!
# One owner for a file that is opened late

Between `open` and the end of the call a file belongs to the goroutine; it is then handed over to
the caller or closed by the goroutine, and never both. `Goes` says once what a step can do, and
`Custody` is what every step keeps: where the goroutine is says who has the file.

For the call to come to an end the caller and the goroutine must be scheduled again and again
(`Fair`); nothing is asked of the context, which may never be cancelled, or of `open`, which may
never return.
-/

set_option autoImplicit false

namespace RuntimeEnforcer.Wpgen

open Lib

variable {φ ε : Type} {ctxErr : ε}

/-- What the caller has left with. -/
def Caller.result : Caller φ ε → Option (OpenResult φ ε)
  | .checking | .waiting => none
  | .leaving r | .returned r => some r

/-- How far the caller is from its return. -/
def Caller.rank : Caller φ ε → Nat
  | .checking | .waiting => 2
  | .leaving _ => 1
  | .returned _ => 0

/-- How far the goroutine is from its end. -/
def Opener.rank : Opener φ ε → Nat
  | .unborn | .opening => 4
  | .offering _ => 3
  | .closing _ => 2
  | .ending => 1
  | .finished => 0

namespace Opening

/-! ## The steps -/

section GiveUp

variable (s : Opening φ ε) (res : OpenResult φ ε)

@[simp] theorem giveUp_cancelled : (s.giveUp res).cancelled = s.cancelled := by
  rw [giveUp]
  split <;> rfl

@[simp] theorem giveUp_caller : (s.giveUp res).caller = s.caller := by
  rw [giveUp]
  split <;> rfl

@[simp] theorem giveUp_opened : (s.giveUp res).opened = s.opened := by
  rw [giveUp]
  split <;> rfl

theorem giveUp_rank : (s.giveUp res).opener.rank ≤ 2 := by
  rw [giveUp]
  split <;> simp [Opener.rank]

end GiveUp

/-- What a step can do. -/
inductive Goes (ctxErr : ε) (s : Opening φ ε) : Opening φ ε → Prop
  | stay : Goes ctxErr s s
  | cancel : Goes ctxErr s { s with cancelled := true }
  | opens (res : OpenResult φ ε) (ho : s.opener = .opening) :
    Goes ctxErr s { s with opener := .offering res, opened := some res }
  | start (hc : s.caller = .checking) :
    Goes ctxErr s { s with caller := .waiting, opener := .opening }
  | leave (hc : s.caller.result = none) (hdone : s.cancelled = true) :
    Goes ctxErr s { s with caller := .leaving ⟨none, some ctxErr⟩ }
  | handOver (res : OpenResult φ ε) (hc : s.caller = .waiting) (ho : s.opener = .offering res) :
    Goes ctxErr s (s.handOver res)
  | giveUp (res : OpenResult φ ε) (ho : s.opener = .offering res) (hdone : s.cancelled = true) :
    Goes ctxErr s (s.giveUp res)
  | close (f : φ) (ho : s.opener = .closing f) :
    Goes ctxErr s { s with opener := .ending, closed := s.closed ++ [f] }
  | finish (ho : s.opener = .ending) : Goes ctxErr s { s with opener := .finished }
  | ret (r : OpenResult φ ε) (hc : s.caller = .leaving r) :
    Goes ctxErr s { s with caller := .returned r }

theorem stepCaller_goes (ctxErr : ε) (done : Bool) (s : Opening φ ε) :
    Goes ctxErr s (s.stepCaller ctxErr done) := by
  obtain ⟨cancelled, caller, opener, opened, closed⟩ := s
  cases caller with
  | checking =>
    cases cancelled with
    | true => exact .leave rfl rfl
    | false => exact .start rfl
  | waiting =>
    cases opener with
    | offering res =>
      -- both branches are ready where the context is cancelled
      cases cancelled with
      | true =>
        cases done with
        | true => exact .leave rfl rfl
        | false => exact .handOver res rfl rfl
      | false => exact .handOver res rfl rfl
    | unborn | opening | closing | ending | finished =>
      cases cancelled with
      | true => exact .leave rfl rfl
      | false => exact .stay
  | leaving r => exact .ret r rfl
  | returned r => exact .stay

theorem stepOpener_goes (ctxErr : ε) (done : Bool) (s : Opening φ ε) :
    Goes ctxErr s (s.stepOpener done) := by
  obtain ⟨cancelled, caller, opener, opened, closed⟩ := s
  cases opener with
  | offering res =>
    cases caller with
    | waiting =>
      cases cancelled with
      | true =>
        cases done with
        | true => exact .giveUp res rfl rfl
        | false => exact .handOver res rfl rfl
      | false => exact .handOver res rfl rfl
    | checking | leaving | returned =>
      cases cancelled with
      | true => exact .giveUp res rfl rfl
      | false => exact .stay
  | closing f => exact .close f rfl
  | ending => exact .finish rfl
  | unborn | opening | finished => exact .stay

theorem step_goes (ctxErr : ε) (op : OpenOp φ ε) (s : Opening φ ε) :
    Goes ctxErr s (step ctxErr op s) := by
  cases op with
  | cancel => exact .cancel
  | opens res =>
    obtain ⟨cancelled, caller, opener, opened, closed⟩ := s
    cases opener with
    | opening => exact .opens res rfl
    | unborn | offering | closing | ending | finished => exact .stay
  | caller done => exact stepCaller_goes ctxErr done s
  | opener done => exact stepOpener_goes ctxErr done s

/-! ## Who has the file -/

variable {s s' : Opening φ ε}

/-- The caller has left because of the context. -/
def CtxLeft (ctxErr : ε) (s : Opening φ ε) : Prop :=
  s.cancelled = true ∧ s.caller.result = some ⟨none, some ctxErr⟩

/-- The caller has got nothing from the goroutine. -/
def EmptyHanded (ctxErr : ε) (s : Opening φ ε) : Prop := s.caller = .waiting ∨ s.CtxLeft ctxErr

/-- Who has the file, by where the goroutine is. -/
def Custody (ctxErr : ε) (s : Opening φ ε) : Prop :=
  match s.opener with
  | .unborn => s.opened = none ∧ s.closed = [] ∧ (s.caller = .checking ∨ s.CtxLeft ctxErr)
  | .opening => s.opened = none ∧ s.closed = [] ∧ s.EmptyHanded ctxErr
  | .offering res => s.opened = some res ∧ s.closed = [] ∧ s.EmptyHanded ctxErr
  | .closing f => (∃ res, s.opened = some res ∧ res.file = some f) ∧ s.closed = [] ∧
      s.cancelled = true ∧ s.EmptyHanded ctxErr
  | .ending | .finished => ∃ res, s.opened = some res ∧
      (s.closed = [] ∧ s.caller.result = some res ∨
        s.closed = res.file.toList ∧ s.cancelled = true ∧ s.EmptyHanded ctxErr)

theorem Custody.opener_of_checking (h : s.Custody ctxErr) (hc : s.caller = .checking) :
    s.opener = .unborn := by
  obtain ⟨cancelled, caller, opener, opened, closed⟩ := s
  cases hc
  have hnot : ¬ EmptyHanded ctxErr ⟨cancelled, .checking, opener, opened, closed⟩ := by
    rintro (habs | ⟨_, habs⟩) <;> cases habs
  cases opener with
  | unborn => rfl
  | opening | offering => exact absurd h.2.2 hnot
  | closing => exact absurd h.2.2.2 hnot
  | ending | finished =>
    obtain ⟨res, _, ⟨_, habs⟩ | ⟨_, _, hempty⟩⟩ := h
    · cases habs
    · exact absurd hempty hnot

theorem Custody.of_caller (h : s.Custody ctxErr) {cancelled : Bool} {caller : Caller φ ε}
    (hcancelled : s.cancelled = true → cancelled = true) (hchecking : s.caller = .checking →
      caller = .checking ∨ CtxLeft ctxErr { s with cancelled, caller })
    (hempty : s.EmptyHanded ctxErr → EmptyHanded ctxErr { s with cancelled, caller })
    (hresult : ∀ r, s.caller.result = some r → caller.result = some r) :
    Custody ctxErr { s with cancelled, caller } := by
  obtain ⟨cancelled₀, caller₀, opener, opened, closed⟩ := s
  cases opener with
  | unborn => exact ⟨h.1, h.2.1, h.2.2.elim hchecking fun hleft =>
      .inr ⟨hcancelled hleft.1, hresult _ hleft.2⟩⟩
  | opening | offering => exact ⟨h.1, h.2.1, hempty h.2.2⟩
  | closing => exact ⟨h.1, h.2.1, hcancelled h.2.2.1, hempty h.2.2.2⟩
  | ending | finished =>
    obtain ⟨res, hres, hend⟩ := h
    exact ⟨res, hres, hend.imp (fun hgot => ⟨hgot.1, hresult res hgot.2⟩)
      fun hgiven => ⟨hgiven.1, hcancelled hgiven.2.1, hempty hgiven.2.2⟩⟩

/-- **A step keeps the file in one hand.** -/
theorem Custody.goes (h : s.Custody ctxErr) (hgoes : Goes ctxErr s s') : s'.Custody ctxErr := by
  cases hgoes with
  | stay => exact h
  | cancel =>
    exact h.of_caller (fun _ => rfl) .inl (fun hempty => hempty.imp id fun hleft => ⟨rfl, hleft.2⟩)
      fun r hr => hr
  | opens res ho =>
    rw [Custody, ho] at h
    exact ⟨rfl, h.2.1, h.2.2⟩
  | start hc =>
    have ho := h.opener_of_checking hc
    rw [Custody, ho] at h
    exact ⟨h.1, h.2.1, .inl rfl⟩
  | leave hc hdone =>
    refine h.of_caller (fun hdone => hdone) (fun _ => .inr ⟨hdone, rfl⟩)
      (fun _ => .inr ⟨hdone, rfl⟩) fun r hr => ?_
    rw [hc] at hr
    cases hr
  | handOver res hc ho =>
    rw [Custody, ho] at h
    exact ⟨res, h.1, .inl ⟨h.2.1, rfl⟩⟩
  | giveUp res ho hdone =>
    rw [Custody, ho] at h
    rw [giveUp]
    cases hf : res.file with
    | some f => exact ⟨⟨res, h.1, hf⟩, h.2.1, hdone, h.2.2⟩
    | none => exact ⟨res, h.1, .inr ⟨by rw [hf]; exact h.2.1, hdone, h.2.2⟩⟩
  | close f ho =>
    rw [Custody, ho] at h
    obtain ⟨⟨res, hres, hf⟩, hclosed, hdone, hempty⟩ := h
    refine ⟨res, hres, .inr ⟨?_, hdone, hempty⟩⟩
    show s.closed ++ [f] = res.file.toList
    rw [hclosed, hf]
    rfl
  | finish ho =>
    rw [Custody, ho] at h
    exact h
  | ret r hc =>
    refine h.of_caller (fun hdone => hdone) (fun habs => ?_) (fun hempty => ?_) fun r' hr => ?_
    · rw [hc] at habs
      cases habs
    · rw [EmptyHanded, CtxLeft, hc] at hempty
      rcases hempty with habs | hleft
      · cases habs
      · exact .inr hleft
    · rw [hc] at hr
      exact hr

theorem custody_start : Custody ctxErr ({} : Opening φ ε) := ⟨rfl, rfl, .inl rfl⟩

theorem custody_trace (ctxErr : ε) (sched : Nat → OpenOp φ ε) (n : Nat) :
    (trace (step ctxErr) sched {} n).Custody ctxErr :=
  trace_inv (fun s op h => h.goes (step_goes ctxErr op s)) custody_start n

/-! ## What lasts -/

/-- The context or `open` is done. -/
def Ready (s : Opening φ ε) : Prop := s.cancelled = true ∨ s.opened.isSome = true

/-- `open` is done and the caller has left. -/
def Deserted (s : Opening φ ε) : Prop := s.opened.isSome = true ∧ s.caller.result.isSome = true

theorem Goes.ready (hgoes : Goes ctxErr s s') (h : s.Ready) : s'.Ready := by
  cases hgoes with
  | cancel => exact .inl rfl
  | opens => exact .inr rfl
  | giveUp res => simpa [Ready] using h
  | stay | start | leave | handOver | close | finish | ret => exact h

theorem Goes.callerRank_le (hgoes : Goes ctxErr s s') : s'.caller.rank ≤ s.caller.rank := by
  cases hgoes with
  | start hc => simp [hc, Caller.rank]
  | leave hc =>
    cases hcaller : s.caller with
    | checking | waiting => simp [Caller.rank]
    | leaving | returned => simp [hcaller, Caller.result] at hc
  | handOver res hc => simp [hc, Opening.handOver, Caller.rank]
  | giveUp res => simp
  | ret r hc => simp [hc, Caller.rank]
  | stay | cancel | opens | close | finish => exact Nat.le_refl _

theorem Goes.deserted (hgoes : Goes ctxErr s s') (h : s.Deserted) : s'.Deserted := by
  cases hgoes with
  | opens => exact ⟨rfl, h.2⟩
  | start hc => simp [Deserted, hc, Caller.result] at h
  | leave | handOver => exact ⟨h.1, rfl⟩
  | giveUp res => simpa [Deserted] using h
  | ret r => exact ⟨h.1, rfl⟩
  | stay | cancel | close | finish => exact h

theorem Goes.openerRank_le (hgoes : Goes ctxErr s s') (h : s.Custody ctxErr) :
    s'.opener.rank ≤ s.opener.rank := by
  cases hgoes with
  | opens res ho => simp [ho, Opener.rank]
  | start hc => simp [h.opener_of_checking hc, Opener.rank]
  | handOver res _ ho => simp [ho, Opening.handOver, Opener.rank]
  | giveUp res ho => exact Nat.le_trans (giveUp_rank s res) (by simp [ho, Opener.rank])
  | close f ho => simp [ho, Opener.rank]
  | finish ho => simp [ho, Opener.rank]
  | stay | cancel | leave | ret => exact Nat.le_refl _

/-! ## Who goes on -/

theorem Custody.cancelled_or_offering (h : s.Custody ctxErr) (hready : s.Ready)
    (hc : s.caller = .waiting) : s.cancelled = true ∨ ∃ res, s.opener = .offering res := by
  refine hready.elim .inl fun hopened => ?_
  cases ho : s.opener with
  | unborn | opening =>
    rw [Custody, ho] at h
    rw [h.1] at hopened
    cases hopened
  | offering res => exact .inr ⟨res, rfl⟩
  | closing =>
    rw [Custody, ho] at h
    exact .inl h.2.2.1
  | ending | finished =>
    rw [Custody, ho] at h
    obtain ⟨res, _, ⟨_, habs⟩ | ⟨_, hdone, _⟩⟩ := h
    · rw [hc] at habs
      cases habs
    · exact .inl hdone

theorem stepCaller_rank_lt (h : s.Custody ctxErr) (hready : s.Ready) (done : Bool)
    (hrank : s.caller.rank ≠ 0) : (s.stepCaller ctxErr done).caller.rank < s.caller.rank := by
  rw [stepCaller]
  cases hc : s.caller with
  | checking =>
    have hdone : s.cancelled = true := by
      refine hready.elim id fun hopened => ?_
      have ho := h.opener_of_checking hc
      rw [Custody, ho] at h
      rw [h.1] at hopened
      cases hopened
    simp [hdone, Caller.rank]
  | waiting =>
    rcases h.cancelled_or_offering hready hc with hdone | ⟨res, ho⟩
    · cases ho : s.opener with
      | offering res =>
        dsimp only
        split <;> simp [Opening.handOver, Caller.rank]
      | unborn | opening | closing | ending | finished => simp [hdone, Caller.rank]
    · rw [ho]
      dsimp only
      split <;> simp [Opening.handOver, Caller.rank]
  | leaving r => simp [Caller.rank]
  | returned r =>
    rw [hc] at hrank
    exact absurd rfl hrank

theorem EmptyHanded.cancelled (h : s.EmptyHanded ctxErr) (hleft : s.caller.result.isSome = true) :
    s.cancelled = true := by
  rcases h with hc | hctx
  · rw [hc] at hleft
    cases hleft
  · exact hctx.1

theorem stepOpener_rank_lt (h : s.Custody ctxErr) (hgone : s.Deserted) (done : Bool)
    (hrank : s.opener.rank ≠ 0) : (s.stepOpener done).opener.rank < s.opener.rank := by
  rw [stepOpener]
  cases ho : s.opener with
  | unborn | opening =>
    rw [Custody, ho] at h
    rw [Deserted, h.1] at hgone
    cases hgone.1
  | offering res =>
    rw [Custody, ho] at h
    have hdone := h.2.2.cancelled hgone.2
    cases hc : s.caller with
    | waiting =>
      rw [Deserted, hc] at hgone
      cases hgone.2
    | checking | leaving | returned =>
      simp only [hdone, if_true]
      exact Nat.lt_succ_of_le (giveUp_rank s res)
  | closing f => simp [Opener.rank]
  | ending => simp [Opener.rank]
  | finished =>
    rw [ho] at hrank
    exact absurd rfl hrank

/-! ## Every run -/

/-- The caller and the goroutine are scheduled again and again. -/
structure Fair (sched : Nat → OpenOp φ ε) : Prop where
  caller : Recurs sched fun op => ∃ done, op = .caller done
  opener : Recurs sched fun op => ∃ done, op = .opener done

/-- What is promised of a run: the call returns once the context is cancelled or `open` has
finished, and not before; a file that was opened is the caller's and open, or closed once and not
the caller's; and the goroutine finishes once `open` has returned and the caller has left. -/
structure NoLeak (t : Nat → Opening φ ε) : Prop where
  returns : ∀ n, (t n).Ready → ∃ m, n ≤ m ∧ ∃ r, (t m).caller = .returned r
  waits : ∀ n r, (t n).caller = .returned r → (t n).Ready
  owner : ∀ n r res f, (t n).caller = .returned r → (t n).opener = .finished →
    (t n).opened = some res → res.file = some f →
      r = res ∧ (t n).closed = [] ∨ r.file = none ∧ (t n).closed = [f]
  finishes : ∀ n, (t n).Deserted → ∃ m, n ≤ m ∧ (t m).opener = .finished

theorem Custody.ready (h : s.Custody ctxErr) {r : OpenResult φ ε} (hr : s.caller.result = some r) :
    s.Ready := by
  cases ho : s.opener with
  | unborn =>
    rw [Custody, ho] at h
    rcases h.2.2 with hc | hctx
    · rw [hc] at hr
      cases hr
    · exact .inl hctx.1
  | opening | offering =>
    rw [Custody, ho] at h
    exact .inl (h.2.2.cancelled (by rw [hr]; rfl))
  | closing =>
    rw [Custody, ho] at h
    exact .inl h.2.2.1
  | ending | finished =>
    rw [Custody, ho] at h
    obtain ⟨res, hres, _⟩ := h
    exact .inr (by rw [hres]; rfl)

theorem Custody.owner (h : s.Custody ctxErr) {r res : OpenResult φ ε} {f : φ}
    (hc : s.caller = .returned r) (ho : s.opener = .finished) (hopened : s.opened = some res)
    (hf : res.file = some f) : r = res ∧ s.closed = [] ∨ r.file = none ∧ s.closed = [f] := by
  rw [Custody, ho] at h
  obtain ⟨res', hres, hend⟩ := h
  obtain rfl : res' = res := Option.some.inj (hres.symm.trans hopened)
  rw [hc] at hend
  rcases hend with ⟨hclosed, hgot⟩ | ⟨hclosed, _, hempty⟩
  · exact .inl ⟨Option.some.inj hgot, hclosed⟩
  · rcases hempty with habs | ⟨_, hleft⟩
    · rw [hc] at habs
      cases habs
    · rw [hc] at hleft
      cases hleft
      exact .inr ⟨rfl, by rw [hclosed, hf]; rfl⟩

/-- **A cancelled open never leaks or double-frees the file.** In every interleaving of the caller,
the goroutine, the context and `open`. -/
theorem openFileWith_noLeak (ctxErr : ε) {sched : Nat → OpenOp φ ε} (hfair : Fair sched) :
    NoLeak (trace (step ctxErr) sched {}) := by
  have hcustody := custody_trace ctxErr sched
  refine ⟨fun n hready => ?_, fun n r hc => ?_, fun n r res f hc ho hopened hf => ?_,
    fun n hgone => ?_⟩
  · obtain ⟨m, hm, hrank⟩ := trace_reaches (fun s => s.caller.rank) hcustody
      (fun s op _ hready => ⟨(step_goes ctxErr op s).ready hready,
        (step_goes ctxErr op s).callerRank_le⟩)
      (by
        rintro s op h hready ⟨done, rfl⟩ hrank
        exact stepCaller_rank_lt h hready done hrank)
      hfair.caller hready
    refine ⟨m, hm, ?_⟩
    cases hc : (trace (step ctxErr) sched {} m).caller with
    | returned r => exact ⟨r, rfl⟩
    | checking | waiting | leaving => simp [hc, Caller.rank] at hrank
  · exact (hcustody n).ready (by rw [hc]; rfl)
  · exact (hcustody n).owner hc ho hopened hf
  · obtain ⟨m, hm, hrank⟩ := trace_reaches (fun s => s.opener.rank) hcustody
      (fun s op h hgone => ⟨(step_goes ctxErr op s).deserted hgone,
        (step_goes ctxErr op s).openerRank_le h⟩)
      (by
        rintro s op h hgone ⟨done, rfl⟩ hrank
        exact stepOpener_rank_lt h hgone done hrank)
      hfair.opener hgone
    refine ⟨m, hm, ?_⟩
    cases ho : (trace (step ctxErr) sched {} m).opener with
    | finished => rfl
    | unborn | opening | offering | closing | ending => simp [ho, Opener.rank] at hrank

namespace Sample

/-- The context is cancelled while `open` blocks, and `open` returns after the caller has left. -/
def late (n : Nat) : OpenOp Unit String :=
  if n = 2 then .cancel
  else if n % 3 = 0 then .caller true
  else if n % 3 = 1 then .opener true
  else .opens ⟨some (), none⟩

theorem openFileWith_noLeak_late :
    NoLeak (trace (step "context canceled") late {}) ∧
      (trace (step "context canceled") late {} 14).closed = [()] := by
  have hcaller : Recurs late fun op => ∃ done, op = .caller done := fun n =>
    ⟨3 * n, by omega, true, by rw [late, if_neg (by omega), if_pos (by omega)]⟩
  have hopener : Recurs late fun op => ∃ done, op = .opener done := fun n =>
    ⟨3 * n + 1, by omega, true, by
      rw [late, if_neg (by omega), if_neg (by omega), if_pos (by omega)]⟩
  exact ⟨openFileWith_noLeak "context canceled" ⟨hcaller, hopener⟩, by decide +kernel⟩

end Sample

end Opening

end RuntimeEnforcer.Wpgen
