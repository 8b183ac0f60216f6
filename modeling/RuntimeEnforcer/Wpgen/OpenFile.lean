import RuntimeEnforcer.Lib.Schedule

/-!
# Opening a file that may block

`openFileWith` of `internal/wpgen/input.go`. The call checks the context, starts a goroutine that
opens the file, and waits in a select for the goroutine's result or the end of the context; the
goroutine opens and then waits in a select of its own for the caller to take the result or for the
end of the context. The channel is unbuffered, so handing over the result is one step of both.

The caller, the goroutine, the context and the function that opens take their steps in any order.
A select with two branches that are ready takes either: which one is part of the input. What has to
hold under every schedule is that a file which was opened is returned or closed, and once.
-/

set_option autoImplicit false

namespace RuntimeEnforcer.Wpgen

/-- `openResult`, and what the call returns; `none` is nil. -/
structure OpenResult (φ ε : Type) where
  file : Option φ
  err : Option ε

/-- Where the caller is: before the check of the context; in its select, or on the way there; or out
of either, with what it is going to return. -/
inductive Caller (φ ε : Type)
  | checking
  | waiting
  | leaving (r : OpenResult φ ε)
  | returned (r : OpenResult φ ε)

/-- Where the goroutine is: not started, in its select or on the way there, in the branch of
`ctx.Done` with a file to close, or done. `opened` is what `open` returned, and `closed` what the
goroutine has closed, in order. -/
inductive Opener (φ ε : Type)
  | unborn
  | opening
  | offering (res : OpenResult φ ε)
  | closing (f : φ)
  | ending
  | finished

structure Opening (φ ε : Type) where
  cancelled : Bool := false
  caller : Caller φ ε := .checking
  opener : Opener φ ε := .unborn
  opened : Option (OpenResult φ ε) := none
  closed : List φ := []

inductive OpenOp (φ ε : Type)
  | cancel
  | opens (res : OpenResult φ ε)
  | caller (done : Bool)
  | opener (done : Bool)

namespace Opening

variable {φ ε : Type}

/-- `done <- res` meets `<-done`. -/
def handOver (s : Opening φ ε) (res : OpenResult φ ε) : Opening φ ε :=
  { s with caller := .leaving res, opener := .ending }

/-- The check of the context and the start of the goroutine; later the branch of `ctx.Done` of the
caller's select. `ctxErr` is `ctx.Err()` of a context that is cancelled. -/
def stepCaller (ctxErr : ε) (done : Bool) (s : Opening φ ε) : Opening φ ε :=
  match s.caller with
  | .checking =>
    if s.cancelled then { s with caller := .leaving ⟨none, some ctxErr⟩ }
    else { s with caller := .waiting, opener := .opening }
  | .waiting =>
    match s.opener with
    | .offering res =>
      if s.cancelled && done then { s with caller := .leaving ⟨none, some ctxErr⟩ }
      else s.handOver res
    | .unborn | .opening | .closing _ | .ending | .finished =>
      if s.cancelled then { s with caller := .leaving ⟨none, some ctxErr⟩ } else s
  | .leaving r => { s with caller := .returned r }
  | .returned _ => s

/-- The branch of `ctx.Done` of the goroutine's select. -/
def giveUp (s : Opening φ ε) (res : OpenResult φ ε) : Opening φ ε :=
  match res.file with
  | some f => { s with opener := .closing f }
  | none => { s with opener := .ending }

def stepOpener (done : Bool) (s : Opening φ ε) : Opening φ ε :=
  match s.opener with
  | .offering res =>
    match s.caller with
    | .waiting => if s.cancelled && done then s.giveUp res else s.handOver res
    | .checking | .leaving _ | .returned _ => if s.cancelled then s.giveUp res else s
  | .closing f => { s with opener := .ending, closed := s.closed ++ [f] }
  | .ending => { s with opener := .finished }
  | .unborn | .opening | .finished => s

/-- One step. A step that cannot be taken leaves everything as it is. -/
def step (ctxErr : ε) : OpenOp φ ε → Opening φ ε → Opening φ ε
  | .cancel, s => { s with cancelled := true }
  | .opens res, s =>
    match s.opener with
    | .opening => { s with opener := .offering res, opened := some res }
    | .unborn | .offering _ | .closing _ | .ending | .finished => s
  | .caller done, s => s.stepCaller ctxErr done
  | .opener done, s => s.stepOpener done

end Opening

end RuntimeEnforcer.Wpgen
