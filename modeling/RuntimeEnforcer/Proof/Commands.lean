import RuntimeEnforcer.Kubectlplugin.PolicyEdit
import RuntimeEnforcer.Proof.Acknowledge

/-!
# Commands that run at the same time

A command reads a policy, edits its copy, and writes the copy back whole, so two commands that run
at the same time would undo each other's work if the API server took both. It does not: what a
command writes is its edit of the very version that was stored when the write arrived (`Applies`),
and no version comes in between. The spec is therefore what the writes that were carried out make of
the first one, one after the other (`Command.onSpec` says what each means by itself), whatever the
controller does in the meantime: its patches do not touch the spec.
-/

set_option autoImplicit false

namespace RuntimeEnforcer.Api

open Lib

namespace PolicyRun

def Headed (s : PolicyRun) : Prop := ∃ older, s.history = s.stored :: older

theorem history_step (op : PolicyOp) (s : PolicyRun) :
    (s.step op).history = s.history ∧ (s.step op).stored = s.stored ∨
      (s.step op).history = (s.step op).stored :: s.history := by
  have heffect := PolicyRun.effect op s
  generalize s.step op = s' at heffect
  cases heffect with
  | turn t ht => exact .inl ⟨rfl, rfl⟩
  | edit => exact .inr rfl
  | list lag hturn => exact .inl ⟨rfl, rfl⟩
  | status i hturn hrec => exact .inr rfl
  | statusUnseen i res hturn hrec => exact .inr rfl
  | metadata res hturn => exact .inr rfl

theorem Headed.step {s : PolicyRun} (h : s.Headed) (op : PolicyOp) : (s.step op).Headed := by
  rcases history_step op s with ⟨hhist, hstored⟩ | hhist
  · rw [Headed, hhist, hstored]
    exact h
  · exact ⟨s.history, hhist⟩

theorem spec_step {op : PolicyOp} (hop : op.byUser = false) (s : PolicyRun) :
    (s.step op).stored.toWorkloadPolicy = s.stored.toWorkloadPolicy := by
  have heffect := PolicyRun.effect op s
  generalize s.step op = s' at heffect
  cases heffect with
  | edit => cases hop
  | turn t ht => rfl
  | list lag hturn => rfl
  | status i hturn hrec => rfl
  | statusUnseen i res hturn hrec => rfl
  | metadata res hturn => rfl

end PolicyRun

end RuntimeEnforcer.Api

namespace RuntimeEnforcer.Kubectlplugin

open Lib
open Api (PolicyRun PolicyOp)

/-! ## What the commands mean -/

variable {allowed executables : List Bytes} {x : Bytes} {c : Command} {wp' : Api.WorkloadPolicy}

theorem mem_foldl_allow {s : List Bytes × Bool} :
    x ∈ (allowed.foldl
      (fun s exec => if exec ∈ s.1 then s else (s.1 ++ [exec], true)) s).1 ↔
      x ∈ s.1 ∨ x ∈ allowed := by
  induction allowed generalizing s with
  | nil => simp
  | cons exec allowed ih =>
    rw [List.foldl_cons, ih]
    split
    · next hmem =>
      constructor
      · rintro (h | h)
        · exact .inl h
        · exact .inr (List.mem_cons_of_mem exec h)
      · rintro (h | h)
        · exact .inl h
        · rcases List.mem_cons.mp h with rfl | h
          · exact .inl hmem
          · exact .inr h
    · simp [or_assoc]

theorem mem_allowExecutables :
    x ∈ (allowExecutables executables allowed).1 ↔ x ∈ executables ∨ x ∈ allowed :=
  mem_foldl_allow

theorem foldl_deny_eq (denied executables : List Bytes) (s : List Bytes × Bool) :
    (executables.foldl
      (fun s exec => if exec ∈ denied then (s.1, true) else (s.1 ++ [exec], s.2)) s).1 =
      s.1 ++ executables.filter (· ∉ denied) := by
  induction executables generalizing s with
  | nil => simp
  | cons exec executables ih =>
    rw [List.foldl_cons, ih]
    by_cases hmem : exec ∈ denied <;> simp [hmem]

theorem mem_denyExecutables {denied : List Bytes} :
    x ∈ (denyExecutables executables denied).1 ↔ x ∈ executables ∧ x ∉ denied := by
  unfold denyExecutables
  split
  · next hempty => simp [hempty]
  · rw [foldl_deny_eq]
    simp

/-- What a command does to a spec: the abstract command, without its checks and its requests. -/
def Command.onSpec : Command → RuntimeEnforcer.WorkloadPolicy → RuntimeEnforcer.WorkloadPolicy
  | .exec action containerName executables _, wp =>
    match wp.rulesByContainer.lookup containerName with
    | none => wp
    | some rules =>
      { wp with
        rulesByContainer := wp.rulesByContainer.insert containerName
          { rules with allowed := (action.apply rules.allowed executables).1 } }
  | .ack .., wp => wp
  | .setMode mode, wp => { wp with mode }

def SpecEdit.onSpec : SpecEdit → RuntimeEnforcer.WorkloadPolicy → RuntimeEnforcer.WorkloadPolicy
  | .command c, wp => c.onSpec wp
  | .replace mode rulesByContainer, wp => { wp with mode, rulesByContainer }

/-- What a command that goes on to write has worked out. -/
inductive Planned (wp : Api.WorkloadPolicy) : Command → Api.WorkloadPolicy → Prop
  | exec {action : PolicyExecAction} {containerName : ContainerName} {executables : List Bytes}
      {missing : Bool} {rules : WorkloadPolicyRules}
      (hrules : wp.rulesByContainer.lookup containerName = some rules) :
      Planned wp (.exec action containerName executables missing)
        { wp with
          rulesByContainer := wp.rulesByContainer.insert containerName
            { rules with allowed := (action.apply rules.allowed executables).1 } }
  | ack {id : ViolationID} {flag : Option String} {stdin reason : String}
      (hid : ∃ v ∈ wp.status.violations, v.id = id.val)
      (hreason : resolveAckReason flag stdin = .ok reason) :
      Planned wp (.ack id flag stdin)
        { wp with
          annotations := wp.annotations.insert (violationAcknowledgeAnnotationKey id.val) reason }
  | setMode {mode : Mode} : Planned wp (.setMode mode) { wp with mode }

section

variable {wp : Api.WorkloadPolicy} {edit : Edit}

theorem runPolicyExec_planned {action : PolicyExecAction} {containerName : ContainerName}
    {missing : Bool}
    (h : runPolicyExec action containerName executables missing wp = .update edit) :
    Planned wp (.exec action containerName executables missing) edit.policy := by
  unfold runPolicyExec decodedRules at h
  split at h
  · cases h
  · cases h
  · next rules' hok =>
    split at hok
    · cases hok
    · unfold applyExecutablesToPolicy at hok
      cases hrules : wp.rulesByContainer.lookup containerName with
      | none => simp [hrules] at hok
      | some rules =>
        cases hchanged : (action.apply rules.allowed executables).2 with
        | false => simp [hrules, hchanged] at hok
        | true =>
          simp only [hrules, hchanged, if_true, Except.ok.injEq, Prod.mk.injEq, and_true] at hok
          subst hok
          cases h
          exact .exec hrules

theorem runPolicyAck_planned {id : ViolationID} {flag : Option String} {stdin : String}
    (h : runPolicyAck id.val flag stdin wp = .update edit) :
    Planned wp (.ack id flag stdin) edit.policy := by
  unfold runPolicyAck findViolationByID at h
  cases hfind : wp.status.violations.find? fun v => v.id = id.val with
  | none => simp [hfind] at h
  | some v =>
    cases hreason : resolveAckReason flag stdin with
    | error e => simp [hfind, hreason] at h
    | ok reason =>
      simp only [hfind, hreason, applyAckAnnotation] at h
      split at h
      · cases h
      · next heq =>
        split at heq
        · cases heq
        · cases heq
          cases h
          exact .ack ⟨v, List.mem_of_find?_eq_some hfind, by simpa using List.find?_some hfind⟩
            hreason

theorem runPolicyModeSet_planned {mode : Mode} (h : runPolicyModeSet mode wp = .update edit) :
    Planned wp (.setMode mode) edit.policy := by
  unfold runPolicyModeSet at h
  split at h
  · cases h
  · cases h
    exact .setMode

theorem Command.planned (h : c.plan wp = .update edit) : Planned wp c edit.policy := by
  cases c with
  | exec action containerName executables missing => exact runPolicyExec_planned h
  | ack id flag stdin => exact runPolicyAck_planned h
  | setMode mode => exact runPolicyModeSet_planned h

theorem Planned.onSpec (h : Planned wp c wp') :
    wp'.toWorkloadPolicy = c.onSpec wp.toWorkloadPolicy := by
  cases h with
  | exec hrules => simp only [Command.onSpec, hrules]
  | ack hid hreason => rfl
  | setMode => rfl

theorem Planned.status (h : Planned wp c wp') :
    wp'.status = wp.status ∧ wp'.toObjectMeta = wp.toObjectMeta := by
  cases h <;> exact ⟨rfl, rfl⟩

end

/-! ## What the commands report -/

variable {wp : Api.WorkloadPolicy}

/-- Whether the line says that the policy was changed. -/
def Line.written : Line → Bool
  | .updated | .modeSet _ | .acknowledged _ => true
  | _ => false

/-- The command, if it has said so and was no dry run. -/
def success : Command × Bool × Except CommandErr (List Line) → Option Command
  | (c, false, .ok lines) => if lines.any Line.written then some c else none
  | _ => none

def succeeded (results : List (Command × Bool × Except CommandErr (List Line))) : List Command :=
  results.filterMap success

/-- The commands whose writes were carried out. -/
def carriedOut (log : List Commit) : List Command :=
  log.filterMap fun c =>
    match c.edit with
    | .command cmd => some cmd
    | .replace .. => none

theorem Command.unchanged_written {line : Line} (h : c.plan wp = .unchanged line) :
    line.written = false := by
  cases c with
  | exec action containerName executables missing =>
    simp only [Command.plan, runPolicyExec] at h
    split at h
    · cases h
    · cases h
      rfl
    · cases h
  | ack id flag stdin =>
    simp only [Command.plan, runPolicyAck] at h
    split at h
    · cases h
    · split at h
      · cases h
      · split at h
        · cases h
          rfl
        · cases h
  | setMode mode =>
    simp only [Command.plan, runPolicyModeSet] at h
    split at h
    · cases h
      rfl
    · cases h

section

variable {results : List (Command × Bool × Except CommandErr (List Line))} {c : Command}

theorem succeeded_push_none {r : Command × Bool × Except CommandErr (List Line)}
    (h : success r = none) : succeeded (results ++ [r]) = succeeded results := by
  simp [succeeded, h]

theorem succeeded_push (result : Except CommandErr (List Line)) :
    succeeded (results ++ [(c, false, result)]) = succeeded results ∨
      succeeded (results ++ [(c, false, result)]) = succeeded results ++ [c] := by
  cases result with
  | error e => exact .inl (succeeded_push_none rfl)
  | ok lines =>
    cases h : lines.any Line.written with
    | false =>
      exact .inl (succeeded_push_none (by rw [success, h]; exact if_neg Bool.false_ne_true))
    | true =>
      have hsuccess : success (c, false, .ok lines) = some c := by
        rw [success, h]
        exact if_pos rfl
      exact .inr (by simp [succeeded, hsuccess])

end

theorem success_error (c : Command) (dryRun : Bool) (e : CommandErr) :
    success (c, dryRun, .error e) = none := by
  cases dryRun <;> rfl

theorem success_unchanged (c : Command) (dryRun : Bool) {line : Line}
    (h : line.written = false) : success (c, dryRun, .ok [line]) = none := by
  cases dryRun <;> simp [success, h]

theorem Edit.report_error (e : Edit) (dryRun : Bool) (err : WriteErr) :
    ∃ msg, e.report dryRun (some err) = .error msg := by
  cases err <;> exact ⟨_, rfl⟩

/-! ## What a step can do -/

variable {p : Pending} {s : PolicyRun}

variable {ν : Type}

/-- The command holds its edit of a version that is or was stored. -/
def Reads (s : PolicyRun) (p : Pending) : Prop :=
  ∃ lag base, s.history[lag]? = some base ∧ p.version = s.history.length - lag ∧
    p.command.plan base = .update p.edit

/-- The edit that a command's `Update` asks for. -/
def Pending.op (p : Pending) (generation : Int) : PolicyOp :=
  .edit p.edit.policy.mode p.edit.policy.rulesByContainer generation p.edit.policy.annotations

inductive Move (s : CommandRun ν) : CommandOp ν → CommandRun ν → Prop
  | rest {op : CommandOp ν} {pending : ν → Option Pending}
      {results : List (Command × Bool × Except CommandErr (List Line))}
      (h : ∀ who p, pending who = some p → s.pending who = some p ∨ Reads s.run p)
      (hres : succeeded results = succeeded s.results) :
      Move s op { s with pending, results }
  | write {op : CommandOp ν} {who : ν} {p : Pending} (hp : s.pending who = some p)
      (hver : p.version = s.run.history.length) (generation : Int)
      {pending : ν → Option Pending}
      {results : List (Command × Bool × Except CommandErr (List Line))}
      (h : ∀ who p, pending who = some p → s.pending who = some p)
      (hres : succeeded results = succeeded s.results ∨
        succeeded results = succeeded s.results ++ [p.command]) :
      Move s op
        { s.commit (.command p.command) (s.run.step (p.op generation)) with pending, results }
  | replace (mode : Mode) (rulesByContainer : GoMap ContainerName WorkloadPolicyRules)
      (generation : Int) (annotations : GoMap String String) :
      Move s (.policy (.edit mode rulesByContainer generation annotations))
        (s.commit (.replace mode rulesByContainer)
          (s.run.step (.edit mode rulesByContainer generation annotations)))
  | controller {op : PolicyOp} (hop : op.byUser = false) :
      Move s (.policy op) { s with run := s.run.step op }

section

variable [DecidableEq ν]

theorem of_update_none {pending : ν → Option Pending} {who who' : ν}
    (h : Function.update pending who none who' = some p) : pending who' = some p := by
  by_cases hw : who' = who
  · subst hw
    simp at h
  · simpa [hw] using h

theorem Move.finish (s : CommandRun ν) {op : CommandOp ν} (who : ν) {dryRun : Bool}
    {result : Except CommandErr (List Line)}
    (hres : succeeded (s.results ++ [(c, dryRun, result)]) = succeeded s.results) :
    Move s op (s.finish who c dryRun result) :=
  .rest (fun _ _ h => .inl (of_update_none h)) hres

theorem Move.get (s : CommandRun ν) (who : ν) (c : Command) (dryRun : Bool) (lag : Option Nat) :
    Move s (.get who c dryRun lag) (s.stepGet who c dryRun lag) := by
  cases lag with
  | none => exact .finish s who (succeeded_push_none (success_error c dryRun _))
  | some lag =>
    cases hread : s.run.history[lag]? with
    | none =>
      simp only [CommandRun.stepGet, hread]
      exact .rest (fun _ _ h => .inl h) rfl
    | some base =>
      cases hplan : c.plan base with
      | refuse e =>
        simp only [CommandRun.stepGet, hread, hplan]
        exact .finish s who (succeeded_push_none (success_error c dryRun _))
      | unchanged line =>
        simp only [CommandRun.stepGet, hread, hplan]
        exact .finish s who
          (succeeded_push_none (success_unchanged c dryRun (Command.unchanged_written hplan)))
      | update edit =>
        simp only [CommandRun.stepGet, hread, hplan]
        refine .rest (fun who' p hp => ?_) rfl
        by_cases hw : who' = who
        · subst hw
          rw [Function.update_self] at hp
          cases hp
          exact .inr ⟨lag, base, hread, rfl, hplan⟩
        · rw [Function.update_of_ne hw] at hp
          exact .inl hp

theorem carryOut_eq_ok {generation : Int} {s' : PolicyRun}
    (h : CommandRun.carryOut p generation s = .ok s') (hdry : p.dryRun = false) :
    p.version = s.history.length ∧ s' = s.step (p.op generation) := by
  unfold CommandRun.carryOut at h
  split at h
  · cases h
  · next hver =>
    simp only [hdry, Bool.false_eq_true, if_false, Except.ok.injEq] at h
    exact ⟨Classical.not_not.mp hver, h.symm⟩

theorem Move.update (s : CommandRun ν) (who : ν) (generation : Int) (answer : Answer) :
    Move s (.update who generation answer) (s.stepUpdate who generation answer) := by
  cases hp : s.pending who with
  | none =>
    simp only [CommandRun.stepUpdate, hp]
    exact .rest (fun _ _ h => .inl h) rfl
  | some p =>
    simp only [CommandRun.stepUpdate, hp]
    rcases attempt_cases answer (CommandRun.carryOut p generation) s.run with
      ⟨run', e, hok, hatt⟩ | ⟨e, hatt⟩
    · rw [hatt]
      cases hdry : p.dryRun with
      | true => exact .finish s who (succeeded_push_none rfl)
      | false =>
        obtain ⟨hver, rfl⟩ := carryOut_eq_ok hok hdry
        exact .write hp hver generation (fun _ _ h => of_update_none h) (succeeded_push _)
    · rw [hatt]
      obtain ⟨msg, hmsg⟩ := p.edit.report_error p.dryRun e
      simp only [hmsg]
      exact .finish s who (succeeded_push_none (success_error p.command p.dryRun msg))

/-- **Every step is one of the moves.** -/
theorem CommandRun.move (op : CommandOp ν) (s : CommandRun ν) : Move s op (s.step op) := by
  cases op with
  | get who c dryRun lag => exact .get s who c dryRun lag
  | update who generation answer => exact .update s who generation answer
  | policy op =>
    cases op with
    | edit mode rules generation annotations => exact .replace mode rules generation annotations
    | list lag => exact .controller rfl
    | abort => exact .controller rfl
    | patchStatus i res => exact .controller rfl
    | patchMetadata res => exact .controller rfl

end

/-! ## The invariant -/

/-- The write replaced one version by the next, and a command's write is its edit of the version it
replaced. -/
structure Applies (history : List Api.WorkloadPolicy) (c : Commit) : Prop where
  adjacent : ∃ newer older, history = newer ++ c.after :: c.before :: older
  plan : ∀ cmd, c.edit = .command cmd → ∃ edit, cmd.plan c.before = .update edit ∧
    c.after = { edit.policy with generation := c.after.generation }

structure Serial (wp : Api.WorkloadPolicy) (s : CommandRun ν) : Prop where
  headed : s.run.Headed
  reads : ∀ who p, s.pending who = some p → Reads s.run p
  applies : ∀ c ∈ s.log, Applies s.run.history c
  spec : s.run.stored.toWorkloadPolicy =
    s.log.foldl (fun spec c => c.edit.onSpec spec) wp.toWorkloadPolicy
  reported : (succeeded s.results).Sublist (carriedOut s.log)

theorem Serial.start (wp : Api.WorkloadPolicy) :
    Serial wp (CommandRun.start wp : CommandRun ν) where
  headed := ⟨[], rfl⟩
  reads := fun _ _ h => nomatch h
  applies := fun _ h => nomatch h
  spec := rfl
  reported := List.Sublist.refl []

theorem Reads.step (h : Reads s p) (op : PolicyOp) : Reads (s.step op) p := by
  obtain ⟨lag, base, hbase, hver, hplan⟩ := h
  rcases PolicyRun.history_step op s with ⟨hhist, -⟩ | hhist
  · rw [Reads, hhist]
    exact ⟨lag, base, hbase, hver, hplan⟩
  · rw [Reads, hhist]
    exact ⟨lag + 1, base, hbase, by rw [hver, List.length_cons, Nat.add_sub_add_right], hplan⟩

/-- **Optimistic concurrency.** What is written with the version that is stored was worked out from
the policy that is stored. -/
theorem Reads.current (h : Reads s p) (hs : s.Headed) (hver : p.version = s.history.length) :
    p.command.plan s.stored = .update p.edit := by
  obtain ⟨lag, base, hbase, hlag, hplan⟩ := h
  obtain ⟨older, hhist⟩ := hs
  have hlt : lag < s.history.length := (List.getElem?_eq_some_iff.mp hbase).1
  have hzero : lag = 0 := by omega
  subst hzero
  rw [hhist] at hbase
  cases hbase
  exact hplan

theorem Applies.step {c : Commit} (h : Applies s.history c) (op : PolicyOp) :
    Applies (s.step op).history c := by
  obtain ⟨newer, older, hadj⟩ := h.adjacent
  refine ⟨?_, h.plan⟩
  rcases PolicyRun.history_step op s with ⟨hhist, -⟩ | hhist
  · exact ⟨newer, older, by rw [hhist, hadj]⟩
  · exact ⟨(s.step op).stored :: newer, older, by rw [hhist, hadj]; rfl⟩

theorem Serial.commit {s : CommandRun ν} (h : Serial wp s) {edit : SpecEdit} {mode : Mode}
    {rules : GoMap ContainerName WorkloadPolicyRules} {generation : Int}
    {annotations : GoMap String String}
    (hspec : ({ s.run.stored with mode, rulesByContainer := rules } :
      Api.WorkloadPolicy).toWorkloadPolicy = edit.onSpec s.run.stored.toWorkloadPolicy)
    (hplan : ∀ cmd, edit = .command cmd → ∃ e, cmd.plan s.run.stored = .update e ∧
      ({ s.run.stored with mode, rulesByContainer := rules, generation, annotations } :
        Api.WorkloadPolicy) = { e.policy with generation }) {pending : ν → Option Pending}
    {results : List (Command × Bool × Except CommandErr (List Line))}
    (hpending : ∀ who p, pending who = some p → s.pending who = some p)
    (hres : (succeeded results).Sublist
      (carriedOut (s.log ++ [⟨edit, s.run.stored, s.run.stored⟩]))) :
    Serial wp { s.commit edit (s.run.step (.edit mode rules generation annotations)) with
      pending, results } where
  headed := h.headed.step _
  reads := fun who p hp => (h.reads who p (hpending who p hp)).step _
  applies := by
    intro c hc
    rcases List.mem_append.mp hc with hold | hnew
    · exact (h.applies c hold).step _
    · obtain rfl := List.mem_singleton.mp hnew
      obtain ⟨older, hhist⟩ := h.headed
      refine ⟨⟨[], older, ?_⟩, hplan⟩
      show _ :: s.run.history = _
      rw [hhist]
      rfl
  spec := by
    show _ = (s.log ++ [_]).foldl _ _
    rw [List.foldl_concat, ← h.spec, ← hspec]
    rfl
  reported := by
    rw [carriedOut, List.filterMap_append] at hres
    show List.Sublist _ (carriedOut (s.log ++ [_]))
    rw [carriedOut, List.filterMap_append]
    exact hres

theorem Serial.step [DecidableEq ν] {s : CommandRun ν} (h : Serial wp s) (op : CommandOp ν) :
    Serial wp (s.step op) := by
  have hmove := CommandRun.move op s
  generalize s.step op = s' at hmove
  cases hmove with
  | rest hpending hres =>
    refine ⟨h.headed, ?_, h.applies, h.spec, hres ▸ h.reported⟩
    intro who p hp
    rcases hpending who p hp with hold | hread
    · exact h.reads who p hold
    · exact hread
  | @write _ who p hp hver generation pending results hpending hres =>
    -- the copy that was edited is the policy that is stored
    have hcur := (h.reads who p hp).current h.headed hver
    have hplanned := Command.planned hcur
    refine h.commit ?_ ?_ hpending ?_
    · rw [SpecEdit.onSpec, ← hplanned.onSpec]
      have hmeta := hplanned.status.2
      show RuntimeEnforcer.WorkloadPolicy.mk _ _ _ = _
      rw [← hmeta]
    · intro cmd hcmd
      cases hcmd
      refine ⟨p.edit, hcur, ?_⟩
      obtain ⟨hstatus, hmeta⟩ := hplanned.status
      show Api.WorkloadPolicy.mk (RuntimeEnforcer.WorkloadPolicy.mk _ _ _) _ _ _ = _
      rw [← hstatus, ← hmeta]
    · rw [carriedOut, List.filterMap_append]
      rcases hres with hres | hres
      · rw [hres]
        exact h.reported.trans (List.sublist_append_left _ _)
      · rw [hres]
        exact h.reported.append (List.Sublist.refl [p.command])
  | replace mode rules generation annotations =>
    refine h.commit rfl ?_ (fun _ _ hp => hp) ?_
    · intro cmd hcmd
      cases hcmd
    · rw [carriedOut, List.filterMap_append]
      exact h.reported.trans (List.sublist_append_left _ _)
  | controller hop =>
    refine ⟨h.headed.step _, fun who p hp => (h.reads who p hp).step _,
      fun c hc => (h.applies c hc).step _, ?_, h.reported⟩
    show _ = s.log.foldl _ _
    rw [PolicyRun.spec_step hop, h.spec]

theorem Serial.run [DecidableEq ν] (wp : Api.WorkloadPolicy) (ops : List (CommandOp ν)) :
    Serial wp (Lib.run CommandRun.step ops (.start wp)) :=
  run_inv (C := fun _ _ => True) (fun _ op h _ => h.step op) (.start wp)
    (along_of_forall (D := fun _ => True) fun _ _ => trivial)

/-- **Commands take effect one after the other.** Every write of a user has replaced the version
before it by its edit of that version; the spec is what the writes make of the first spec in the
order they were carried out, and a command that says so has been carried out. -/
theorem commands_serialize [DecidableEq ν] (wp : Api.WorkloadPolicy) (ops : List (CommandOp ν)) :
    let s := Lib.run CommandRun.step ops (.start wp)
    (∀ c ∈ s.log, Applies s.run.history c) ∧
      s.run.stored.toWorkloadPolicy =
        s.log.foldl (fun spec c => c.edit.onSpec spec) wp.toWorkloadPolicy ∧
      (succeeded s.results).Sublist (carriedOut s.log) := by
  intro s
  have h : Serial wp s := Serial.run wp ops
  exact ⟨h.applies, h.spec, h.reported⟩

/-! ## The last word on an executable -/

/-- Whether the rules of a container list an executable. -/
def lists (rulesByContainer : GoMap ContainerName WorkloadPolicyRules)
    (containerName : ContainerName) (x : Bytes) : Bool :=
  match rulesByContainer.lookup containerName with
  | none => false
  | some rules => decide (x ∈ rules.allowed)

/-- What a write says about an executable of a container, if it says anything. -/
def SpecEdit.verdict (containerName : ContainerName) (x : Bytes) : SpecEdit → Option Bool
  | .command (.exec action name executables _) =>
    if name = containerName ∧ x ∈ executables then some (decide (action = .allow)) else none
  | .command _ => none
  | .replace _ rulesByContainer => some (lists rulesByContainer containerName x)

/-- What the last write that says anything says. -/
def lastVerdict (containerName : ContainerName) (x : Bytes) (log : List Commit) : Option Bool :=
  log.foldl (fun last c => (c.edit.verdict containerName x).or last) none

theorem lastVerdict_push (containerName : ContainerName) (x : Bytes) (log : List Commit)
    (c : Commit) :
    lastVerdict containerName x (log ++ [c]) =
      (c.edit.verdict containerName x).or (lastVerdict containerName x log) := by
  rw [lastVerdict, List.foldl_concat]
  rfl

theorem mem_apply {action : PolicyExecAction} :
    decide (x ∈ (action.apply allowed executables).1) =
      if x ∈ executables then decide (action = .allow) else decide (x ∈ allowed) := by
  cases action with
  | allow =>
    simp only [PolicyExecAction.apply, mem_allowExecutables]
    by_cases hx : x ∈ executables <;> simp [hx]
  | deny =>
    simp only [PolicyExecAction.apply, mem_denyExecutables]
    by_cases hx : x ∈ executables <;> simp [hx]

theorem Planned.lists (h : Planned wp c wp') (containerName : ContainerName) (x : Bytes) :
    Kubectlplugin.lists wp'.rulesByContainer containerName x =
      ((SpecEdit.command c).verdict containerName x).getD
        (Kubectlplugin.lists wp.rulesByContainer containerName x) := by
  cases h with
  | @exec action name executables missing rules hrules =>
    simp only [Kubectlplugin.lists, SpecEdit.verdict, GoMap.lookup_insert_eq]
    by_cases hname : containerName = name
    · subst hname
      simp only [if_true, true_and, hrules, mem_apply]
      by_cases hx : x ∈ executables <;> simp [hx]
    · simp [hname, Ne.symm hname]
  | ack hid hreason => rfl
  | setMode => rfl

/-- The policy lists what the last write says it does. -/
def Judged (wp : Api.WorkloadPolicy) (s : CommandRun ν) : Prop :=
  ∀ containerName x, lists s.run.stored.rulesByContainer containerName x =
    (lastVerdict containerName x s.log).getD (lists wp.rulesByContainer containerName x)

theorem Judged.step [DecidableEq ν] {s : CommandRun ν} (hserial : Serial wp s) (h : Judged wp s)
    (op : CommandOp ν) : Judged wp (s.step op) := by
  have hmove := CommandRun.move op s
  generalize s.step op = s' at hmove
  intro containerName x
  cases hmove with
  | rest hpending hres => exact h containerName x
  | @write _ who p hp hver generation pending results hpending hres =>
    have hcur := (hserial.reads who p hp).current hserial.headed hver
    have hlists := (Command.planned hcur).lists containerName x
    show Kubectlplugin.lists p.edit.policy.rulesByContainer containerName x =
      (lastVerdict containerName x (s.log ++ [_])).getD _
    rw [lastVerdict_push, hlists, h containerName x]
    cases (SpecEdit.command p.command).verdict containerName x <;> rfl
  | replace mode rules generation annotations =>
    show Kubectlplugin.lists rules containerName x =
      (lastVerdict containerName x (s.log ++ [_])).getD _
    rw [lastVerdict_push]
    rfl
  | @controller op hop =>
    have hspec := PolicyRun.spec_step hop s.run
    have hrules : (s.run.step op).stored.rulesByContainer = s.run.stored.rulesByContainer :=
      congrArg RuntimeEnforcer.WorkloadPolicy.rulesByContainer hspec
    show Kubectlplugin.lists (s.run.step op).stored.rulesByContainer containerName x = _
    rw [hrules]
    exact h containerName x

/-- **The last word.** However commands, other edits and the controller interleave, an executable is
allowed in a container if and only if the last write that was carried out and names it allows it;
and one that no write names is allowed if it was so in the beginning. -/
theorem listed_iff_last_verdict [DecidableEq ν] (wp : Api.WorkloadPolicy)
    (ops : List (CommandOp ν)) (containerName : ContainerName) (x : Bytes) :
    let s := Lib.run CommandRun.step ops (.start wp)
    lists s.run.stored.rulesByContainer containerName x =
      (lastVerdict containerName x s.log).getD (lists wp.rulesByContainer containerName x) := by
  have hrun : Serial wp (Lib.run CommandRun.step ops (.start wp)) ∧
      Judged wp (Lib.run CommandRun.step ops (.start wp)) := by
    refine run_inv (I := fun s => Serial wp s ∧ Judged wp s) (C := fun _ _ => True) ?_
      ⟨.start wp, fun _ _ => rfl⟩ (along_of_forall (D := fun _ => True) fun _ _ => trivial)
    intro s op h _
    exact ⟨h.1.step op, Judged.step h.1 h.2 op⟩
  exact hrun.2 containerName x

end RuntimeEnforcer.Kubectlplugin
