import RuntimeEnforcer.Proof.Accounting
import RuntimeEnforcer.Proof.Commands
import RuntimeEnforcer.Proof.LeftOver

/-!
# From `ack` to the acknowledged violations

The plugin asks for an acknowledgement with an annotation whose key ends in the id of the violation,
and the controller reads the id back from the key. Many keys read as one id (`007`, `+7`), and of
two such requests the one that the loop over the annotations comes to last wins. The plugin only
writes keys that it would write again for the id they read as, so as long as nobody writes requests
by other means there is one key for each violation, and the loop's order does not matter.

The chain from a command to an acknowledgement has three links. A command that is carried out puts
its request, with its reason, into the version it writes (`Applies.request`). No version has a
request that was put there by anything else (`Asked`): edits keep what is stored, the patches of the
controller only take away, and a command's write is its edit of the version it replaces. And a turn
of the controller acknowledges the live violations that its version has a request for, with the
reason of the request, and each of them once, since no version has two records of one key
(`Tabulated`). `acknowledgements_exact` puts them together, for a turn on any version of any run.
-/

set_option autoImplicit false

namespace RuntimeEnforcer.Api

open Lib

/-! ## Numbers read back -/

theorem foldlM_digits {ds : List Char} (h : ∀ c ∈ ds, c.isDigit = true) (n : Nat) :
    ds.foldlM (fun n c => if c.isDigit then some (10 * n + (c.toNat - 48)) else none) n =
      some (Nat.ofDigitChars 10 ds n) := by
  induction ds generalizing n with
  | nil => rfl
  | cons c ds ih =>
    rw [List.foldlM_cons, if_pos (h c (by simp))]
    exact ih (fun c hc => h c (by simp [hc])) _

theorem isDigit_toDigits (n : Nat) : ∀ c ∈ Nat.toDigits 10 n, c.isDigit = true := by
  intro c hc
  exact Nat.isDigit_of_mem_toDigits (by decide) (by decide) hc

theorem parseDigits_toDigits (n : Nat) : parseDigits (Nat.toDigits 10 n) = some n := by
  rw [parseDigits, if_neg Nat.toDigits_ne_nil, foldlM_digits (isDigit_toDigits n),
    Nat.ofDigitChars_toDigits (by decide) (by decide)]

theorem parseInt_of_digits {ds : List Char} (h : ∀ c ∈ ds, c.isDigit = true) :
    parseInt ds = (parseDigits ds).bind fun n => if n < 2 ^ 63 then some (n : Int) else none := by
  unfold parseInt
  split
  · exact absurd (h '-' (by simp)) (by decide)
  · exact absurd (h '+' (by simp)) (by decide)
  · rfl

theorem parseInt_toString {n : Int} (h : -2 ^ 63 ≤ n ∧ n < 2 ^ 63) :
    parseInt (toString n).toList = some n := by
  obtain ⟨hlow, hhigh⟩ := h
  cases n with
  | ofNat n =>
    have hlt : n < 2 ^ 63 := by
      have : ((n : Int)) < 2 ^ 63 := hhigh
      omega
    have hdigits : (toString (Int.ofNat n)).toList = Nat.toDigits 10 n := by
      show (Nat.repr n).toList = _
      simp [Nat.repr]
    rw [hdigits, parseInt_of_digits (isDigit_toDigits n), parseDigits_toDigits]
    simp only [Option.bind_some, if_pos hlt]
    rfl
  | negSucc n =>
    have hle : n + 1 ≤ 2 ^ 63 := by
      have : (-2 ^ 63 : Int) ≤ Int.negSucc n := hlow
      omega
    have hdigits : (toString (Int.negSucc n)).toList = '-' :: Nat.toDigits 10 (n + 1) := by
      show ("-" ++ Nat.repr (n + 1)).toList = _
      simp [Nat.repr]
    rw [hdigits, parseInt, parseDigits_toDigits]
    simp only [Option.bind_some, if_pos hle]
    rfl

end RuntimeEnforcer.Api

namespace RuntimeEnforcer.Kubectlplugin

open Lib
open Api

/-- **The key reads as the id it was made from.** -/
theorem acknowledgedID_annotationKey (id : ViolationID) :
    acknowledgedID (violationAcknowledgeAnnotationKey id.val) = some id.val := by
  have hkey : (violationAcknowledgeAnnotationKey id.val).toList =
      violationAcknowledgePrefix.toList ++ (toString id.val).toList := String.toList_append
  have hprefix : violationAcknowledgePrefix.toList.isPrefixOf
      (violationAcknowledgeAnnotationKey id.val).toList = true := by
    rw [hkey]
    exact List.isPrefixOf_iff_prefix.mpr (List.prefix_append _ _)
  rw [acknowledgedID, if_pos hprefix, hkey, ← String.length_toList, List.drop_left,
    parseInt_toString id.2]

/-! ## One key for each violation -/

variable {wp : Api.WorkloadPolicy}

/-- Every request has the key that the plugin writes for its id. -/
def CanonicalKeys (annotations : GoMap String String) : Prop :=
  ∀ key ∈ annotations, ∀ id, acknowledgedID key = some id →
    key = violationAcknowledgeAnnotationKey id

theorem CanonicalKeys.lookup_requests (h : CanonicalKeys wp.annotations)
    (order : Order String String) (id : ViolationID) :
    ((wp.requests order).lookup id.val).map AnnotationInfo.reason =
      wp.annotations.lookup (violationAcknowledgeAnnotationKey id.val) := by
  cases hreq : (wp.requests order).lookup id.val with
  | some info =>
    obtain ⟨hmem, hinfoID⟩ := acknowledges_spec hreq
    have hlookup := (order.mem_range 0).mp hmem
    have hkey := h info.annotationKey (AList.lookup_isSome.mp (by simp [hlookup])) id.val hinfoID
    rw [← hkey, hlookup]
    rfl
  | none =>
    cases hann : wp.annotations.lookup (violationAcknowledgeAnnotationKey id.val) with
    | none => rfl
    | some reason =>
      have hmem := (order.mem_range 0).mpr hann
      have hsome := acknowledges_isSome hmem (acknowledgedID_annotationKey id)
      rw [show acknowledges (order.range 0 wp.annotations) = wp.requests order from rfl,
        hreq] at hsome
      cases hsome

/-! ## Where the requests come from -/

variable {reason : String}

/-- An `ack` for the violation was carried out, and `reason` is what it was given. -/
def Commanded (log : List Commit) (id : Int) (reason : String) : Prop :=
  ∃ c ∈ log, ∃ (violationID : ViolationID) (flag : Option String) (stdin : String),
    c.edit = .command (.ack violationID flag stdin) ∧ violationID.val = id ∧
      resolveAckReason flag stdin = .ok reason

/-- Every request was written by a command: it has the command's key and its reason. -/
def Asked (log : List Commit) (annotations : GoMap String String) : Prop :=
  ∀ key reason, annotations.lookup key = some reason → ∀ id, acknowledgedID key = some id →
    key = violationAcknowledgeAnnotationKey id ∧ Commanded log id reason

section Asked

variable {log log' : List Commit} {annotations annotations' : GoMap String String}

theorem Asked.canonicalKeys (h : Asked log annotations) : CanonicalKeys annotations := by
  intro key hkey id hid
  obtain ⟨reason, hreason⟩ := Option.isSome_iff_exists.mp (AList.lookup_isSome.mpr hkey)
  exact (h key reason hreason id hid).1

theorem Commanded.mono {id : Int} (h : Commanded log id reason) (hlog : ∀ c ∈ log, c ∈ log') :
    Commanded log' id reason := by
  obtain ⟨c, hc, hrest⟩ := h
  exact ⟨c, hlog c hc, hrest⟩

theorem Asked.mono (h : Asked log annotations) (hlog : ∀ c ∈ log, c ∈ log')
    (hsub : ∀ key reason, annotations'.lookup key = some reason → acknowledgedID key ≠ none →
      annotations.lookup key = some reason) : Asked log' annotations' := by
  intro key reason hreason id hid
  obtain ⟨hkey, hcommanded⟩ := h key reason (hsub key reason hreason (by simp [hid])) id hid
  exact ⟨hkey, hcommanded.mono hlog⟩

theorem Asked.insert (h : Asked log annotations) {c : Commit} (hc : c ∈ log) {id : ViolationID}
    {flag : Option String} {stdin : String} (hedit : c.edit = .command (.ack id flag stdin))
    (hreason : resolveAckReason flag stdin = .ok reason) :
    Asked log (annotations.insert (violationAcknowledgeAnnotationKey id.val) reason) := by
  intro key reason' hlookup id' hid'
  rw [GoMap.lookup_insert_eq] at hlookup
  split at hlookup
  · next hkey =>
    subst hkey
    rw [acknowledgedID_annotationKey id] at hid'
    obtain rfl := Option.some.inj hid'
    obtain rfl := Option.some.inj hlookup
    exact ⟨rfl, c, hc, id, flag, stdin, hedit, rfl, hreason⟩
  · exact h key reason' hlookup id' hid'

end Asked

/-! ## The records of a version -/

variable {acks : List AcknowledgedViolationRecord}

/-- An `int64`. -/
def InInt64 (n : Int) : Prop := -2 ^ 63 ≤ n ∧ n < 2 ^ 63

theorem InInt64.int64Succ {n : Int} (h : InInt64 n) : InInt64 (int64Succ n) := by
  unfold InInt64 Api.int64Succ at *
  split <;> omega

/-- The violations of a status have a key each, and ids that are `int64`s. Versions of a policy are
patched from versions that are behind, so more cannot be said of them. -/
structure Tabulated (s : WorkloadPolicyStatus) : Prop where
  keys : (s.violations.map ViolationRecord.key).Nodup
  ids : ∀ r ∈ s.violations, InInt64 r.id
  count : InInt64 s.violationCount

theorem inInt64_ledger :
    Ledger (fun _ _ r => InInt64 r.id) fun _ _ => True where
  created events v := by
    rw [ViolationRecord.firstSeen_id]
    unfold toInt64 InInt64
    constructor <;> unfold Int.bmod <;> dsimp only <;> split <;> omega
  again v h _ _ := h
  other v h _ := h

theorem Tabulated.mergeLoop {s : WorkloadPolicyStatus} (h : Tabulated s)
    (scraped : List ViolationRecord) :
    ((s.mergeLoop scraped).violations.map ViolationRecord.key).Nodup ∧
      (∀ r ∈ (s.mergeLoop scraped).violations, InInt64 r.id) ∧
      InInt64 (s.mergeLoop scraped).violationCount := by
  have hcount : ∀ batch, InInt64 (s.mergeLoop batch).violationCount := by
    intro batch
    rw [violationCount_mergeLoop]
    generalize batch.length = n
    induction n with
    | zero => exact h.count
    | succ n ih =>
      rw [Function.iterate_succ_apply']
      exact ih.int64Succ
  have hcands : Candidates (fun _ _ r => InInt64 r.id) [] s.violations scraped
      (s.mergeLoop scraped).violations := by
    refine candidates_mergeLoop inInt64_ledger h.keys (fun r hr => ⟨0, h.ids r hr⟩)
      (fun _ _ _ _ _ _ _ _ => trivial) fun seen v _ => ?_
    rw [ViolationRecord.firstSeen_id]
    exact hcount seen
  refine ⟨hcands.keys, fun r hr => ?_, hcount scraped⟩
  obtain ⟨-, hid⟩ := hcands.index hr
  exact hid

theorem Tabulated.live (h : Tabulated wp.status) (scraped : List ViolationRecord) :
    ((wp.live scraped).map ViolationRecord.key).Nodup ∧ ∀ v ∈ wp.live scraped, InInt64 v.id := by
  obtain ⟨hkeys, hids, -⟩ := h.mergeLoop scraped
  have hsub := wp.live_subperm scraped
  refine ⟨?_, fun v hv => hids v (hsub.subset hv)⟩
  obtain ⟨l, hperm, hsublist⟩ := hsub
  exact (hperm.map _).nodup_iff.mp (hkeys.sublist (hsublist.map _))

/-- What a status patch stores of the violations and of the counter is what was stored, or what was
computed: a patch names a list as a whole. -/
theorem Tabulated.patchStatus {newPolicy stored : Api.WorkloadPolicy} {order : Order String String}
    {scraped : List ViolationRecord} {now : Time} (hwp : Tabulated wp.status)
    (hstored : Tabulated stored.status) (hrec : Recomputed wp order scraped now newPolicy acks) :
    Tabulated (patchStatus wp newPolicy stored).status := by
  have hnew : Tabulated newPolicy.status := by
    obtain ⟨hkeys, hids⟩ := hwp.live scraped
    have hsub : newPolicy.status.violations.Sublist (wp.live scraped) := by
      rw [hrec.violations]
      exact List.filter_sublist
    refine ⟨hkeys.sublist (hsub.map _), fun r hr => hids r (hsub.subset hr), ?_⟩
    rw [hrec.count]
    exact (hwp.mergeLoop scraped).2.2
  have hround : ∀ {s : WorkloadPolicyStatus}, Tabulated s → Tabulated s.stored := by
    intro s hs
    refine ⟨?_, ?_, hs.count⟩
    · simpa [WorkloadPolicyStatus.stored, Function.comp_def] using hs.keys
    · intro r hr
      obtain ⟨r₀, hr₀, rfl⟩ := List.mem_map.mp hr
      exact hs.ids r₀ hr₀
  have hviol : (Api.patchStatus wp newPolicy stored).status.violations =
        stored.status.stored.violations ∨
      (Api.patchStatus wp newPolicy stored).status.violations =
        newPolicy.status.stored.violations := patchValue_cases _ _ _
  have hcount : (Api.patchStatus wp newPolicy stored).status.violationCount =
        stored.status.violationCount ∨
      (Api.patchStatus wp newPolicy stored).status.violationCount =
        newPolicy.status.violationCount := patchValue_cases _ _ _
  have hlist : ((Api.patchStatus wp newPolicy stored).status.violations.map
        ViolationRecord.key).Nodup ∧
      ∀ r ∈ (Api.patchStatus wp newPolicy stored).status.violations, InInt64 r.id := by
    rcases hviol with heq | heq
    · rw [heq]
      exact ⟨(hround hstored).keys, (hround hstored).ids⟩
    · rw [heq]
      exact ⟨(hround hnew).keys, (hround hnew).ids⟩
  refine ⟨hlist.1, hlist.2, ?_⟩
  rcases hcount with heq | heq
  · rw [heq]
    exact hstored.count
  · rw [heq]
    exact hnew.count

/-! ## Runs -/

/-- **The invariant**, of every version there has been. A turn works on one of them, and leaves of
its annotations what it has not met. -/
structure Answerable (log : List Commit) (s : PolicyRun) : Prop where
  asked : ∀ wp ∈ s.history, Asked log wp.annotations
  tabulated : ∀ wp ∈ s.history, Tabulated wp.status
  older : ∀ wp ∈ s.stored :: s.older, wp ∈ s.history
  base : ∀ wp ∈ s.turn.base, wp ∈ s.history
  patched : ∀ wp newPolicy, s.turn = .patched wp newPolicy → ∀ key reason,
    newPolicy.annotations.lookup key = some reason → wp.annotations.lookup key = some reason

namespace Answerable

variable {log log' : List Commit} {s : PolicyRun}

theorem start (hstatus : wp.status = {})
    (hnone : ∀ key ∈ wp.annotations, acknowledgedID key = none) :
    Answerable [] (.start wp) where
  asked := by
    intro wp' hwp' key reason hreason id hid
    obtain rfl := List.mem_singleton.mp hwp'
    have hkey : key ∈ wp'.annotations := AList.lookup_isSome.mp (by rw [hreason]; rfl)
    simp [hnone key hkey] at hid
  tabulated := by
    intro wp' hwp'
    obtain rfl := List.mem_singleton.mp hwp'
    rw [hstatus]
    exact ⟨List.nodup_nil, fun r hr => absurd hr List.not_mem_nil, by decide, by decide⟩
  older := fun _ h => h
  base wp' hwp' := by simp [PolicyRun.start, Turn.base] at hwp'
  patched wp' newPolicy hturn := by simp [PolicyRun.start] at hturn

variable (h : Answerable log s)

include h

theorem mono (hlog : ∀ c ∈ log, c ∈ log') : Answerable log' s :=
  { h with asked := fun wp hwp => (h.asked wp hwp).mono hlog fun _ _ hreason _ => hreason }

theorem write (hasked : Asked log wp.annotations) (htab : Tabulated wp.status) :
    Answerable log (s.write wp) where
  asked := by
    intro wp' hwp'
    rcases List.mem_cons.mp hwp' with rfl | hold
    · exact hasked
    · exact h.asked wp' hold
  tabulated := by
    intro wp' hwp'
    rcases List.mem_cons.mp hwp' with rfl | hold
    · exact htab
    · exact h.tabulated wp' hold
  older := by
    intro wp' hwp'
    rcases List.mem_cons.mp hwp' with rfl | hold
    · exact List.mem_cons_self
    · exact List.mem_cons_of_mem wp (h.older wp' hold)
  base := fun wp' hwp' => List.mem_cons_of_mem wp (h.base wp' hwp')
  patched := h.patched

theorem idle : Answerable log { s with turn := .idle, acks } where
  asked := h.asked
  tabulated := h.tabulated
  older := h.older
  base wp hwp := by simp [Turn.base] at hwp
  patched wp newPolicy hturn := by simp at hturn

theorem stored : Asked log s.stored.annotations ∧ Tabulated s.stored.status :=
  have hmem := h.older s.stored List.mem_cons_self
  ⟨h.asked _ hmem, h.tabulated _ hmem⟩

theorem patchStatus {i : TurnInput} {newPolicy : Api.WorkloadPolicy} (hturn : s.turn = .listed wp)
    (hrec : Recomputed wp i.order i.scrapedViolations i.now newPolicy acks) :
    Answerable log (s.write (Api.patchStatus wp newPolicy s.stored)) :=
  have hmem := h.base wp (by rw [hturn]; rfl)
  h.write h.stored.1 ((h.tabulated wp hmem).patchStatus h.stored.2 hrec)

omit h

/-- The edit of a step, if it is one, has no other requests. -/
def EditAsked (log : List Commit) : PolicyOp → Prop
  | .edit _ _ _ annotations => Asked log annotations
  | _ => True

theorem step (h : Answerable log s) {op : PolicyOp} (hop : EditAsked log op) :
    Answerable log (s.step op) := by
  have heffect := PolicyRun.effect op s
  generalize s.step op = s' at heffect
  cases heffect with
  | turn t ht =>
    rcases ht with rfl | rfl
    · exact h
    · exact h.idle
  | edit mode rules generation annotations => exact h.write hop h.stored.2
  | list lag hturn =>
    refine ⟨h.asked, h.tabulated, ?_, ?_, ?_⟩
    · intro wp hwp
      rcases List.mem_cons.mp hwp with rfl | hold
      · exact h.older _ List.mem_cons_self
      · exact h.older wp (List.mem_cons_of_mem _ (List.mem_of_mem_take hold))
    · intro wp hwp
      obtain rfl : s.read lag = wp := Option.some.inj hwp
      refine h.older _ ?_
      rw [PolicyRun.read, List.getD_eq_getElem?_getD]
      cases hget : (s.stored :: s.older)[s.behind lag]? with
      | none => exact List.mem_cons_self
      | some wp => exact List.mem_of_getElem? hget
    · intro wp newPolicy hpatched
      simp at hpatched
  | @status i wp newPolicy acknowledged hturn hrec =>
    have hwritten := h.patchStatus hturn hrec
    refine ⟨hwritten.asked, hwritten.tabulated, hwritten.older, ?_, ?_⟩
    · intro wp' hwp'
      exact hwritten.base wp' (by show wp' ∈ s.turn.base; rw [hturn]; exact hwp')
    · intro wp' newPolicy' hpatched key reason hreason
      obtain ⟨rfl, rfl⟩ := Turn.patched.inj hpatched
      rw [hrec.annotations] at hreason
      exact lookup_of_dropMet hreason
  | statusUnseen i res hturn hrec => exact (h.patchStatus hturn hrec).idle
  | @metadata res wp newPolicy hturn =>
    have hasked : Asked log (patchMetadata wp newPolicy s.stored).annotations := by
      intro key reason hreason
      rcases lookup_patchMetadata hreason with ⟨-, hstored⟩ | hnew
      · exact h.stored.1 key reason hstored
      · have hmem := h.base wp (by rw [hturn]; rfl)
        exact h.asked wp hmem key reason (h.patched wp newPolicy hturn key reason hnew)
    have htab : Tabulated (patchMetadata wp newPolicy s.stored).status := h.stored.2
    exact (h.write hasked htab).idle

end Answerable

variable {ν : Type}

/-- Nobody but the commands asks: the requests in an edit are stored already, with the reason they
have. -/
def OnlyCommandsAsk (s : CommandRun ν) : CommandOp ν → Prop
  | .policy (.edit _ _ _ annotations) => ∀ key reason, annotations.lookup key = some reason →
    acknowledgedID key ≠ none → s.run.stored.annotations.lookup key = some reason
  | _ => True

theorem Planned.asked {wp' : Api.WorkloadPolicy} {c : Command} (h : Planned wp c wp')
    {log : List Commit} (hwp : Asked log wp.annotations) {commit : Commit} (hcommit : commit ∈ log)
    (hedit : commit.edit = .command c) : Asked log wp'.annotations := by
  cases h with
  | exec hrules => exact hwp
  | ack hid hreason => exact hwp.insert hcommit hedit hreason
  | setMode => exact hwp

theorem Answerable.move [DecidableEq ν] {s : CommandRun ν} (hserial : Serial wp s)
    (h : Answerable s.log s.run) {op : CommandOp ν} (hop : OnlyCommandsAsk s op) :
    Answerable (s.step op).log (s.step op).run := by
  have hmove := CommandRun.move op s
  generalize s.step op = s' at hmove
  cases hmove with
  | rest hpending hres => exact h
  | @write _ who p hp hver generation pending results hpending hres =>
    -- the command's request is new, and the commit that accounts for it is the last of the log
    have hplanned := Command.planned ((hserial.reads who p hp).current hserial.headed hver)
    have hlonger : Answerable
        (s.log ++ [⟨.command p.command, s.run.stored, (s.run.step (p.op generation)).stored⟩])
        s.run := h.mono fun c hc => List.mem_append_left _ hc
    have hedit : EditAsked _ (p.op generation) := hplanned.asked hlonger.stored.1
      (List.mem_append_right _ (List.mem_singleton_self _)) rfl
    exact hlonger.step hedit
  | replace mode rules generation annotations =>
    have hlonger := h.mono fun c hc =>
      List.mem_append_left [⟨.replace mode rules, s.run.stored,
        (s.run.step (.edit mode rules generation annotations)).stored⟩] hc
    have hedit : EditAsked _ (.edit mode rules generation annotations) :=
      hlonger.stored.1.mono (fun _ hc => hc) hop
    exact hlonger.step hedit
  | @controller op hbyUser =>
    refine h.step ?_
    cases op with
    | edit => cases hbyUser
    | _ => trivial

theorem Answerable.run [DecidableEq ν] (hstatus : wp.status = {})
    (hnone : ∀ key ∈ wp.annotations, acknowledgedID key = none) {ops : List (CommandOp ν)}
    (honly : Along CommandRun.step OnlyCommandsAsk ops (.start wp)) :
    Answerable (Lib.run CommandRun.step ops (.start wp)).log
      (Lib.run CommandRun.step ops (.start wp)).run := by
  refine (run_inv (I := fun s => Serial wp s ∧ Answerable s.log s.run) ?_
    ⟨.start wp, .start hstatus hnone⟩ honly).2
  intro s op hs hop
  exact ⟨hs.1.step op, Answerable.move hs.1 hs.2 hop⟩

/-! ## What a turn does with the requests -/

theorem Applies.request {history : List Api.WorkloadPolicy} {c : Commit} (h : Applies history c)
    {id : ViolationID} {flag : Option String} {stdin : String}
    (hedit : c.edit = .command (.ack id flag stdin)) :
    c.after ∈ history ∧ ∃ reason, resolveAckReason flag stdin = .ok reason ∧
      c.after.annotations.lookup (violationAcknowledgeAnnotationKey id.val) = some reason := by
  obtain ⟨newer, older, hadj⟩ := h.adjacent
  obtain ⟨edit, hplan, hafter⟩ := h.plan _ hedit
  refine ⟨by simp [hadj], ?_⟩
  have hplanned := Command.planned hplan
  generalize hpolicy : edit.policy = policy at hplanned
  cases hplanned with
  | @ack _ _ _ reason hid hreason =>
    refine ⟨reason, hreason, ?_⟩
    rw [hafter, hpolicy]
    exact AList.lookup_insert _

/-- The violation is acknowledged with the reason, once, and its request is gone. -/
structure AcknowledgedWith (newPolicy : Api.WorkloadPolicy)
    (acks : List AcknowledgedViolationRecord) (now : Time) (v : ViolationRecord)
    (reason : String) : Prop where
  once : acks.filter (fun a => a.violation = v) = [⟨v, reason, now⟩]
  notActive : v ∉ newPolicy.status.violations
  dropped : violationAcknowledgeAnnotationKey v.id ∉ newPolicy.annotations

section Turn

variable {read newPolicy : Api.WorkloadPolicy} {order : Order String String}
  {scraped : List ViolationRecord} {now : Time} {acks : List AcknowledgedViolationRecord}
  {v : ViolationRecord}

theorem filter_acknowledgeAs {requests : GoMap Int AnnotationInfo} {l : List ViolationRecord}
    (hnodup : l.Nodup) (hv : v ∈ l) {info : AnnotationInfo}
    (hreq : requests.lookup v.id = some info) :
    (l.filterMap (acknowledgeAs requests now)).filter (fun a => a.violation = v) =
      [⟨v, info.reason, now⟩] := by
  induction l with
  | nil => cases hv
  | cons w l ih =>
    obtain ⟨hw, hl⟩ := List.nodup_cons.mp hnodup
    rcases List.mem_cons.mp hv with rfl | hrest
    · -- the others are of other violations
      have hothers : (l.filterMap (acknowledgeAs requests now)).filter
          (fun a => a.violation = v) = [] := by
        refine List.filter_eq_nil_iff.mpr fun a ha => ?_
        obtain ⟨u, hu, hack⟩ := List.mem_filterMap.mp ha
        obtain ⟨_, -, rfl⟩ := Option.map_eq_some_iff.mp hack
        have hne : u ≠ v := fun heq => hw (heq ▸ hu)
        simpa using hne
      have hhead : acknowledgeAs requests now v = some ⟨v, info.reason, now⟩ := by
        rw [acknowledgeAs, hreq]
        rfl
      rw [List.filterMap_cons_some hhead, List.filter_cons, hothers]
      simp
    · have hne : w ≠ v := fun heq => hw (heq ▸ hrest)
      cases hack : acknowledgeAs requests now w with
      | none =>
        rw [List.filterMap_cons_none hack]
        exact ih hl hrest
      | some a =>
        obtain ⟨_, -, rfl⟩ := Option.map_eq_some_iff.mp hack
        rw [List.filterMap_cons_some hack, List.filter_cons]
        simp only [hne, decide_false, Bool.false_eq_true, if_false]
        exact ih hl hrest

variable (hrec : Recomputed read order scraped now newPolicy acks)

include hrec

theorem acknowledgedWith_of_request (hkeys : CanonicalKeys read.annotations)
    (htab : Tabulated read.status) (hv : v ∈ read.live scraped)
    (hreason : read.annotations.lookup (violationAcknowledgeAnnotationKey v.id) = some reason) :
    AcknowledgedWith newPolicy acks now v reason := by
  obtain ⟨hnodup, hids⟩ := htab.live scraped
  have hlookup := hkeys.lookup_requests order ⟨v.id, hids v hv⟩
  rw [hreason] at hlookup
  obtain ⟨info, hreq, rfl⟩ := Option.map_eq_some_iff.mp hlookup
  refine ⟨?_, ?_, ?_⟩
  · rw [hrec.acks]
    exact filter_acknowledgeAs hnodup.of_map hv hreq
  · rw [hrec.violations]
    intro hmem
    have hnone := (List.mem_filter.mp hmem).2
    rw [hreq] at hnone
    cases hnone
  · have hinfo := WorkloadPolicy.requests_spec hreq
    have hkey := hkeys info.annotationKey hinfo.1 v.id hinfo.2
    rw [hrec.annotations, ← hkey]
    exact not_mem_dropMet hv hreq

theorem kept_of_no_request (hkeys : CanonicalKeys read.annotations) (htab : Tabulated read.status)
    (hv : v ∈ read.live scraped)
    (hnone : read.annotations.lookup (violationAcknowledgeAnnotationKey v.id) = none) :
    v ∈ newPolicy.status.violations ∧ ∀ a ∈ acks, a.violation ≠ v := by
  have hlookup := hkeys.lookup_requests order ⟨v.id, (htab.live scraped).2 v hv⟩
  rw [hnone] at hlookup
  have hreq : (read.requests order).lookup v.id = none := Option.map_eq_none_iff.mp hlookup
  refine ⟨?_, ?_⟩
  · rw [hrec.violations]
    exact List.mem_filter.mpr ⟨hv, by rw [hreq]; rfl⟩
  · intro a ha heq
    rw [hrec.acks] at ha
    obtain ⟨w, -, hack⟩ := List.mem_filterMap.mp ha
    obtain ⟨info, hinfo, rfl⟩ := Option.map_eq_some_iff.mp hack
    subst heq
    rw [hreq] at hinfo
    cases hinfo

theorem commanded_of_mem {log : List Commit} (hasked : Asked log read.annotations)
    {a : AcknowledgedViolationRecord} (ha : a ∈ acks) :
    a.violation ∈ read.live scraped ∧ a.acknowledgedAt = now ∧
      Commanded log a.violation.id a.reason := by
  rw [hrec.acks] at ha
  obtain ⟨v, hv, hack⟩ := List.mem_filterMap.mp ha
  obtain ⟨info, hreq, rfl⟩ := Option.map_eq_some_iff.mp hack
  obtain ⟨hmem, hid⟩ := acknowledges_spec hreq
  exact ⟨hv, rfl, (hasked _ _ ((order.mem_range 0).mp hmem) v.id hid).2⟩

end Turn

namespace Sample

open Api.Sample (sealed turn ran)

/-- Two violations are reported. Two users acknowledge one each at the same time; the second comes
too late and tries again. -/
def acknowledging : List (CommandOp Bool) :=
  [.policy (.list 0), .policy (.patchStatus (turn [ran [1] 5, ran [2] 7]) .ok),
    .policy (.patchMetadata .ok),
    .get true (.ack ⟨0, by decide⟩ (some " known ") "") false (some 0),
    .get false (.ack ⟨1, by decide⟩ none "harmless\r\n") false (some 0),
    .update true 1 .answered, .update false 1 .answered,
    .get false (.ack ⟨1, by decide⟩ none "harmless\r\n") false (some 0),
    .update false 1 .answered]

example : (Lib.run CommandRun.step acknowledging (.start sealed)).results.map (·.2.2.toBool) =
    [true, false, true] := by decide +kernel

end Sample

end RuntimeEnforcer.Kubectlplugin
