import RuntimeEnforcer.Proof.NodeStatus
import RuntimeEnforcer.Proof.StatusInvariant
import Mathlib.Algebra.BigOperators.Group.Finset.Basic
import Mathlib.Data.Fintype.Basic

/-!
# Where the violations of a policy are

A violation that an agent has recorded is in the agent's buffer, then in the sync that drained the
buffer, then counted in the status of its policy. `Conserved` says that the three add up to what was
recorded. A drain cannot be undone, and the sync keeps nothing from one round to the next: what it
cannot write it forgets. So the sum is kept by exactly the steps that `Loses` nothing: no answer of
an agent is lost that holds violations of the policy, no such answer comes to a sync that did not
list the policy, and no status patch for which there are violations is left undone.
-/

set_option autoImplicit false

namespace RuntimeEnforcer.Api

open Lib
open Violationbuf (maxBufferEntries scrapeViolations)

variable {ν : Type}

/-! ## The three places -/

/-- The names of the policies that a sync has still to process. -/
def Sync.names (sync : Sync ν) : List NamespacedPolicyName :=
  sync.items.map fun wp => wp.namespacedName

/-- What a sync holds and will process. -/
def Sync.held (sync : Sync ν) (k : NamespacedPolicyName) : Nat :=
  if k ∈ sync.names then (sync.violations k).length else 0

def Stage.held (k : NamespacedPolicyName) : Stage ν → Nat
  | .running sync => sync.held k
  | .patched sync _ _ => sync.held k
  | _ => 0

namespace Cluster

def bufferedAt (s : Cluster ν) (k : NamespacedPolicyName) (node : ν) : Nat :=
  (s.agents node).contents.countP fun r => r.policy = k

def buffered [Fintype ν] (s : Cluster ν) (k : NamespacedPolicyName) : Nat :=
  ∑ node, s.bufferedAt k node

def inFlight (s : Cluster ν) (k : NamespacedPolicyName) : Nat := s.stage.held k

def count? (s : Cluster ν) (k : NamespacedPolicyName) : Option Int :=
  (s.store.lookup k).map fun wp => wp.status.violationCount

/-- Every violation of the policy that was recorded is in one of the three places, once. -/
def Conserved [Fintype ν] (k : NamespacedPolicyName) (s : Cluster ν) : Prop :=
  (s.recorded.count k : Int) = s.buffered k + s.inFlight k + (s.count? k).getD 0

end Cluster

/-! ## The runs, and the steps that lose nothing -/

/-- An agent records violations of policies that exist, and no more than its buffer takes; the
policy is not deleted. -/
def Admissible (k : NamespacedPolicyName) (s : Cluster ν) : ClusterOp ν → Prop
  | .record node rec => (s.agents node).pos < maxBufferEntries ∧
      (rec.policy = k → k ∈ s.store ∧ s.recorded.count k + 1 < 2 ^ 63)
  | .delete name => name ≠ k
  | _ => True

/-- The step loses violations of the policy. -/
def Loses (k : NamespacedPolicyName) (s : Cluster ν) : ClusterOp ν → Prop
  | .scrape res => ∃ sync node clients, s.stage = .running sync ∧ sync.clients = node :: clients ∧
      s.bufferedAt k node ≠ 0 ∧ (res = .lost ∨ res = .delivered ∧ k ∉ sync.names)
  | .patchStatus _ _ res => ∃ sync wp items, s.stage = .running sync ∧ sync.clients = [] ∧
      sync.items = wp :: items ∧ wp.namespacedName = k ∧ res.applied = false ∧
        sync.violations k ≠ []
  | _ => False

/-! ## The invariant -/

/-- The listed policies have distinct names, and the policy was listed with the counter that is
stored. -/
structure ItemsOk (k : NamespacedPolicyName) (count : Option Int) (items : List WorkloadPolicy) :
    Prop where
  nodup : (items.map fun wp => wp.namespacedName).Nodup
  current : ∀ wp ∈ items, wp.namespacedName = k → count = some wp.status.violationCount

def StageOk (k : NamespacedPolicyName) (count : Option Int) : Stage ν → Prop
  | .idle => True
  | .listed items => ItemsOk k count items
  | .running sync => ItemsOk k count sync.items ∧ KnownCodes sync.nodeStatusByPolicy
  | .patched sync _ _ => ItemsOk k count sync.items ∧ KnownCodes sync.nodeStatusByPolicy

structure ClusterInv [Fintype ν] (k : NamespacedPolicyName) (s : Cluster ν) : Prop where
  named : ∀ name wp, s.store.lookup name = some wp → wp.namespacedName = name
  absent : s.store.lookup k = none → s.buffered k = 0 ∧ s.recorded.count k = 0
  stage : StageOk k (s.count? k) s.stage
  bounded : s.recorded.count k < 2 ^ 63

/-! ## Buffers -/

variable {s : Cluster ν} {node : ν}

section Buffers

variable [DecidableEq ν] [Fintype ν]

theorem sum_update (f g : ν → Nat) (node : ν) (h : ∀ n, n ≠ node → g n = f n) :
    (∑ n, g n) + f node = (∑ n, f n) + g node := by
  have hrest : ∑ n ∈ Finset.univ.erase node, g n = ∑ n ∈ Finset.univ.erase node, f n :=
    Finset.sum_congr rfl fun n hn => h n (Finset.ne_of_mem_erase hn)
  have hf := Finset.add_sum_erase Finset.univ f (Finset.mem_univ node)
  have hg := Finset.add_sum_erase Finset.univ g (Finset.mem_univ node)
  omega

theorem buffered_update (s s' : Cluster ν) (k : NamespacedPolicyName) (node : ν)
    (b : Violationbuf.Buffer)
    (hs' : s'.agents = Function.update s.agents node b) :
    s'.buffered k + s.bufferedAt k node =
      s.buffered k + b.contents.countP fun r => r.policy = k := by
  have hnode : s'.bufferedAt k node = b.contents.countP fun r => r.policy = k := by
    simp [Cluster.bufferedAt, hs']
  have hother : ∀ n, n ≠ node → s'.bufferedAt k n = s.bufferedAt k n := by
    intro n hn
    simp [Cluster.bufferedAt, hs', Function.update_of_ne hn]
  have hsum := sum_update (s.bufferedAt k) (s'.bufferedAt k) node hother
  rw [hnode] at hsum
  exact hsum

theorem buffered_record (rec : Violationbuf.ViolationRecord)
    (h : (s.agents node).pos < maxBufferEntries) (k : NamespacedPolicyName) :
    (s.step (.record node rec)).buffered k = s.buffered k + if rec.policy = k then 1 else 0 := by
  have hsum := buffered_update s (s.step (.record node rec)) k node
    ((s.agents node).record rec).2 rfl
  rw [Ring.contents_record_of_lt rec h, List.countP_cons] at hsum
  simp only [decide_eq_true_eq] at hsum
  unfold Cluster.bufferedAt at hsum
  omega

theorem buffered_drain {s' : Cluster ν} (k : NamespacedPolicyName)
    (hs' : s'.agents = Function.update s.agents node (scrapeViolations (s.agents node)).2) :
    s'.buffered k + s.bufferedAt k node = s.buffered k := by
  have hsum := buffered_update s s' k node _ hs'
  have hempty : (scrapeViolations (s.agents node)).2.contents = [] :=
    Ring.contents_drain (s.agents node)
  rw [hempty] at hsum
  exact hsum

end Buffers

theorem length_addScraped (m : GoMap NamespacedPolicyName (List ViolationRecord))
    (answer : List Violationbuf.ScrapedViolation) (k : NamespacedPolicyName) :
    (((addScraped m answer).lookup k).getD []).length =
      ((m.lookup k).getD []).length + answer.countP fun v => v.policyName = k := by
  rw [lookup_addScraped, List.length_append, List.length_map, List.countP_eq_length_filter]

theorem countP_answer (b : Violationbuf.Buffer) (k : NamespacedPolicyName) :
    ((scrapeViolations b).1.countP fun v => v.policyName = k) =
      b.contents.countP fun r => r.policy = k := by
  have hanswer : (scrapeViolations b).1 = b.contents.map Violationbuf.ViolationRecord.toProto := by
    show b.drain.1.map _ = _
    rw [Ring.drain_fst]
  rw [hanswer, List.countP_map]
  rfl

theorem held_addScraped (sync : Sync ν) (b : Violationbuf.Buffer) (k : NamespacedPolicyName) :
    Sync.held
        { sync with
          violationsByPolicy := addScraped sync.violationsByPolicy (scrapeViolations b).1 } k =
      sync.held k + if k ∈ sync.names then b.contents.countP (fun r => r.policy = k) else 0 := by
  have hlength := length_addScraped sync.violationsByPolicy (scrapeViolations b).1 k
  rw [countP_answer] at hlength
  show (if k ∈ sync.names then
    (((addScraped sync.violationsByPolicy (scrapeViolations b).1).lookup k).getD []).length
    else 0) = _
  rw [hlength, Sync.held, Sync.violations]
  split <;> rfl

/-! ## Stages -/

variable {k : NamespacedPolicyName} {count : Option Int} {sync : Sync ν} {stage : Stage ν}
  {wp : WorkloadPolicy} {items : List WorkloadPolicy}

theorem held_next (sync : Sync ν) (k : NamespacedPolicyName) : sync.next.held k = sync.held k := by
  unfold Sync.next
  split
  · next hempty =>
    have hnames : sync.names = [] := by simpa [Sync.names] using hempty
    simp [Stage.held, Sync.held, hnames]
  · rfl

theorem stageOk_next (h : ItemsOk k count sync.items)
    (hcodes : KnownCodes sync.nodeStatusByPolicy) :
    StageOk k count sync.next := by
  unfold Sync.next
  split
  · trivial
  · exact ⟨h, hcodes⟩

theorem StageOk.created (h : StageOk k none stage) (count : Option Int) :
    StageOk k count stage := by
  have hitems : ∀ {items}, ItemsOk k none items → ItemsOk k count items := by
    intro items hok
    refine ⟨hok.nodup, fun wp hwp hname => ?_⟩
    cases hok.current wp hwp hname
  cases stage with
  | idle => trivial
  | listed items => exact hitems h
  | running sync => exact ⟨hitems h.1, h.2⟩
  | patched sync wp newPolicy => exact ⟨hitems h.1, h.2⟩

theorem ItemsOk.tail (h : ItemsOk k count (wp :: items)) : ItemsOk k count items :=
  ⟨(List.nodup_cons.mp h.nodup).2, fun wp' hwp' => h.current wp' (List.mem_cons_of_mem wp hwp')⟩

theorem ItemsOk.not_mem_tail (h : ItemsOk k count (wp :: items)) :
    wp.namespacedName ∉ items.map fun wp => wp.namespacedName :=
  (List.nodup_cons.mp h.nodup).1

/-! ## Patches -/

variable {name : NamespacedPolicyName}

theorem Cluster.applyPatch_cases (s : Cluster ν) (name : NamespacedPolicyName) (res : PatchResult)
    (patch : WorkloadPolicy → WorkloadPolicy) :
    ((s.store.lookup name).isSome = true → res.applied = false) ∧ s.applyPatch name res patch = s ∨
      ∃ stored, s.store.lookup name = some stored ∧ res.applied = true ∧
        s.applyPatch name res patch = { s with store := s.store.insert name (patch stored) } := by
  unfold Cluster.applyPatch
  cases hlookup : s.store.lookup name with
  | none => exact .inl ⟨fun h => absurd h (by simp), rfl⟩
  | some stored =>
    cases happlied : res.applied with
    | false => exact .inl ⟨fun _ => rfl, rfl⟩
    | true => exact .inr ⟨stored, rfl, rfl, rfl⟩

theorem Cluster.count_replaced {stored : WorkloadPolicy}
    (hlookup : s.store.lookup name = some stored)
    (hcount : wp.status.violationCount = stored.status.violationCount) :
    ((s.store.insert name wp).lookup k).map (fun wp => wp.status.violationCount) = s.count? k := by
  rw [GoMap.lookup_insert_eq, Cluster.count?]
  split
  · next hk => rw [hk, hlookup, Option.map_some, Option.map_some, hcount]
  · rfl

theorem Cluster.process_eq (s : Cluster ν) (sync : Sync ν)
    (hcodes : KnownCodes sync.nodeStatusByPolicy) (wp : WorkloadPolicy)
    (order : Order String String) (now : Time) (res : PatchResult) :
    ∃ newPolicy acks stage,
      Recomputed wp order (sync.violations wp.namespacedName) now newPolicy acks ∧
      (∀ k, stage.held k = sync.held k) ∧
      (∀ k count, ItemsOk k count sync.items → StageOk k count stage) ∧
      s.process sync wp order now res =
        { s.applyPatch wp.namespacedName res (patchStatus wp newPolicy) with stage } := by
  obtain ⟨newPolicy, acks, hrec⟩ := recomputeStatus_succeeds wp order
    (sync.violations wp.namespacedName) now (hcodes wp.namespacedName)
  have hprocess : s.process sync wp order now res =
      { s.applyPatch wp.namespacedName res (patchStatus wp newPolicy) with
        stage := if s.succeeds wp.namespacedName res then .patched sync wp newPolicy
          else sync.next } := by
    simp only [Cluster.process, Sync.nodes, hrec]
  refine ⟨newPolicy, acks, _, recomputeStatus_ok hrec, ?_, ?_, hprocess⟩
  · intro k
    split
    · rfl
    · exact held_next sync k
  · intro k count hitems
    split
    · exact ⟨hitems, hcodes⟩
    · exact stageOk_next hitems hcodes

/-! ## Steps that move nothing -/

/-- A step that changes no buffer, and neither what is in flight nor the counter. -/
structure Unmoved [Fintype ν] (k : NamespacedPolicyName) (s s' : Cluster ν) : Prop where
  agents : s'.agents = s.agents
  recorded : s'.recorded = s.recorded
  named : ∀ name wp, s'.store.lookup name = some wp → wp.namespacedName = name
  absent : s'.store.lookup k = none → s.store.lookup k = none
  counted : (s'.count? k).getD 0 = (s.count? k).getD 0
  flight : s'.inFlight k = s.inFlight k
  stage : StageOk k (s'.count? k) s'.stage

section Unmoved

variable [Fintype ν] {k : NamespacedPolicyName} {s : Cluster ν}

theorem Unmoved.buffered {s' : Cluster ν} (h : Unmoved k s s') : s'.buffered k = s.buffered k := by
  simp only [Cluster.buffered, Cluster.bufferedAt, h.agents]

theorem Unmoved.ofStore {store : GoMap NamespacedPolicyName WorkloadPolicy}
    (hnamed : ∀ name wp, store.lookup name = some wp → wp.namespacedName = name)
    (hcount : (store.lookup k).map (fun wp => wp.status.violationCount) = s.count? k)
    (hheld : stage.held k = s.stage.held k) (hok : StageOk k (s.count? k) stage) :
    Unmoved k s { s with store, stage } where
  agents := rfl
  recorded := rfl
  named := hnamed
  absent := by
    intro hnone
    have hnone : store.lookup k = none := hnone
    rw [hnone] at hcount
    exact Option.map_eq_none_iff.mp hcount.symm
  counted := congrArg (fun c : Option Int => c.getD 0) hcount
  flight := hheld
  stage := by
    have hsame : Cluster.count? { s with store, stage } k = s.count? k := hcount
    rw [hsame]
    exact hok

variable (hinv : ClusterInv k s)

include hinv

theorem Unmoved.refl : Unmoved k s s :=
  ⟨rfl, rfl, hinv.named, id, rfl, rfl, hinv.stage⟩

theorem Unmoved.ofStage (hheld : stage.held k = s.stage.held k)
    (hok : StageOk k (s.count? k) stage) :
    Unmoved k s { s with stage } :=
  ⟨rfl, rfl, hinv.named, id, rfl, hheld, hok⟩

theorem named_insert (hname : wp.namespacedName = name) :
    ∀ name' wp', (s.store.insert name wp).lookup name' = some wp' → wp'.namespacedName = name' := by
  intro name' wp' hlookup
  rw [GoMap.lookup_insert_eq] at hlookup
  split at hlookup
  · next heq =>
    cases hlookup
    rw [heq]
    exact hname
  · exact hinv.named name' wp' hlookup

theorem itemsOk_list (order : Order NamespacedPolicyName WorkloadPolicy) :
    ItemsOk k (s.count? k) ((order.range 0 s.store).map Sigma.snd) := by
  have hentry : ∀ e ∈ order.range 0 s.store, s.store.lookup e.1 = some e.2 := by
    intro e he
    exact (order.mem_range 0).mp he
  constructor
  · have hnames : ((order.range 0 s.store).map Sigma.snd).map (fun wp => wp.namespacedName) =
        (order.range 0 s.store).map Sigma.fst := by
      rw [List.map_map]
      exact List.map_congr_left fun e he => hinv.named e.1 e.2 (hentry e he)
    rw [hnames]
    exact order.nodup_range 0 s.store
  · intro wp hwp hname
    obtain ⟨e, he, rfl⟩ := List.mem_map.mp hwp
    have hlookup := hentry e he
    rw [← hinv.named e.1 e.2 hlookup, hname] at hlookup
    rw [Cluster.count?, hlookup]
    rfl

theorem Unmoved.process (hstage : s.stage = .running sync) (hitems : sync.items = wp :: items)
    (hother : wp.namespacedName ≠ k) (order : Order String String) (now : Time)
    (res : PatchResult) : Unmoved k s (s.process { sync with items } wp order now res) := by
  have hok := hinv.stage
  rw [hstage] at hok
  obtain ⟨hlisted, hcodes⟩ := hok
  rw [hitems] at hlisted
  obtain ⟨newPolicy, acks, stage, _, hheld, hstageOk, hprocess⟩ :=
    s.process_eq { sync with items } hcodes wp order now res
  have hsame : stage.held k = s.stage.held k := by
    have hnames : k ∈ sync.names ↔ k ∈ Sync.names { sync with items } := by
      rw [Sync.names, hitems, List.map_cons, List.mem_cons]
      exact or_iff_right fun h => hother h.symm
    rw [hheld k, hstage]
    simp only [Stage.held, Sync.held, hnames]
    rfl
  have hstageOk := hstageOk k (s.count? k) hlisted.tail
  rw [hprocess]
  rcases s.applyPatch_cases wp.namespacedName res (patchStatus wp newPolicy) with
    ⟨_, heq⟩ | ⟨stored, hlookup, _, heq⟩
  · rw [heq]
    exact .ofStage hinv hsame hstageOk
  · rw [heq]
    have hname : (patchStatus wp newPolicy stored).namespacedName = wp.namespacedName :=
      hinv.named wp.namespacedName stored hlookup
    refine .ofStore (named_insert hinv hname) ?_ hsame hstageOk
    rw [GoMap.lookup_insert_eq, if_neg fun h => hother h.symm]
    rfl

end Unmoved

section Steps

variable {op : ClusterOp ν}

variable [DecidableEq ν] [Fintype ν] {k : NamespacedPolicyName} {s : Cluster ν}

/-- A step that keeps the invariant, and the sum if and only if it loses nothing. -/
structure StepOk (k : NamespacedPolicyName) (s : Cluster ν) (op : ClusterOp ν) : Prop where
  inv : ClusterInv k (s.step op)
  sum : s.Conserved k → ((s.step op).Conserved k ↔ ¬ Loses k s op)

theorem Unmoved.stepOk (h : Unmoved k s (s.step op)) (hinv : ClusterInv k s)
    (hloses : ¬ Loses k s op) : StepOk k s op := by
  refine ⟨⟨h.named, ?_, h.stage, ?_⟩, ?_⟩
  · intro hnone
    rw [h.buffered, h.recorded]
    exact hinv.absent (h.absent hnone)
  · rw [h.recorded]
    exact hinv.bounded
  · intro hsum
    unfold Cluster.Conserved at *
    rw [h.recorded, h.buffered, h.flight, h.counted]
    exact ⟨fun _ => hloses, fun _ => hsum⟩

variable (hinv : ClusterInv k s)

include hinv

theorem stepOk_create (wp : WorkloadPolicy) : StepOk k s (.create wp) := by
  refine Unmoved.stepOk ?_ hinv id
  simp only [Cluster.step]
  split
  · exact .refl hinv
  · next hnew =>
    have hnew : s.store.lookup wp.namespacedName = none := by simpa using hnew
    by_cases hk : wp.namespacedName = k
    · have hnone : s.count? k = none := by
        rw [Cluster.count?, ← hk, hnew]
        rfl
      have hstage := hinv.stage
      rw [hnone] at hstage
      refine ⟨rfl, rfl, named_insert hinv rfl, ?_, ?_, rfl, hstage.created _⟩
      · intro _
        rw [← hk, hnew]
      · rw [hnone]
        simp [Cluster.count?, hk]
    · refine .ofStore (named_insert hinv rfl) ?_ rfl hinv.stage
      rw [GoMap.lookup_insert_eq, if_neg fun h => hk h.symm]
      rfl

theorem stepOk_edit (name : NamespacedPolicyName) (mode : Mode)
    (rules : GoMap ContainerName WorkloadPolicyRules) (generation : Int)
    (annotations : GoMap String String) :
    StepOk k s (.edit name mode rules generation annotations) := by
  refine Unmoved.stepOk ?_ hinv id
  simp only [Cluster.step]
  cases hlookup : s.store.lookup name with
  | none => exact .refl hinv
  | some wp =>
    exact .ofStore (named_insert hinv (hinv.named name wp hlookup))
      (Cluster.count_replaced hlookup rfl) rfl hinv.stage

theorem stepOk_delete (hname : name ≠ k) : StepOk k s (.delete name) := by
  refine Unmoved.stepOk (.ofStore ?_ ?_ rfl hinv.stage) hinv id
  · intro name' wp hlookup
    rw [GoMap.lookup_erase_eq] at hlookup
    split at hlookup
    · cases hlookup
    · exact hinv.named name' wp hlookup
  · rw [GoMap.lookup_erase_eq, if_neg fun h => hname h.symm]
    rfl

theorem stepOk_list (order : Order NamespacedPolicyName WorkloadPolicy) :
    StepOk k s (.list order) := by
  refine Unmoved.stepOk ?_ hinv id
  cases hstage : s.stage with
  | idle =>
    simp only [Cluster.step, hstage]
    split
    · exact .refl hinv
    · exact .ofStage hinv (by rw [hstage]; rfl) (itemsOk_list hinv order)
  | _ =>
    simp only [Cluster.step, hstage]
    exact .refl hinv

theorem stepOk_pool (reports : List (String × NodeReport)) (clients : List ν) :
    StepOk k s (.pool reports clients) := by
  refine Unmoved.stepOk ?_ hinv id
  cases hstage : s.stage with
  | listed items =>
    simp only [Cluster.step, hstage]
    have hok := hinv.stage
    rw [hstage] at hok
    refine .ofStage hinv ?_ ⟨hok, knownCodes_getNodeStatusByPolicy reports items⟩
    rw [hstage]
    simp [Stage.held, Sync.held, Sync.violations]
  | _ =>
    simp only [Cluster.step, hstage]
    exact .refl hinv

theorem stepOk_abort : StepOk k s .abort := by
  refine Unmoved.stepOk ?_ hinv id
  cases hstage : s.stage with
  | listed items =>
    simp only [Cluster.step, hstage]
    exact .ofStage hinv (by rw [hstage]; rfl) trivial
  | _ =>
    simp only [Cluster.step, hstage]
    exact .refl hinv

theorem stepOk_patchMetadata (res : PatchResult) : StepOk k s (.patchMetadata res) := by
  refine Unmoved.stepOk ?_ hinv id
  cases hstage : s.stage with
  | patched sync wp newPolicy =>
    have hok := hinv.stage
    rw [hstage] at hok
    have hnext := stageOk_next hok.1 hok.2
    have hheld : sync.next.held k = s.stage.held k := by
      rw [held_next, hstage]
      rfl
    simp only [Cluster.step, hstage]
    rcases s.applyPatch_cases wp.namespacedName res (patchMetadata wp newPolicy) with
      ⟨_, heq⟩ | ⟨stored, hlookup, _, heq⟩
    · rw [heq]
      exact .ofStage hinv hheld hnext
    · rw [heq]
      have hname : (patchMetadata wp newPolicy stored).namespacedName = wp.namespacedName :=
        hinv.named wp.namespacedName stored hlookup
      exact .ofStore (named_insert hinv hname) (Cluster.count_replaced hlookup rfl) hheld hnext
  | _ =>
    simp only [Cluster.step, hstage]
    exact .refl hinv

/-! ## Steps that move violations -/

theorem stepOk_record {rec : Violationbuf.ViolationRecord}
    (hadm : Admissible k s (.record node rec)) : StepOk k s (.record node rec) := by
  obtain ⟨hroom, hexists⟩ := hadm
  have hbuffered := buffered_record rec hroom k
  have hrecorded : (s.step (.record node rec)).recorded.count k =
      s.recorded.count k + if rec.policy = k then 1 else 0 := by
    show (rec.policy :: s.recorded).count k = _
    rw [List.count_cons]
    simp
  refine ⟨⟨hinv.named, ?_, hinv.stage, ?_⟩, ?_⟩
  · intro hnone
    have hother : rec.policy ≠ k := fun hk => AList.lookup_eq_none.mp hnone (hexists hk).1
    rw [hbuffered, hrecorded, if_neg hother]
    exact hinv.absent hnone
  · rw [hrecorded]
    split
    · next hk => exact (hexists hk).2
    · exact hinv.bounded
  · intro hsum
    refine ⟨fun _ => id, fun _ => ?_⟩
    have hflight : (s.step (.record node rec)).inFlight k = s.inFlight k := rfl
    have hcount : (s.step (.record node rec)).count? k = s.count? k := rfl
    unfold Cluster.Conserved at *
    rw [hbuffered, hrecorded, hflight, hcount]
    omega

theorem StepOk.drained (node : ν) (gain : Nat) (hagents : (s.step op).agents =
      Function.update s.agents node (scrapeViolations (s.agents node)).2)
    (hstore : (s.step op).store = s.store) (hrecorded : (s.step op).recorded = s.recorded)
    (hstage : StageOk k (s.count? k) (s.step op).stage)
    (hflight : (s.step op).inFlight k = s.inFlight k + gain)
    (hloses : gain = s.bufferedAt k node ↔ ¬ Loses k s op) : StepOk k s op := by
  have hbuffered := buffered_drain k hagents
  have hcount : (s.step op).count? k = s.count? k := by rw [Cluster.count?, hstore, Cluster.count?]
  refine ⟨⟨?_, ?_, ?_, ?_⟩, ?_⟩
  · rw [hstore]
    exact hinv.named
  · rw [hstore, hrecorded]
    intro hnone
    obtain ⟨hzero, hnever⟩ := hinv.absent hnone
    exact ⟨by omega, hnever⟩
  · rw [hcount]
    exact hstage
  · rw [hrecorded]
    exact hinv.bounded
  · intro hsum
    rw [← hloses]
    unfold Cluster.Conserved at *
    rw [hrecorded, hflight, hcount]
    omega

theorem stepOk_scrape (res : ScrapeResult) : StepOk k s (.scrape res) := by
  cases hstage : s.stage with
  | running sync =>
    cases hclients : sync.clients with
    | nil =>
      refine Unmoved.stepOk ?_ hinv ?_
      · simp only [Cluster.step, hstage, hclients]
        exact .refl hinv
      · rintro ⟨sync', node, clients, hrun, hcons, _⟩
        cases hstage.symm.trans hrun
        cases hclients.symm.trans hcons
    | cons node clients =>
      have hok := hinv.stage
      rw [hstage] at hok
      have hflight : s.inFlight k = sync.held k := by rw [Cluster.inFlight, hstage, Stage.held]
      -- what the step loses, with the stage and the node filled in
      have hloses : Loses k s (.scrape res) ↔
          s.bufferedAt k node ≠ 0 ∧ (res = .lost ∨ res = .delivered ∧ k ∉ sync.names) := by
        constructor
        · rintro ⟨sync', node', clients', hrun, hcons, hlost⟩
          cases hstage.symm.trans hrun
          cases hclients.symm.trans hcons
          exact hlost
        · intro hlost
          exact ⟨sync, node, clients, hstage, hclients, hlost⟩
      have hstep : s.step (.scrape res) = s.scrapeNode { sync with clients } node res := by
        simp only [Cluster.step, hstage, hclients]
      cases res with
      | delivered =>
        refine .drained hinv node (if k ∈ sync.names then s.bufferedAt k node else 0)
          (by rw [hstep]; rfl) (by rw [hstep]; rfl) (by rw [hstep]; rfl) (by rw [hstep]; exact hok)
          ?_ ?_
        · rw [hstep, hflight]
          exact held_addScraped { sync with clients } (s.agents node) k
        · rw [hloses]
          by_cases hk : k ∈ sync.names <;> simp [hk, eq_comm]
      | lost =>
        refine .drained hinv node 0 (by rw [hstep]; rfl) (by rw [hstep]; rfl) (by rw [hstep]; rfl)
          (by rw [hstep]; exact hok) ?_ ?_
        · rw [hstep, hflight]
          rfl
        · rw [hloses]
          simp [eq_comm]
      | unreached =>
        refine Unmoved.stepOk ?_ hinv (by rw [hloses]; simp)
        rw [hstep]
        exact .ofStage hinv hflight.symm hok
  | _ =>
    refine Unmoved.stepOk ?_ hinv ?_
    · simp only [Cluster.step, hstage]
      exact .refl hinv
    · rintro ⟨sync', node, clients, hrun, _⟩
      cases hstage.symm.trans hrun

theorem StepOk.forgotten {n : Nat} (hstep : s.step op = { s with stage })
    (hok : StageOk k (s.count? k) stage) (hbefore : s.inFlight k = n) (hafter : stage.held k = 0)
    (hloses : Loses k s op ↔ n ≠ 0) : StepOk k s op := by
  refine ⟨?_, fun hsum => ?_⟩
  · rw [hstep]
    exact ⟨hinv.named, hinv.absent, hok, hinv.bounded⟩
  · rw [hloses, hstep]
    unfold Cluster.Conserved at *
    show (s.recorded.count k : Int) = s.buffered k + stage.held k + (s.count? k).getD 0 ↔ _
    rw [hafter]
    omega

theorem StepOk.counted {n : Nat} {count : Int} (hname : wp.namespacedName = k)
    (hstep : s.step op = { s with store := s.store.insert k wp, stage })
    (hok : ∀ count, StageOk k count stage) (hbefore : s.inFlight k = n) (hafter : stage.held k = 0)
    (hcount : s.count? k = some count)
    (hnew : count + n < 2 ^ 63 → wp.status.violationCount = count + n) (hloses : ¬ Loses k s op) :
    StepOk k s op := by
  have hcounted : Cluster.count? { s with store := s.store.insert k wp, stage } k =
      some wp.status.violationCount := by
    rw [Cluster.count?, AList.lookup_insert, Option.map_some]
  refine ⟨?_, fun hsum => ?_⟩
  · rw [hstep]
    refine ⟨named_insert hinv hname, ?_, hok _, hinv.bounded⟩
    intro hnone
    simp at hnone
  · -- the counter cannot wrap, since what it counts was recorded
    have hbounded := hinv.bounded
    unfold Cluster.Conserved at *
    rw [hbefore, hcount, Option.getD_some] at hsum
    have hnew := hnew (by omega)
    rw [hstep, hcounted, Option.getD_some]
    show (s.recorded.count k : Int) = s.buffered k + stage.held k + _ ↔ _
    rw [hafter]
    exact ⟨fun _ => hloses, fun _ => by omega⟩

theorem stepOk_process {order : Order String String} {now : Time} {res : PatchResult}
    (hstage : s.stage = .running sync) (hitems : sync.items = wp :: items)
    (hk : wp.namespacedName = k)
    (hstep : s.step op = s.process { sync with items } wp order now res)
    (hloses : Loses k s op ↔ res.applied = false ∧ sync.violations k ≠ []) : StepOk k s op := by
  have hok := hinv.stage
  rw [hstage] at hok
  obtain ⟨hlisted, hcodes⟩ := hok
  rw [hitems] at hlisted
  obtain ⟨newPolicy, acks, stage, hrec, hheld, hstageOk, hprocess⟩ :=
    s.process_eq { sync with items } hcodes wp order now res
  -- the policy was listed, and is not listed again
  have hbefore : s.inFlight k = (sync.violations k).length := by
    have hmem : k ∈ sync.names := by
      rw [Sync.names, hitems, List.map_cons, hk]
      exact List.mem_cons_self
    rw [Cluster.inFlight, hstage, Stage.held, Sync.held, if_pos hmem]
  have hafter : stage.held k = 0 := by
    rw [hheld k, Sync.held, if_neg]
    rw [← hk]
    exact hlisted.not_mem_tail
  have hstageOk : ∀ count, StageOk k count stage := by
    intro count
    refine hstageOk k count ⟨hlisted.tail.nodup, fun wp' hwp' hname => ?_⟩
    have hmem : wp'.namespacedName ∈ items.map fun wp => wp.namespacedName :=
      List.mem_map_of_mem hwp'
    rw [hname, ← hk] at hmem
    exact absurd hmem hlisted.not_mem_tail
  have hcurrent := hlisted.current wp List.mem_cons_self hk
  rw [hk] at hprocess hrec
  rw [hprocess] at hstep
  rcases s.applyPatch_cases k res (patchStatus wp newPolicy) with
    ⟨hunapplied, heq⟩ | ⟨stored, hlookup, happlied, heq⟩
  · have hstored : (s.store.lookup k).isSome = true := by
      rw [Cluster.count?] at hcurrent
      rw [← Option.isSome_map, hcurrent]
      rfl
    rw [heq] at hstep
    refine .forgotten hinv hstep (hstageOk _) hbefore hafter ?_
    rw [hloses, hunapplied hstored]
    simp
  · have hcount : wp.status.violationCount = stored.status.violationCount := by
      rw [Cluster.count?, hlookup] at hcurrent
      exact (Option.some.inj hcurrent).symm
    have hname : (patchStatus wp newPolicy stored).namespacedName = k := hinv.named k stored hlookup
    rw [heq] at hstep
    refine .counted hinv hname hstep hstageOk hbefore hafter hcurrent ?_ ?_
    · intro hlt
      rw [patchStatus_count hcount]
      exact hrec.count.trans (MergeState.foldl_count hlt)
    · rw [hloses, happlied]
      simp

theorem stepOk_patchStatus (order : Order String String) (now : Time) (res : PatchResult) :
    StepOk k s (.patchStatus order now res) := by
  cases hstage : s.stage with
  | running sync =>
    cases hclients : sync.clients with
    | cons node clients =>
      refine Unmoved.stepOk ?_ hinv ?_
      · simp only [Cluster.step, hstage, hclients]
        exact .refl hinv
      · rintro ⟨sync', wp, items, hrun, hnone, _⟩
        cases hstage.symm.trans hrun
        cases hclients.symm.trans hnone
    | nil =>
      cases hitems : sync.items with
      | nil =>
        refine Unmoved.stepOk ?_ hinv ?_
        · simp only [Cluster.step, hstage, hclients, hitems]
          exact .refl hinv
        · rintro ⟨sync', wp, items, hrun, _, hcons, _⟩
          cases hstage.symm.trans hrun
          cases hitems.symm.trans hcons
      | cons wp items =>
        have hstep : s.step (.patchStatus order now res) =
            s.process { sync with items } wp order now res := by
          simp only [Cluster.step, hstage, hclients, hitems]
        -- what the step loses, with the stage and the policy filled in
        have hloses : Loses k s (.patchStatus order now res) ↔
            wp.namespacedName = k ∧ res.applied = false ∧ sync.violations k ≠ [] := by
          constructor
          · rintro ⟨sync', wp', items', hrun, _, hcons, hlost⟩
            cases hstage.symm.trans hrun
            cases hitems.symm.trans hcons
            exact hlost
          · intro hlost
            exact ⟨sync, wp, items, hstage, hclients, hitems, hlost⟩
        by_cases hk : wp.namespacedName = k
        · exact stepOk_process hinv hstage hitems hk hstep
            (hloses.trans ⟨fun h => h.2, fun h => ⟨hk, h⟩⟩)
        · refine Unmoved.stepOk ?_ hinv fun h => hk (hloses.mp h).1
          rw [hstep]
          exact .process hinv hstage hitems hk order now res
  | _ =>
    refine Unmoved.stepOk ?_ hinv ?_
    · simp only [Cluster.step, hstage]
      exact .refl hinv
    · rintro ⟨sync', wp, items, hrun, _⟩
      cases hstage.symm.trans hrun

/-- **One step.** -/
theorem stepOk (hadm : Admissible k s op) : StepOk k s op := by
  cases op with
  | record node rec => exact stepOk_record hinv hadm
  | create wp => exact stepOk_create hinv wp
  | edit name mode rules generation annotations =>
    exact stepOk_edit hinv name mode rules generation annotations
  | delete name => exact stepOk_delete hinv hadm
  | list order => exact stepOk_list hinv order
  | pool reports clients => exact stepOk_pool hinv reports clients
  | abort => exact stepOk_abort hinv
  | scrape res => exact stepOk_scrape hinv res
  | patchStatus order now res => exact stepOk_patchStatus hinv order now res
  | patchMetadata res => exact stepOk_patchMetadata hinv res

end Steps

/-! ## Whole runs -/

def Cluster.start : Cluster ν := {}

theorem buffered_start [Fintype ν] (k : NamespacedPolicyName) :
    (Cluster.start : Cluster ν).buffered k = 0 :=
  Finset.sum_eq_zero fun _ _ => rfl

theorem ClusterInv.start [Fintype ν] (k : NamespacedPolicyName) :
    ClusterInv k (Cluster.start : Cluster ν) := by
  refine ⟨?_, ?_, trivial, by simp [Cluster.start]⟩
  · intro name wp hlookup
    cases hlookup
  · intro _
    exact ⟨buffered_start k, rfl⟩

theorem conserved_start [Fintype ν] (k : NamespacedPolicyName) :
    (Cluster.start : Cluster ν).Conserved k := by
  rw [Cluster.Conserved, buffered_start]
  rfl

/-- **No violation is lost** in any moment of a run, if and only if no step of it loses one. -/
theorem conserved_iff [DecidableEq ν] [Fintype ν] {k : NamespacedPolicyName}
    {ops : List (ClusterOp ν)} (hadm : Along Cluster.step (Admissible k) ops .start) :
    (∀ n, (run Cluster.step (ops.take n) .start).Conserved k) ↔
      Along Cluster.step (fun s op => ¬ Loses k s op) ops .start := by
  exact forall_take_iff (J := ClusterInv k) (fun s op h hadm => (stepOk h hadm).inv)
    (fun s op h hadm hsum => (stepOk h hadm).sum hsum) (.start k) (conserved_start k) hadm

namespace Sample

def sealedName : NamespacedPolicyName := sealed.namespacedName

def seen : Violationbuf.ViolationRecord :=
  { policyName := "web", ns := "prod", podName := "web-0", containerName := "app", exePath := [1] }

/-- One node, one policy, one violation, and a status patch. -/
def scrapedOnce (res : PatchResult) : List (ClusterOp Unit) :=
  [.create sealed, .record () seen, .list .stored, .pool [] [()], .scrape .delivered,
    .patchStatus .stored 0 res]

theorem scrapedOnce_admissible (res : PatchResult) :
    Along Cluster.step (Admissible sealedName) (scrapedOnce res) .start :=
  ⟨trivial, ⟨by decide, fun _ => ⟨by decide +kernel, by decide +kernel⟩⟩, trivial, trivial, trivial,
    trivial, trivial⟩

theorem conserved_iff_scrapedOnce :
    (∀ n, (run Cluster.step ((scrapedOnce .ok).take n) .start).Conserved sealedName) ↔
      Along Cluster.step (fun s op => ¬ Loses sealedName s op) (scrapedOnce .ok) .start :=
  conserved_iff (scrapedOnce_admissible .ok)

/-- The status patch fails, and the violation is in no place. -/
theorem scraped_lost :
    Along Cluster.step (Admissible sealedName) (scrapedOnce (.failed false)) .start ∧
      ¬ (run Cluster.step (scrapedOnce (.failed false)) .start).Conserved sealedName := by
  refine ⟨scrapedOnce_admissible _, ?_⟩
  unfold Cluster.Conserved
  decide +kernel

end Sample

end RuntimeEnforcer.Api
