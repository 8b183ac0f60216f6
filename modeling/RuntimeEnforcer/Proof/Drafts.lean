import Mathlib.Data.List.Induction
import RuntimeEnforcer.Lib.Fallible
import RuntimeEnforcer.Wpgen.Workload

/-!
# Drafted policies never collide

`draftWorkloads` compares each workload with the earlier ones of its policy name only, and takes a
missing namespace for one that could be any. What it is for is said of all the ways to apply the
manifest: whatever namespace the workloads without one are given, no two have one policy name in one
namespace. `clash_iff` is the step from the one to the other for two workloads, `Drafted` is what
the loop knows about the earlier ones, and `draftWorkloads_spec` puts them together.
-/

set_option autoImplicit false

namespace RuntimeEnforcer.Wpgen

open Lib

/-! ## What the names are for -/

/-- The name of a workload's policy: the value of the label, or the short kind, a dash and the
name. -/
def Workload.draftName (w : Workload) : Option String :=
  w.podLabels.lookup policyLabelKey <|> w.kind.shortName.map fun s => s ++ "-" ++ w.name

/-- A name for an object and for the value of a label. -/
def ValidPolicyName (policyName : String) : Prop :=
  SubdomainName policyName ∧ LabelValue policyName

/-- The workload's policy has a name, and a valid one. -/
def Workload.Nameable (w : Workload) : Prop := ∃ n, w.draftName = some n ∧ ValidPolicyName n

/-- Where the workload goes when those without a namespace are given one. -/
def Workload.nsGiven (given : String) (w : Workload) : String := if w.ns = "" then given else w.ns

/-- No two workloads have one policy name in one namespace. -/
def Apart (given : String) (ws : List Workload) : Prop :=
  ws.Pairwise fun w w' => ¬ (w.draftName = w'.draftName ∧ w.nsGiven given = w'.nsGiven given)

def ClashNs (ns ns' : String) : Prop := ns = ns' ∨ ns = "" ∨ ns' = ""

def Clash (w w' : Workload) : Prop := w.draftName = w'.draftName ∧ ClashNs w.ns w'.ns

theorem clash_iff (w w' : Workload) : Clash w w' ↔
    ∃ given, given ≠ "" ∧ w.draftName = w'.draftName ∧ w.nsGiven given = w'.nsGiven given := by
  unfold Clash ClashNs Workload.nsGiven
  constructor
  · rintro ⟨hname, hns⟩
    by_cases hw : w.ns = ""
    · by_cases hw' : w'.ns = ""
      · exact ⟨"default", by decide, hname, by rw [if_pos hw, if_pos hw']⟩
      · exact ⟨w'.ns, hw', hname, by rw [if_pos hw, if_neg hw']⟩
    · by_cases hw' : w'.ns = ""
      · exact ⟨w.ns, hw, hname, by rw [if_neg hw, if_pos hw']⟩
      · refine ⟨"default", by decide, hname, ?_⟩
        rw [if_neg hw, if_neg hw', hns.resolve_right (by simp [hw, hw'])]
  · rintro ⟨given, _, hname, hgiven⟩
    refine ⟨hname, ?_⟩
    by_cases hw : w.ns = ""
    · exact .inr (.inl hw)
    · by_cases hw' : w'.ns = ""
      · exact .inr (.inr hw')
      · rw [if_neg hw, if_neg hw'] at hgiven
        exact .inl hgiven

theorem pairwise_clash_iff (ws : List Workload) :
    ws.Pairwise (fun w w' => ¬ Clash w w') ↔ ∀ given, given ≠ "" → Apart given ws := by
  constructor
  · intro h given hgiven
    exact h.imp fun hclash hsame => hclash ((clash_iff _ _).mpr ⟨given, hgiven, hsame⟩)
  · intro h
    rw [List.pairwise_iff_getElem]
    intro i j hi hj hij hclash
    obtain ⟨given, hgiven, hsame⟩ := (clash_iff _ _).mp hclash
    exact List.pairwise_iff_getElem.mp (h given hgiven) i j hi hj hij hsame

/-! ## One round -/

section Rounds

variable {v : NameValidation}

theorem validatePolicyName_eq_ok (v : NameValidation) {policyName : String} :
    validatePolicyName v policyName = .ok () ↔ ValidPolicyName policyName := by
  unfold validatePolicyName ValidPolicyName
  rw [← v.subdomain_eq_nil, ← v.labelValue_eq_nil, ← List.append_eq_nil_iff]
  dsimp only
  split
  · next h => exact iff_of_true rfl h
  · next h => exact iff_of_false (fun habs => by cases habs) h

theorem policyConflict_eq_ok {first second : PolicyOwner} {policyName : String} :
    policyConflict first second policyName = .ok () ↔ ¬ ClashNs first.ns second.ns := by
  unfold policyConflict ClashNs
  split
  · next h => exact iff_of_false (fun habs => by cases habs) (fun hn => hn (.inl h))
  · next hne =>
    split
    · next h => exact iff_of_false (fun habs => by cases habs) (fun hn => hn (.inr h))
    · next h => exact iff_of_true rfl (fun hc => hc.elim hne h)

theorem policyNameAndLabel_eq (w : Workload) :
    w.policyNameAndLabel = match w.draftName with
      | some n => .ok (n, (w.podLabels.lookup policyLabelKey).isSome)
      | none => .error (.unknownKind w.kind) := by
  unfold Workload.policyNameAndLabel Workload.draftName
  cases w.podLabels.lookup policyLabelKey with
  | some value => rfl
  | none => cases w.kind.shortName <;> rfl

/-- A round succeeds for a workload with a valid name that clashes with no earlier owner of it. -/
theorem Drafting.add_eq_ok {st st' : Drafting} {w : Workload} :
    st.add v w = .ok st' ↔ ∃ n, w.draftName = some n ∧ ValidPolicyName n ∧
      (∀ other ∈ (st.owners.lookup n).getD [], ¬ ClashNs other.ns w.ns) ∧
      st' = { drafted := st.drafted ++ [⟨w, n, (w.podLabels.lookup policyLabelKey).isSome⟩]
              owners := st.owners.insert n ((st.owners.lookup n).getD [] ++ [w.owner]) } := by
  unfold Drafting.add
  rw [policyNameAndLabel_eq]
  cases hname : w.draftName with
  | none => simp [bind, Except.bind]
  | some n =>
    cases hvalid : validatePolicyName v n with
    | error msgs =>
      have hinvalid : ¬ ValidPolicyName n := by
        simp [← validatePolicyName_eq_ok v, hvalid]
      simp [Except.mapError, bind, Except.bind, hvalid, hinvalid]
    | ok u =>
      have hvalidName : ValidPolicyName n := (validatePolicyName_eq_ok v).mp hvalid
      have hpass : ((st.owners.lookup n).getD []).forM
          (fun other => policyConflict other w.owner n) = .ok () ↔
          ∀ other ∈ (st.owners.lookup n).getD [], ¬ ClashNs other.ns w.ns := by
        rw [forM_eq_ok]
        exact forall₂_congr fun other _ => policyConflict_eq_ok
      cases hothers : ((st.owners.lookup n).getD []).forM
          fun other => policyConflict other w.owner n with
      | error e =>
        rw [hothers] at hpass
        have hclash : ¬ ∀ other ∈ (st.owners.lookup n).getD [], ¬ ClashNs other.ns w.ns :=
          fun hall => nomatch hpass.mpr hall
        rw [List.forM_eq_forM] at hothers
        simp only [Except.mapError, bind, Except.bind, hvalid, List.forM_eq_forM, hothers]
        exact iff_of_false (fun habs => by cases habs)
          (by rintro ⟨n', hn', _, hall, _⟩; cases hn'; exact hclash hall)
      | ok u =>
        have hclash := hpass.mp hothers
        rw [List.forM_eq_forM] at hothers
        simp only [Except.mapError, bind, Except.bind, hvalid, List.forM_eq_forM, hothers]
        constructor
        · intro heq
          exact ⟨n, rfl, hvalidName, hclash, (Except.ok.inj heq).symm⟩
        · rintro ⟨n', hn', _, _, rfl⟩
          cases hn'
          rfl

/-! ## The loop -/

/-- What the loop knows after these workloads. -/
structure Drafted (ws : List Workload) (st : Drafting) : Prop where
  workloads : st.drafted.map DraftedWorkload.toWorkload = ws
  names : ∀ d ∈ st.drafted, d.toWorkload.draftName = some d.policyName ∧
    d.labelPresent = (d.podLabels.lookup policyLabelKey).isSome
  owners : ∀ n ns, (∃ o ∈ (st.owners.lookup n).getD [], o.ns = ns) ↔
    ∃ w ∈ ws, w.draftName = some n ∧ w.ns = ns

theorem Drafted.add {ws : List Workload} {st st' : Drafting} {w : Workload} (h : Drafted ws st)
    (hadd : st.add v w = .ok st') : Drafted (ws ++ [w]) st' := by
  obtain ⟨n, hname, _, _, rfl⟩ := Drafting.add_eq_ok.mp hadd
  refine ⟨?_, fun d hd => ?_, fun n' ns => ?_⟩
  · rw [List.map_append, h.workloads]
    rfl
  · rcases List.mem_append.mp hd with hd | hd
    · exact h.names d hd
    · cases List.mem_singleton.mp hd
      exact ⟨hname, rfl⟩
  · -- the new owner stands under its own name
    have hnew : (∃ w' ∈ ws ++ [w], w'.draftName = some n' ∧ w'.ns = ns) ↔
        (∃ w' ∈ ws, w'.draftName = some n' ∧ w'.ns = ns) ∨ n = n' ∧ w.ns = ns := by
      simp only [List.mem_append, List.mem_singleton, or_and_right, exists_or, exists_eq_left,
        hname, Option.some.injEq]
    rw [hnew, ← h.owners n' ns]
    by_cases hn : n' = n
    · subst hn
      simp only [GoMap.lookup_insert_eq, if_true, Option.getD_some, List.mem_append,
        List.mem_singleton, or_and_right, exists_or, exists_eq_left, true_and]
      rfl
    · simp only [GoMap.lookup_insert_eq, if_neg hn, Ne.symm hn, false_and, or_false]

theorem Drafted.add_succeeds_iff {ws : List Workload} {st : Drafting} (h : Drafted ws st)
    (w : Workload) :
    (∃ st', st.add v w = .ok st') ↔ w.Nameable ∧ ∀ w' ∈ ws, ¬ Clash w' w := by
  constructor
  · rintro ⟨st', hadd⟩
    obtain ⟨n, hname, hvalid, hclear, _⟩ := Drafting.add_eq_ok.mp hadd
    refine ⟨⟨n, hname, hvalid⟩, fun w' hw' hclash => ?_⟩
    obtain ⟨o, ho, hns⟩ := (h.owners n w'.ns).mpr ⟨w', hw', hclash.1.trans hname, rfl⟩
    exact hclear o ho (hns ▸ hclash.2)
  · rintro ⟨⟨n, hname, hvalid⟩, hclear⟩
    refine ⟨_, Drafting.add_eq_ok.mpr ⟨n, hname, hvalid, fun o ho hclash => ?_, rfl⟩⟩
    obtain ⟨w', hw', hname', hns⟩ := (h.owners n o.ns).mp ⟨o, ho, rfl⟩
    exact hclear w' hw' ⟨hname'.trans hname.symm, hns ▸ hclash⟩

theorem drafted_of_ok {ws : List Workload} {st : Drafting}
    (h : ws.foldlM (Drafting.add v) {} = .ok st) : Drafted ws st := by
  induction ws using List.reverseRecOn generalizing st with
  | nil =>
    cases h
    exact ⟨rfl, fun d hd => by simp at hd, fun n ns => by simp⟩
  | append_singleton ws w ih =>
    obtain ⟨st₁, hbefore, hadd⟩ := foldlM_push_eq_ok.mp h
    exact (ih hbefore).add hadd

theorem foldlM_ok_iff (ws : List Workload) :
    (∃ st, ws.foldlM (Drafting.add v) {} = .ok st) ↔
      (∀ w ∈ ws, w.Nameable) ∧ ws.Pairwise fun w w' => ¬ Clash w w' := by
  induction ws using List.reverseRecOn with
  | nil => exact iff_of_true ⟨_, rfl⟩ ⟨by simp, List.Pairwise.nil⟩
  | append_singleton ws w ih =>
    have hsplit : ((∀ w' ∈ ws ++ [w], w'.Nameable) ∧
        (ws ++ [w]).Pairwise fun w w' => ¬ Clash w w') ↔
        ((∀ w' ∈ ws, w'.Nameable) ∧ ws.Pairwise fun w w' => ¬ Clash w w') ∧
          w.Nameable ∧ ∀ w' ∈ ws, ¬ Clash w' w := by
      simp only [List.pairwise_append, List.mem_append, List.mem_singleton, or_imp, forall_and,
        forall_eq, List.pairwise_singleton, true_and]
      exact ⟨fun ⟨⟨h₁, h₂⟩, h₃, h₄⟩ => ⟨⟨h₁, h₃⟩, h₂, h₄⟩,
        fun ⟨⟨h₁, h₃⟩, h₂, h₄⟩ => ⟨⟨h₁, h₂⟩, h₃, h₄⟩⟩
    rw [hsplit, ← ih]
    constructor
    · rintro ⟨st, hloop⟩
      obtain ⟨st₁, hbefore, hadd⟩ := foldlM_push_eq_ok.mp hloop
      exact ⟨⟨st₁, hbefore⟩, ((drafted_of_ok hbefore).add_succeeds_iff w).mp ⟨st, hadd⟩⟩
    · rintro ⟨⟨st₁, hbefore⟩, hw⟩
      obtain ⟨st, hadd⟩ := ((drafted_of_ok hbefore).add_succeeds_iff w).mpr hw
      exact ⟨st, foldlM_push_eq_ok.mpr ⟨st₁, hbefore, hadd⟩⟩

end Rounds

/-- **Drafted policies never collide.** The command succeeds if and only if every policy name is
available and valid and the workloads stay apart in whatever namespace those without one are put;
it then returns every workload, in order, with its name. -/
theorem draftWorkloads_spec (v : NameValidation) (ws : List Workload) :
    ((∃ ds, draftWorkloads v ws = .ok ds) ↔
      (∀ w ∈ ws, w.Nameable) ∧ ¬ ∃ given, given ≠ "" ∧ ¬ Apart given ws) ∧
    ∀ ds, draftWorkloads v ws = .ok ds → ds.map DraftedWorkload.toWorkload = ws ∧
      ∀ d ∈ ds, d.toWorkload.draftName = some d.policyName ∧
        d.labelPresent = (d.podLabels.lookup policyLabelKey).isSome := by
  have hapart : (¬ ∃ given, given ≠ "" ∧ ¬ Apart given ws) ↔
      ∀ given, given ≠ "" → Apart given ws := by
    simp only [not_exists, not_and, Classical.not_not]
  rw [hapart, ← pairwise_clash_iff, ← foldlM_ok_iff]
  unfold draftWorkloads
  cases hloop : ws.foldlM (Drafting.add v) {} with
  | error e =>
    refine ⟨iff_of_false ?_ ?_, fun ds habs => nomatch habs⟩
    · exact fun ⟨ds, habs⟩ => nomatch habs
    · exact fun ⟨st, habs⟩ => nomatch habs
  | ok st =>
    have hdrafted := drafted_of_ok hloop
    refine ⟨iff_of_true ⟨_, rfl⟩ ⟨st, rfl⟩, fun ds hds => ?_⟩
    cases hds
    exact ⟨hdrafted.workloads, hdrafted.names⟩

/-- The deployment `web` in a namespace. -/
def Sample.web (ns : String) : Workload := { kind := .deployment, name := "web", ns }

example : (draftWorkloads .documented [Sample.web "a", Sample.web "b"]).toOption.map
    (fun ds => ds.map DraftedWorkload.policyName) = some ["deploy-web", "deploy-web"] := by
  decide +kernel

example : (draftWorkloads .documented [Sample.web "a", Sample.web ""]).toOption.isNone = true := by
  decide +kernel

end RuntimeEnforcer.Wpgen
