import Mathlib.Data.List.Basic

/-!
# Names of objects and values of labels

What Kubernetes documents about names. The name of an object is a subdomain of RFC 1123: labels of
lower case letters, digits and dashes with dots between them, at most 253 bytes in all. The value of
a label may hold more characters, and is at most 63 bytes long. So a name that is short enough is
the value of a label (`LabelValue.of_subdomainName`).

The functions that check this are those of `k8s.io/apimachinery/pkg/util/validation`. A program that
calls them depends on what they accept, and on the texts of their messages only where it prints
them; it takes them as a `NameValidation`, which is any two checks that accept just the documented
names. `NameValidation.documented` is one: it measures and matches, with messages of its own.

An object in a namespace is written `namespace/name`, and the first separator ends the namespace
(`append_separator_inj`).
-/

set_option autoImplicit false

namespace RuntimeEnforcer.Lib

/-! ## The documented names -/

def isLowerAlnum (c : Char) : Bool := (decide ('a' ≤ c) && decide (c ≤ 'z')) || c.isDigit

def isAlnum (c : Char) : Bool := isLowerAlnum c || (decide ('A' ≤ c) && decide (c ≤ 'Z'))

/-- Begins and ends with characters of a kind, and has in between those and the `others`. -/
def delimited (edge : Char → Bool) (others cs : List Char) : Bool :=
  cs.head?.any edge && cs.getLast?.any edge && cs.all fun c => edge c || decide (c ∈ others)

/-- `dns1123SubdomainFmt`: one or more `[a-z0-9]([-a-z0-9]*[a-z0-9])?`, with dots between them. -/
def matchesSubdomain (cs : List Char) : Bool :=
  (cs.splitOn '.').all (delimited isLowerAlnum ['-'])

/-- `labelValueFmt`: `(([A-Za-z0-9][-A-Za-z0-9_.]*)?[A-Za-z0-9])?`. -/
def matchesLabelValue (cs : List Char) : Bool :=
  cs.isEmpty || delimited isAlnum ['-', '_', '.'] cs

abbrev SubdomainName (value : String) : Prop :=
  value.utf8ByteSize ≤ 253 ∧ matchesSubdomain value.toList = true

abbrev LabelValue (value : String) : Prop :=
  value.utf8ByteSize ≤ 63 ∧ matchesLabelValue value.toList = true

/-! ## The checks -/

/-- `IsDNS1123Subdomain` and `IsValidLabelValue`. Each returns what it finds wrong with a text, and
so the empty list for the documented names and for no others. -/
structure NameValidation where
  isDNS1123Subdomain : String → List String
  isValidLabelValue : String → List String
  subdomain_eq_nil : ∀ value, isDNS1123Subdomain value = [] ↔ SubdomainName value
  labelValue_eq_nil : ∀ value, isValidLabelValue value = [] ↔ LabelValue value

/-- A check of the length and of the format, each with its message. -/
def lengthAndFormat (max : Nat) (format : List Char → Bool) (msg value : String) : List String :=
  (if value.utf8ByteSize > max then [s!"must be no more than {max} bytes"] else []) ++
    if format value.toList then [] else [msg]

theorem lengthAndFormat_eq_nil {max : Nat} {format : List Char → Bool} {msg value : String} :
    lengthAndFormat max format msg value = [] ↔
      value.utf8ByteSize ≤ max ∧ format value.toList = true := by
  simp [lengthAndFormat]

def NameValidation.documented : NameValidation where
  isDNS1123Subdomain := lengthAndFormat 253 matchesSubdomain "not a lowercase RFC 1123 subdomain"
  isValidLabelValue := lengthAndFormat 63 matchesLabelValue "not a valid label value"
  subdomain_eq_nil := fun _ => lengthAndFormat_eq_nil
  labelValue_eq_nil := fun _ => lengthAndFormat_eq_nil

/-! ## A short name is the value of a label -/

theorem delimited_iff {edge : Char → Bool} {others cs : List Char} :
    delimited edge others cs = true ↔
      cs.head?.any edge = true ∧ cs.getLast?.any edge = true ∧
        ∀ c ∈ cs, edge c = true ∨ c ∈ others := by
  simp [delimited, and_assoc]

theorem delimited_mono {edge edge' : Char → Bool} {others others' cs : List Char}
    (hedge : ∀ c, edge c = true → edge' c = true) (hothers : others ⊆ others')
    (h : delimited edge others cs = true) : delimited edge' others' cs = true := by
  obtain ⟨hhead, hlast, hall⟩ := delimited_iff.mp h
  have hany : ∀ o : Option Char, o.any edge = true → o.any edge' = true := by
    intro o ho
    cases o with
    | none => exact ho
    | some c => exact hedge c ho
  exact delimited_iff.mpr ⟨hany _ hhead, hany _ hlast,
    fun c hc => (hall c hc).imp (hedge c) (@hothers c)⟩

theorem delimited_append {edge : Char → Bool} {others cs cs' : List Char} {sep : Char}
    (hsep : sep ∈ others) (h : delimited edge others cs = true)
    (h' : delimited edge others cs' = true) :
    delimited edge others (cs ++ [sep] ++ cs') = true := by
  obtain ⟨hhead, _, hall⟩ := delimited_iff.mp h
  obtain ⟨_, hlast, hall'⟩ := delimited_iff.mp h'
  refine delimited_iff.mpr ⟨?_, ?_, fun c hc => ?_⟩
  · cases cs with
    | nil => cases hhead
    | cons c cs => exact hhead
  · rw [List.getLast?_append]
    cases hcs' : cs'.getLast? with
    | none =>
      rw [hcs'] at hlast
      cases hlast
    | some c =>
      rw [hcs'] at hlast
      exact hlast
  · rcases List.mem_append.mp hc with hc | hc
    · rcases List.mem_append.mp hc with hc | hc
      · exact hall c hc
      · exact .inr (List.mem_singleton.mp hc ▸ hsep)
    · exact hall' c hc

theorem delimited_intercalate {edge : Char → Bool} {others : List Char} {sep : Char}
    (hsep : sep ∈ others) {parts : List (List Char)} (hne : parts ≠ [])
    (h : ∀ p ∈ parts, delimited edge others p = true) :
    delimited edge others ([sep].intercalate parts) = true := by
  induction parts with
  | nil => exact absurd rfl hne
  | cons p parts ih =>
    cases parts with
    | nil =>
      rw [List.intercalate_singleton]
      exact h p List.mem_cons_self
    | cons q parts =>
      rw [List.intercalate_cons_cons]
      exact delimited_append hsep (h p List.mem_cons_self)
        (ih (List.cons_ne_nil q parts) fun p' hp' => h p' (List.mem_cons_of_mem p hp'))

/-- **A short name is the value of a label.** Its labels are joined by dots, which stand between the
edges of a label's value. -/
theorem LabelValue.of_subdomainName {value : String} (h : SubdomainName value)
    (hlen : value.utf8ByteSize ≤ 63) : LabelValue value := by
  obtain ⟨_, hmatch⟩ := h
  refine ⟨hlen, ?_⟩
  have hparts : ∀ p ∈ value.toList.splitOn '.', delimited isAlnum ['-', '_', '.'] p = true := by
    intro p hp
    refine delimited_mono (fun c hc => ?_) (by simp) (List.all_eq_true.mp hmatch p hp)
    rw [isAlnum, hc, Bool.true_or]
  have hdot : '.' ∈ ['-', '_', '.'] := by simp
  have hwhole := delimited_intercalate hdot (List.splitOn_ne_nil '.' value.toList) hparts
  rw [List.intercalate_splitOn] at hwhole
  rw [matchesLabelValue, hwhole, Bool.or_true]

/-! ## Names in a namespace -/

/-- Two parts joined by a separator that the first does not contain can be told apart again. -/
theorem append_separator_inj {α : Type} [DecidableEq α] {sep : α} {xs xs' ys ys' : List α}
    (hxs : sep ∉ xs) (hxs' : sep ∉ xs') (h : xs ++ sep :: ys = xs' ++ sep :: ys') :
    xs = xs' ∧ ys = ys' := by
  have hlength := congrArg (List.idxOf sep) h
  rw [List.idxOf_append_of_notMem hxs, List.idxOf_append_of_notMem hxs', List.idxOf_cons_self,
    List.idxOf_cons_self] at hlength
  obtain ⟨hfirst, hrest⟩ := List.append_inj h hlength
  exact ⟨hfirst, (List.cons.inj hrest).2⟩

end RuntimeEnforcer.Lib
