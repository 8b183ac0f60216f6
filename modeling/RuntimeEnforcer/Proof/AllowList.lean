import RuntimeEnforcer.Bpf.StringMaps
import RuntimeEnforcer.Manager.PolicyValues
import RuntimeEnforcer.Lib.Run

/-!
# One allow-list, two sides

Userspace files a value under the class of its padded length; the hook looks a path up in the map
its own arithmetic selects. The two computations are independent, and this file is about where
they meet.

The abstract state of a policy id is the list of values of the last operation on it
(`ListState.last`); `ListState.inv` is the refinement, that after any run of successful operations
the string maps hold exactly those lists. On top of it, `hookFinds_iff` says what the hook's
lookup answers: a listed value that pads to the path *and* whose length userspace files in the map
the hook consults. The two sides select the same map for every length except 121 to 144, where
`STRING_MAPS_SIZE_5` is compared with `<` on one side and `<=` on the other.
-/

set_option autoImplicit false

namespace RuntimeEnforcer

open Lib

/-! ## Runs of operations -/

/-- One call of the update function. -/
structure ValuesOp where
  id : PolicyID
  values : List Bytes
  op : PolicyValuesOperation

def ValuesOp.listed (o : ValuesOp) : List Bytes :=
  match o.op with
  | .removeValuesFromPolicy => []
  | .addValuesToPolicy | .replaceValuesInPolicy => o.values

/-- The maps, and the values of the last operation on each id. -/
structure ListState where
  world : World
  last : PolicyID → List Bytes

def ListState.init : ListState where
  world := { maps := .empty }
  last := fun _ => []

def ValuesOp.apply (env : ManagerEnv) (o : ValuesOp) (s : ListState) : ListState where
  world := after (policyUpdateBinaries env o.id o.values o.op s.world)
  last := Function.update s.last o.id o.listed

/-- The operation succeeds, and values are only added to an id that has none. -/
def ValuesOp.Succeeds (env : ManagerEnv) (s : ListState) (o : ValuesOp) : Prop :=
  isOk (policyUpdateBinaries env o.id o.values o.op s.world) = true ∧
  (o.op = .addValuesToPolicy → s.last o.id = [])

def laid (p : Bytes) : Buffer := fun i => p[i]?.getD 0

/-- Whether the hook's lookup of `p`, padded with NULs, finds an entry for `id`. -/
def hookFinds (m : BpfMaps) (id : PolicyID) (p : Bytes) : Bool :=
  Hook.stringMapLookup m (Hook.stringMapIndex (Hook.stringPaddedLen p.length)) id (laid p) 0

/-- `p` equals, up to trailing NULs, one of the values of the last operation on `id`. -/
def ListState.Listed (s : ListState) (id : PolicyID) (p : Bytes) : Prop :=
  ∃ v ∈ s.last id, stripNul v = p

/-! ## The maps hold what was last written -/

variable {env : ManagerEnv} {s : ListState} {o : ValuesOp} {ops : List ValuesOp}

/-- The refinement: the string maps are those of the last values, which are valid. -/
structure ListState.Refines (env : ManagerEnv) (s : ListState) : Prop where
  stored : ∀ id i, s.world.maps.polStrMaps i id = newClass env (s.last id) i
  valid : ∀ id, ∀ v ∈ s.last id, ValidValue env.currKernelVersion v

theorem ListState.refines_init (env : ManagerEnv) : ListState.init.Refines env :=
  ⟨fun _ _ => rfl, fun _ _ hv => absurd hv (by simp [ListState.init])⟩

theorem policyUpdateBinaries_ok (h : s.Refines env) (ho : o.Succeeds env s) :
    Writes env o.id (newClass env o.listed) s.world (o.apply env s).world ∧
      ∀ v ∈ o.listed, ValidValue env.currKernelVersion v := by
  obtain ⟨id, values, op⟩ := o
  obtain ⟨hok, hfresh⟩ := ho
  obtain ⟨u, hu⟩ := isOk_iff.mp hok
  cases op with
  | addValuesToPolicy =>
    refine (handled_ends (generateBPFMaps_ends fun i => ?_)).of_ok hu
    rw [h.stored id i, show s.last id = [] from hfresh rfl]
    rfl
  | replaceValuesInPolicy => exact (handled_ends replaceBPFMaps_ends).of_ok hu
  | removeValuesFromPolicy =>
    exact ⟨(handled_ends removeBPFMaps_ends).of_ok hu,
      fun v hv => absurd hv (by simp [ValuesOp.listed])⟩

theorem ListState.Refines.apply (h : s.Refines env) (ho : o.Succeeds env s) :
    (o.apply env s).Refines env := by
  obtain ⟨hw, hv⟩ := policyUpdateBinaries_ok h ho
  refine ⟨fun d i => ?_, fun d v hdv => ?_⟩
  · by_cases hd : d = o.id
    · subst hd
      rw [hw.stored i]
      simp [ValuesOp.apply]
    · rw [hw.between.others d hd i, h.stored d i]
      simp [ValuesOp.apply, Function.update_of_ne hd]
  · by_cases hd : d = o.id
    · subst hd
      exact hv v (by simpa [ValuesOp.apply] using hdv)
    · exact h.valid d v (by simpa [ValuesOp.apply, Function.update_of_ne hd] using hdv)

theorem ListState.refines_run (h : Along (ValuesOp.apply env) (ValuesOp.Succeeds env) ops .init) :
    (run (ValuesOp.apply env) ops .init).Refines env :=
  run_inv (fun _ _ hs ho => hs.apply ho) (ListState.refines_init env) h

/-- On a kernel that has inner maps of any size, an operation on valid values succeeds when no
call fails. -/
theorem ValuesOp.succeeds (henv : ∀ t, env.fault t = none) (hver : isKernelPre5_9 env = false)
    (hs : s.Refines env) (hv : ∀ v ∈ o.values, ValidValue env.currKernelVersion v)
    (hfresh : o.op = .addValuesToPolicy → s.last o.id = []) : o.Succeeds env s := by
  obtain ⟨id, values, op⟩ := o
  refine ⟨?_, hfresh⟩
  cases op with
  | addValuesToPolicy =>
    refine isOk_of_faultless (handled_ends (generateBPFMaps_ends fun i => ?_))
      (acceptable_of_valid hver hv) henv
    rw [hs.stored id i, show s.last id = [] from hfresh rfl]
    rfl
  | replaceValuesInPolicy =>
    exact isOk_of_faultless (handled_ends replaceBPFMaps_ends) (acceptable_of_valid hver hv) henv
  | removeValuesFromPolicy =>
    exact isOk_of_faultless (handled_ends removeBPFMaps_ends) trivial henv

/-! ## Where the two sides meet -/

variable {id : PolicyID} {p : Bytes}

/-- A value of `v` bytes is filed in the map the hook consults for a path of `p` bytes. -/
def Aligned (v p : Nat) : Prop :=
  p ≤ 120 ∧ (v - 1) / 24 = (p - 1) / 24 ∨
  121 ≤ p ∧ p ≤ 143 ∧ 2049 ≤ v ∨
  144 ≤ p ∧ p ≤ 256 ∧ 145 ≤ v ∧ v ≤ 256 ∨
  257 ≤ p ∧ p ≤ 512 ∧ 257 ≤ v ∧ v ≤ 512 ∨
  513 ≤ p ∧ p ≤ 1024 ∧ 513 ≤ v ∧ v ≤ 1024 ∨
  1025 ≤ p ∧ p ≤ 2048 ∧ 1025 ≤ v ∧ v ≤ 2048 ∨
  2049 ≤ p ∧ 2049 ≤ v

theorem filed_val {len : Nat} (h : 1 ≤ len) :
    (filed len).map Fin.val = some (if len ≤ 144 then (len - 1) / 24 else if len ≤ 256 then 6
      else if len ≤ 512 then 7 else if len ≤ 1024 then 8 else if len ≤ 2048 then 9 else 10) := by
  by_cases h144 : len ≤ 144
  · rw [filed_small h h144, if_pos h144]
  · rw [filed_large (by omega), if_neg h144]
    split_ifs <;> rfl

theorem consulted_val {len : Nat} (h : 1 ≤ len) :
    (Hook.consulted len).map Fin.val = some (if len ≤ 120 then (len - 1) / 24
      else if len ≤ 143 then 10 else if len ≤ 256 then 6 else if len ≤ 512 then 7
      else if len ≤ 1024 then 8 else if len ≤ 2048 then 9 else 10) := by
  by_cases h120 : len ≤ 120
  · rw [Hook.consulted_small h h120, if_pos h120]
  · rw [if_neg h120]
    by_cases h143 : len ≤ 143
    · rw [Hook.consulted_gap (by omega) h143, if_pos h143]
      rfl
    · rw [Hook.consulted_large (by omega), if_neg h143]
      split_ifs <;> rfl

theorem filed_eq_consulted_iff {v p : Nat} (hv : 1 ≤ v) (hp : 1 ≤ p) :
    filed v = Hook.consulted p ↔ Aligned v p := by
  rw [← (Option.map_injective Fin.val_injective).eq_iff, filed_val hv, consulted_val hp,
    Option.some.injEq]
  unfold Aligned
  split_ifs <;> omega

/-- A value with the length of the path is filed where the hook looks, except in one gap. -/
theorem aligned_self_iff {n : Nat} : Aligned n n ↔ ¬ (121 ≤ n ∧ n ≤ 144) := by
  unfold Aligned
  omega

theorem window_laid (p : Bytes) (n : Nat) : (laid p).window 0 n = (padTo n p).toList := by
  refine List.ext_getElem? fun i => ?_
  rw [Buffer.getElem?_window, getElem?_padTo, laid, Nat.zero_add]

/-- One of `values` is the key that starts at `pos` in `buf`, and is filed in the map `index`. -/
def Lists (values : List Bytes) (index : Int) (buf : Buffer) (pos : Nat) : Prop :=
  ∃ i, Hook.outerMap index = some i ∧ ∃ v ∈ values, filed v.length = some i ∧
    (padTo (stringMapsSizes i) v).toList = buf.window pos (stringMapsSizes i)

theorem stringMapLookup_iff_lists {m : BpfMaps} {values : List Bytes} {index : Int} {buf : Buffer}
    {pos : Nat} (h : Holds m id values) :
    Hook.stringMapLookup m index id buf pos = true ↔ Lists values index buf pos := by
  rw [Hook.stringMapLookup_iff]
  constructor
  · rintro ⟨i, hi, inner, hin, key, hkey, hwin⟩
    obtain ⟨v, hv, hf, rfl⟩ := (h i key).mp ⟨inner, hin, hkey⟩
    exact ⟨i, hi, v, hv, hf, hwin⟩
  · rintro ⟨i, hi, v, hv, hf, hwin⟩
    obtain ⟨inner, hin, hkey⟩ := (h i _).mpr ⟨v, hv, hf, rfl⟩
    exact ⟨i, hi, inner, hin, _, hkey, hwin⟩

theorem hookFinds_iff {m : BpfMaps} {values : List Bytes} (hm : Holds m id values)
    (hv : ∀ v ∈ values, 1 ≤ v.length ∧ v.length ≤ 4096) (h₁ : 1 ≤ p.length) (h₂ : p.length ≤ 4096)
    (hp : 0 ∉ p) :
    hookFinds m id p = true ↔
      ∃ v ∈ values, stripNul v = p ∧ Aligned v.length p.length := by
  unfold hookFinds
  rw [stringMapLookup_iff_lists hm]
  -- the key is the padded path, and padding forgets trailing NULs only
  have hkey : ∀ i, Hook.consulted p.length = some i → ∀ v ∈ values, filed v.length = some i →
      ((padTo (stringMapsSizes i) v).toList = (laid p).window 0 (stringMapsSizes i) ↔
        stripNul v = p) := by
    intro i hi v hvm hf
    have hpad := padTo_eq_padTo_iff (le_of_filed (hv v hvm).2 hf) (Hook.le_of_consulted h₁ h₂ hi)
    rw [stripNul_of_nulFree hp] at hpad
    rw [window_laid, ← hpad]
    exact ⟨fun h => List.Vector.eq _ _ h, fun h => congrArg _ h⟩
  constructor
  · rintro ⟨i, hi, v, hvm, hf, hwin⟩
    exact ⟨v, hvm, (hkey i hi v hvm hf).mp hwin,
      (filed_eq_consulted_iff (hv v hvm).1 h₁).mp (hf.trans hi.symm)⟩
  · rintro ⟨v, hvm, hstrip, hal⟩
    have hsame := (filed_eq_consulted_iff (hv v hvm).1 h₁).mpr hal
    obtain ⟨i, hi⟩ := Option.isSome_iff_exists.mp (Hook.consulted_isSome h₁)
    exact ⟨i, hi, v, hvm, hsame.trans hi, (hkey i hi v hvm (hsame.trans hi)).mpr hstrip⟩

theorem hookFinds_run_iff (hops : Along (ValuesOp.apply env) (ValuesOp.Succeeds env) ops .init)
    (h₁ : 1 ≤ p.length) (h₂ : p.length ≤ 4096) (hp : 0 ∉ p) :
    hookFinds (run (ValuesOp.apply env) ops .init).world.maps id p = true ↔
      ∃ v ∈ (run (ValuesOp.apply env) ops .init).last id,
        stripNul v = p ∧ Aligned v.length p.length := by
  have href := ListState.refines_run hops
  refine hookFinds_iff (holds_of_newClass (href.valid id) (href.stored id)) ?_ h₁ h₂ hp
  intro v hv
  have := href.valid id v hv
  exact ⟨this.1, this.2.trans (maxValueLen_le _)⟩

/-! ## The agreement, and where it fails -/

/-- **The hook consults the list userspace wrote, exactly when the lengths line up.** After any
run of successful operations, and for every path without NULs: the lookup answers what the list
says if and only if the path is not listed, or is listed by a value whose length is filed where
the hook looks. -/
theorem hookFinds_iff_listed_iff {env : ManagerEnv} {ops : List ValuesOp}
    (hops : Along (ValuesOp.apply env) (ValuesOp.Succeeds env) ops .init) (id : PolicyID)
    {p : Bytes} (h₁ : 1 ≤ p.length) (h₂ : p.length ≤ 4096) (hp : 0 ∉ p) :
    (hookFinds (run (ValuesOp.apply env) ops .init).world.maps id p = true ↔
      (run (ValuesOp.apply env) ops .init).Listed id p) ↔
    ((∀ v ∈ (run (ValuesOp.apply env) ops .init).last id, stripNul v ≠ p) ∨
      ∃ v ∈ (run (ValuesOp.apply env) ops .init).last id,
        stripNul v = p ∧ Aligned v.length p.length) := by
  rw [hookFinds_run_iff hops h₁ h₂ hp]
  constructor
  · intro h
    by_cases hl : (run (ValuesOp.apply env) ops .init).Listed id p
    · exact Or.inr (h.mpr hl)
    · exact Or.inl fun v hv hs => hl ⟨v, hv, hs⟩
  · rintro (hno | hyes)
    · exact ⟨fun ⟨v, hv, hs, _⟩ => absurd hs (hno v hv), fun ⟨v, hv, hs⟩ => absurd hs (hno v hv)⟩
    · exact ⟨fun ⟨v, hv, hs, _⟩ => ⟨v, hv, hs⟩, fun _ => hyes⟩

def addOne (p : Bytes) : ValuesOp where
  id := 1
  values := [p]
  op := .addValuesToPolicy

theorem addOne_succeeds (h₁ : 1 ≤ p.length) (h₂ : p.length ≤ 4096) :
    Along (ValuesOp.apply .calm) (ValuesOp.Succeeds .calm) [addOne p] .init := by
  refine
    ⟨ValuesOp.succeeds (fun _ => rfl) rfl (ListState.refines_init _) ?_ (fun _ => rfl), trivial⟩
  intro v hv
  rw [List.mem_singleton.mp hv]
  exact ⟨h₁, h₂⟩

theorem addOne_last (p : Bytes) : (run (ValuesOp.apply .calm) [addOne p] .init).last 1 = [p] := rfl

theorem hookFinds_sh :
    hookFinds (run (ValuesOp.apply .calm) [addOne [0x2f, 0x73, 0x68]] .init).world.maps 1
        [0x2f, 0x73, 0x68] = true ↔
      (run (ValuesOp.apply .calm) [addOne [0x2f, 0x73, 0x68]] .init).Listed 1 [0x2f, 0x73, 0x68] :=
  (hookFinds_iff_listed_iff (addOne_succeeds (by decide) (by decide)) 1 (by decide) (by decide)
    (by decide)).mpr
    (Or.inr ⟨_, List.mem_singleton.mpr rfl, by decide, Or.inl (by decide)⟩)

def path130 : Bytes := 0x2f :: List.replicate 129 0x61

/-- It is added to a fresh policy, and the hook does not find it: userspace files it in the sixth
map, and the hook consults the last. -/
theorem hookFinds_path130 :
    Along (ValuesOp.apply .calm) (ValuesOp.Succeeds .calm) [addOne path130] .init ∧
    path130.length = 130 ∧ 0 ∉ path130 ∧
    (run (ValuesOp.apply .calm) [addOne path130] .init).Listed 1 path130 ∧
    hookFinds (run (ValuesOp.apply .calm) [addOne path130] .init).world.maps 1 path130 = false := by
  have hlen : path130.length = 130 := by simp [path130]
  have hnul : 0 ∉ path130 := by simp [path130]
  have hops := addOne_succeeds (p := path130) (by omega) (by omega)
  refine ⟨hops, hlen, hnul, ⟨path130, ?_, stripNul_of_nulFree hnul⟩, ?_⟩
  · rw [addOne_last]; simp
  · rw [Bool.eq_false_iff]
    intro hfind
    obtain ⟨v, hv, _, hal⟩ := (hookFinds_run_iff hops (by omega) (by omega) hnul).mp hfind
    rw [addOne_last, List.mem_singleton] at hv
    rw [hv, aligned_self_iff] at hal
    omega

end RuntimeEnforcer
