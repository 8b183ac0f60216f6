import RuntimeEnforcer.Manager.CgWalk

/-!
# Nested cgroups and the walk that looks for them

A cgroup created below a container is tracked by the hook if its parent has an entry by then, and
otherwise by the walk, if the walk still comes to see it. Between the two lies a gap: the hook runs
before the parent is tracked, the walk tracks the parent and reads its directory, and only then
does the new directory become visible. Nobody tracks it after that.

`Covers` is the invariant of a walk that never reads a directory inside such a gap: each cgroup has
its entry, or is about to be visited, or lies below a directory the walk has still to read.
`Missed` is the invariant of a walk that did.
-/

set_option autoImplicit false

namespace RuntimeEnforcer

open Lib Hook

namespace CgWalk

variable {d : Dir} {e : Event}

/-- The directory a step of the walk is about. -/
def Item.dir? : Item → Option Dir
  | .insert => none
  | .visit d => some d
  | .read d => some d

/-- The directories the walk has listed and not read yet. -/
def State.left (s : State) : List Dir := s.todo.filterMap Item.dir?

section

variable {s : State} {d e : Dir} {rest : List Item}

theorem left_of_insert (h : s.todo = .insert :: rest) : s.left = rest.filterMap Item.dir? := by
  simp only [State.left, h, List.filterMap_cons, Item.dir?]

theorem left_of_visit (h : s.todo = .visit d :: rest) :
    s.left = d :: rest.filterMap Item.dir? := by
  simp only [State.left, h, List.filterMap_cons, Item.dir?]

theorem left_of_read (h : s.todo = .read d :: rest) : s.left = d :: rest.filterMap Item.dir? := by
  simp only [State.left, h, List.filterMap_cons, Item.dir?]

theorem left_of_children (h : s.todo = (s.children d).map .visit ++ rest) :
    s.left = s.children d ++ rest.filterMap Item.dir? := by
  simp only [State.left, h, List.filterMap_append, List.filterMap_map, Function.comp_def, Item.dir?,
    List.filterMap_some]

end

/-- The walk does not read a directory that has a child which was created before it was tracked
and is not visible yet. -/
def InTime (root : Dir) (s : State) : Event → Prop
  | .walk => ∀ x ∈ s.created, ∀ d, s.todo.head? = some (.read d) → x.parent = d.id →
    s.maps.cgtracker x.id = some root.id
  | _ => True

/-- The tree, and the walk's place in it. What is listed was found in a directory that has been
read. -/
structure Shape (root : Dir) (s : State) : Prop where
  ids : ((s.dirs ++ s.created).map Dir.id).Nodup
  id_ne : ∀ x ∈ s.dirs ++ s.created, x.id ≠ 0 ∧ x.id ≠ root.id
  parent_ne : ∀ x ∈ s.dirs ++ s.created, x.parent ≠ 0 ∧ x.parent ≠ x.id
  left_nodup : s.left.Nodup
  left_fresh : ∀ d ∈ s.left, .read d ∉ s.done
  listed : ∀ d, d ∈ s.left ∨ .read d ∈ s.done →
    d = root ∨ d ∈ s.dirs ∧ ∃ p, .read p ∈ s.done ∧ p.id = d.parent

section

variable {hasAncestors : Bool} {root : Dir} {s : State}

theorem Shape.eq_of_id (h : Shape root s) {x y : Dir} (hx : x ∈ s.dirs ++ s.created)
    (hy : y ∈ s.dirs ++ s.created) (hid : x.id = y.id) : x = y :=
  List.inj_on_of_nodup_map h.ids hx hy hid

theorem Shape.listed_eq (h : Shape root s) {p : Dir} (hp : p ∈ s.left ∨ .read p ∈ s.done)
    (hd : d ∈ s.left ∨ .read d ∈ s.done) (hid : p.id = d.id) : p = d := by
  rcases h.listed p hp with rfl | ⟨hp', _⟩
  · rcases h.listed d hd with rfl | ⟨hd', _⟩
    · rfl
    · exact absurd hid.symm (h.id_ne d (List.mem_append_left _ hd')).2
  · rcases h.listed d hd with rfl | ⟨hd', _⟩
    · exact absurd hid (h.id_ne p (List.mem_append_left _ hp')).2
    · exact h.eq_of_id (List.mem_append_left _ hp') (List.mem_append_left _ hd') hid

theorem Shape.child_unlisted (h : Shape root s) {c : Dir} (hd : d ∈ s.left)
    (hc : c ∈ s.dirs ++ s.created) (hparent : c.parent = d.id) :
    ¬ (c ∈ s.left ∨ .read c ∈ s.done) := by
  intro hlisted
  rcases h.listed c hlisted with rfl | ⟨_, p, hp, hpid⟩
  · exact (h.id_ne c hc).2 rfl
  · have hpd : p = d := h.listed_eq (.inr hp) (.inl hd) (hpid.trans hparent)
    exact h.left_fresh d hd (hpd ▸ hp)

theorem Shape.init {maps : BpfMaps} {dirs : List Dir} (hroot : root.id ≠ 0)
    (htree : Tree root dirs) : Shape root (start root maps dirs) := by
  have hdirs : (dirs.map Dir.id).Nodup ∧ (∀ x ∈ dirs, x.id ≠ 0 ∧ x.id ≠ root.id) ∧
      ∀ x ∈ dirs, x.parent ≠ 0 ∧ x.parent ≠ x.id := by
    induction htree with
    | nil => simp
    | @cons d ds _ id_ne ne_root fresh parent ih =>
      obtain ⟨hnd, hid, hpar⟩ := ih
      have hd : d.parent ≠ 0 ∧ d.parent ≠ d.id := by
        rcases parent with hp | ⟨p, hp, hpid⟩
        · exact ⟨hp ▸ hroot, fun h => ne_root (h ▸ hp)⟩
        · exact ⟨hpid ▸ (hid p hp).1, fun h => fresh p hp (hpid.trans h)⟩
      refine ⟨?_, ?_, ?_⟩
      · rw [List.map_cons, List.nodup_cons]
        refine ⟨fun hmem => ?_, hnd⟩
        obtain ⟨e, he, heid⟩ := List.mem_map.mp hmem
        exact fresh e he heid
      · exact List.forall_mem_cons.mpr ⟨⟨id_ne, ne_root⟩, hid⟩
      · exact List.forall_mem_cons.mpr ⟨hd, hpar⟩
  refine ⟨by simpa [start] using hdirs.1, by simpa [start] using hdirs.2.1,
    by simpa [start] using hdirs.2.2, ?_, ?_, ?_⟩
  · exact List.nodup_singleton root
  · simp [start]
  · intro d hd
    have hd' : d ∈ [root] := hd.resolve_right (by simp [start])
    exact .inl (List.mem_singleton.mp hd')

/-! ## One step -/

theorem Shape.advance (h : Shape root s) {s' : State} (hdirs : s'.dirs = s.dirs)
    (hcreated : s'.created = s.created) (hleft : s'.left = s.left)
    (hread : ∀ d, .read d ∈ s'.done ↔ .read d ∈ s.done) : Shape root s' where
  ids := by rw [hdirs, hcreated]; exact h.ids
  id_ne := by rw [hdirs, hcreated]; exact h.id_ne
  parent_ne := by rw [hdirs, hcreated]; exact h.parent_ne
  left_nodup := hleft ▸ h.left_nodup
  left_fresh d hd := by rw [hread]; exact h.left_fresh d (hleft ▸ hd)
  listed d hd := by
    rw [hleft, hread] at hd
    simp only [hread, hdirs]
    exact h.listed d hd

theorem Shape.walk (h : Shape root s) : Shape root (s.walk root) := by
  unfold State.walk
  split
  · exact h
  · next rest htodo =>
    exact h.advance rfl rfl (left_of_insert htodo).symm (by simp)
  · next d rest htodo =>
    exact h.advance rfl rfl (left_of_visit htodo).symm (by simp)
  · next d rest htodo =>
    have hleft := left_of_read htodo
    have hd : d ∈ s.left := by simp [hleft]
    have hleft' : State.left
        { s with
          todo := (s.children d).map Item.visit ++ rest
          done := .read d :: s.done } = s.children d ++ rest.filterMap Item.dir? :=
      left_of_children rfl
    have hnd := hleft ▸ h.left_nodup
    have hchild : ∀ c ∈ s.children d, ¬ (c ∈ s.left ∨ .read c ∈ s.done) := fun c hc =>
      h.child_unlisted hd (List.mem_append_left _ (mem_children.mp hc).1) (mem_children.mp hc).2
    refine ⟨h.ids, h.id_ne, h.parent_ne, ?_, fun e he => ?_, fun e he => ?_⟩
    · rw [hleft', List.nodup_append']
      refine ⟨?_, (List.nodup_cons.mp hnd).2, fun c hc hr => ?_⟩
      · have hdirs : s.dirs.Nodup := ((List.nodup_append.mp (List.map_append ▸ h.ids)).1).of_map
        exact ((List.mergeSort_perm _ _).nodup_iff).mpr (hdirs.filter _)
      · exact hchild c hc (.inl (hleft ▸ List.mem_cons_of_mem d hr))
    · rw [hleft', List.mem_append] at he
      simp only [List.mem_cons, Item.read.injEq, not_or]
      rcases he with he | he
      · have hunl := hchild e he
        refine ⟨fun hed => hunl (.inl (hed ▸ hd)), fun hr => hunl (.inr hr)⟩
      · refine ⟨fun hed => (List.nodup_cons.mp hnd).1 (hed ▸ he), ?_⟩
        exact h.left_fresh e (hleft ▸ List.mem_cons_of_mem d he)
    · -- a child was found in `d`; anything else was listed before
      have hold : e ∈ s.left ∨ .read e ∈ s.done →
          e = root ∨ e ∈ s.dirs ∧ ∃ p, .read p ∈ .read d :: s.done ∧ p.id = e.parent := fun hl =>
        (h.listed e hl).imp_right fun ⟨hm, p, hp, hpid⟩ =>
          ⟨hm, p, List.mem_cons_of_mem _ hp, hpid⟩
      rw [hleft', List.mem_append, List.mem_cons, Item.read.injEq] at he
      rcases he with (he | he) | rfl | he
      · obtain ⟨hm, hp⟩ := mem_children.mp he
        exact .inr ⟨hm, d, List.mem_cons_self, hp.symm⟩
      · exact hold (.inl (hleft ▸ List.mem_cons_of_mem d he))
      · exact hold (.inl hd)
      · exact hold (.inr he)

theorem Shape.mkdir (hroot : root.id ≠ 0) (h : Shape root s) (hl : Legal root s (.mkdir d)) :
    Shape root (step hasAncestors root (.mkdir d) s) := by
  obtain ⟨hid, hne, hfresh, hparent⟩ := hl
  have hperm : (s.dirs ++ d :: s.created).Perm (d :: (s.dirs ++ s.created)) := List.perm_middle
  have hd : d.parent ≠ 0 ∧ d.parent ≠ d.id := by
    rcases hparent with hp | ⟨p, hp, hpid⟩
    · exact ⟨hp ▸ hroot, fun h => hne (h ▸ hp)⟩
    · exact ⟨hpid ▸ (h.id_ne p hp).1, fun h => hfresh p hp (hpid.trans h)⟩
  refine ⟨?_, fun x hx => ?_, fun x hx => ?_, h.left_nodup, h.left_fresh, h.listed⟩
  · refine (hperm.map Dir.id).nodup_iff.mpr (List.nodup_cons.mpr ⟨fun hmem => ?_, h.ids⟩)
    obtain ⟨e, he, heid⟩ := List.mem_map.mp hmem
    exact hfresh e he heid
  · rcases List.mem_cons.mp (hperm.mem_iff.mp hx) with rfl | hx
    · exact ⟨hid, hne⟩
    · exact h.id_ne x hx
  · rcases List.mem_cons.mp (hperm.mem_iff.mp hx) with rfl | hx
    · exact hd
    · exact h.parent_ne x hx

theorem perm_activate (hd : d ∈ s.created) :
    (d :: s.dirs ++ s.created.erase d).Perm (s.dirs ++ s.created) :=
  List.perm_middle.symm.trans ((List.perm_cons_erase hd).symm.append_left s.dirs)

theorem Shape.activate (h : Shape root s) (hd : d ∈ s.created) :
    Shape root (step hasAncestors root (.activate d) s) where
  ids := ((perm_activate hd).map Dir.id).nodup_iff.mpr h.ids
  id_ne x hx := h.id_ne x ((perm_activate hd).mem_iff.mp hx)
  parent_ne x hx := h.parent_ne x ((perm_activate hd).mem_iff.mp hx)
  left_nodup := h.left_nodup
  left_fresh := h.left_fresh
  listed e he := (h.listed e he).imp_right fun hm => ⟨List.mem_cons_of_mem d hm.1, hm.2⟩

theorem Shape.step (hroot : root.id ≠ 0) (h : Shape root s) (hl : Legal root s e) :
    Shape root (step hasAncestors root e s) := by
  cases e with
  | walk => exact h.walk
  | mkdir d => exact h.mkdir hroot hl
  | activate d => exact h.activate hl

end

/-! ## A walk that reads in time -/

/-- The walk will still come to read the directory `c`: it is listed, or its parent will be read
and it will be found there. -/
inductive Reach (root : Dir) (s : State) : CgroupID → Prop
  | listed {d : Dir} (h : d ∈ s.left) : Reach root s d.id
  | child {y : Dir}
      (hy : y ∈ s.dirs ∨ y ∈ s.created ∧ s.maps.cgtracker y.id ≠ some root.id)
      (h : Reach root s y.parent) : Reach root s y.id

/-- Every cgroup has its entry or will get it from the walk. -/
structure Covers (root : Dir) (s : State) : Prop where
  own : s.maps.cgtracker root.id = some root.id ∨ s.todo = [.insert, .visit root]
  below : ∀ x ∈ s.dirs ++ s.created, s.maps.cgtracker x.id = some root.id ∨
    .visit x ∈ s.todo ∨ Reach root s x.parent

section

variable {rest : List Item}

variable {hasAncestors : Bool} {root : Dir} {s s' : State}

theorem Reach.mono (hleft : ∀ d ∈ s.left, Reach root s' d.id)
    (hstep : ∀ y, y ∈ s.dirs ∨ y ∈ s.created ∧ s.maps.cgtracker y.id ≠ some root.id →
      Reach root s' y.id ∨ y ∈ s'.dirs ∨
        y ∈ s'.created ∧ s'.maps.cgtracker y.id ≠ some root.id) {c : CgroupID}
    (h : Reach root s c) : Reach root s' c := by
  induction h with
  | listed h => exact hleft _ h
  | child hy _ ih =>
    rcases hstep _ hy with hr | hy'
    · exact hr
    · exact .child hy' ih

theorem Reach.read (htodo : s.todo = .read d :: rest) (hin : InTime root s .walk) {c : CgroupID}
    (h : Reach root s c) : c = d.id ∨ Reach root (s.walk root) c := by
  have hwalk : s.walk root = { s with
      todo := (s.children d).map Item.visit ++ rest
      done := .read d :: s.done } := by simp [State.walk, htodo]
  rw [hwalk]
  induction h with
  | @listed e he =>
    rw [State.left, htodo, List.filterMap_cons, Item.dir?] at he
    rcases List.mem_cons.mp he with rfl | he
    · exact .inl rfl
    · refine .inr (.listed ?_)
      simp only [State.left, List.filterMap_append, List.mem_append]
      exact .inr he
  | @child y hy _ ih =>
    rcases ih with hyd | hr
    · rcases hy with hy | ⟨hy, hne⟩
      · refine .inr (.listed ?_)
        simp only [State.left, List.filterMap_append, List.mem_append, List.filterMap_map,
          List.mem_filterMap]
        exact .inl ⟨y, mem_children.mpr ⟨hy, hyd⟩, rfl⟩
      · exact absurd (hin y hy d (by simp [htodo]) hyd) hne
    · exact .inr (.child hy hr)

theorem Covers.init {maps : BpfMaps} {dirs : List Dir} (htree : Tree root dirs) :
    Covers root (start root maps dirs) := by
  refine ⟨.inr rfl, fun x hx => .inr (.inr ?_)⟩
  have hroot : Reach root (start root maps dirs) root.id :=
    .listed (by simp [start, State.left, Item.dir?])
  -- from the root down, along the order the tree was built in
  have hdown : ∀ ds, Tree root ds → (∀ d ∈ ds, d ∈ dirs) →
      ∀ d ∈ ds, Reach root (start root maps dirs) d.parent := by
    intro ds hds
    induction hds with
    | nil => simp
    | @cons d ds _ _ _ _ parent ih =>
      intro hsub
      have hrest := ih fun e he => hsub e (List.mem_cons_of_mem d he)
      refine List.forall_mem_cons.mpr ⟨?_, hrest⟩
      rcases parent with hp | ⟨p, hp, hpid⟩
      · exact hp ▸ hroot
      · rw [← hpid]
        exact .child (.inl (hsub p (List.mem_cons_of_mem d hp))) (hrest p hp)
  exact hdown dirs htree (fun _ h => h) x (by simpa [start] using hx)

variable (h : Covers root s)

include h

theorem Covers.insert (hshape : Shape root s) (htodo : s.todo = .insert :: rest) :
    Covers root (s.walk root) := by
  have hwalk : s.walk root = { s with
      maps := s.maps.setCgtracker root.id root.id
      todo := rest
      done := .insert :: s.done } := by simp [State.walk, htodo]
  rw [hwalk]
  have hentry : ∀ x ∈ s.dirs ++ s.created,
      (s.maps.setCgtracker root.id root.id).cgtracker x.id = s.maps.cgtracker x.id := fun x hx =>
    Function.update_of_ne (hshape.id_ne x hx).2 _ _
  refine ⟨.inl (Function.update_self _ _ _), fun x hx => ?_⟩
  rcases h.below x hx with hx' | hx' | hx'
  · exact .inl ((hentry x hx).trans hx')
  · rw [htodo] at hx'
    exact .inr (.inl ((List.mem_cons.mp hx').resolve_left (by simp)))
  · refine .inr (.inr (Reach.mono (fun d hd => ?_) (fun y hy => ?_) hx'))
    · exact .listed (left_of_insert htodo ▸ hd :)
    · refine .inr (hy.imp_right fun hy => ⟨hy.1, ?_⟩)
      rw [hentry y (List.mem_append_right _ hy.1)]
      exact hy.2

theorem Covers.visit (htodo : s.todo = .visit d :: rest) : Covers root (s.walk root) := by
  have hwalk : s.walk root = { s with
      maps := if d.id = root.id then s.maps else s.maps.setCgtracker d.id root.id
      todo := .read d :: rest
      done := .visit d :: s.done } := by simp [State.walk, htodo]
  rw [hwalk]
  have hd : d ∈ s.left := by simp [State.left, htodo, Item.dir?]
  have hown : s.maps.cgtracker root.id = some root.id :=
    h.own.resolve_right (by simp [htodo])
  have hself : (if d.id = root.id then s.maps else
      s.maps.setCgtracker d.id root.id).cgtracker d.id = some root.id := by
    split
    · next hr => rw [hr, hown]
    · exact Function.update_self _ _ _
  have hother : ∀ c, c ≠ d.id → (if d.id = root.id then s.maps else
      s.maps.setCgtracker d.id root.id).cgtracker c = s.maps.cgtracker c := by
    intro c hc
    split
    · rfl
    · exact Function.update_of_ne hc _ _
  have hreach : ∀ c, Reach root s c → Reach root { s with
      maps := if d.id = root.id then s.maps else s.maps.setCgtracker d.id root.id
      todo := .read d :: rest
      done := .visit d :: s.done } c := by
    have hlisted : ∀ e ∈ s.left, Reach root { s with
        maps := if d.id = root.id then s.maps else s.maps.setCgtracker d.id root.id
        todo := .read d :: rest
        done := .visit d :: s.done } e.id := by
      intro e he
      refine .listed ?_
      simpa [State.left, htodo, Item.dir?] using he
    intro c hc
    refine Reach.mono hlisted (fun y hy => ?_) hc
    by_cases hyd : y.id = d.id
    · exact .inl (hyd ▸ hlisted d hd)
    · exact .inr (hy.imp_right fun hy => ⟨hy.1, (hother y.id hyd).symm ▸ hy.2⟩)
  refine ⟨.inl ?_, fun x hx => ?_⟩
  · by_cases hr : root.id = d.id
    · exact hr ▸ hself
    · exact (hother root.id hr).trans hown
  · by_cases hxd : x.id = d.id
    · exact .inl (hxd ▸ hself)
    rcases h.below x hx with hx' | hx' | hx'
    · exact .inl ((hother x.id hxd).trans hx')
    · rw [htodo] at hx'
      rcases List.mem_cons.mp hx' with heq | hx'
      · exact absurd (congrArg Dir.id (Item.visit.inj heq)) hxd
      · exact .inr (.inl (List.mem_cons_of_mem _ hx'))
    · exact .inr (.inr (hreach _ hx'))

theorem Covers.read (htodo : s.todo = .read d :: rest) (hin : InTime root s .walk) :
    Covers root (s.walk root) := by
  have hwalk : s.walk root = { s with
      todo := (s.children d).map Item.visit ++ rest
      done := .read d :: s.done } := by simp [State.walk, htodo]
  have hown : s.maps.cgtracker root.id = some root.id :=
    h.own.resolve_right (by simp [htodo])
  refine ⟨.inl (by rw [hwalk]; exact hown), fun x hx => ?_⟩
  rw [hwalk] at hx
  rcases h.below x hx with hx' | hx' | hx'
  · exact .inl (by rw [hwalk]; exact hx')
  · rw [htodo] at hx'
    have hrest : .visit x ∈ rest := (List.mem_cons.mp hx').resolve_left (by simp)
    exact .inr (.inl (by rw [hwalk]; exact List.mem_append_right _ hrest))
  · rcases hx'.read htodo hin with hp | hr
    · -- `x` lies in the directory just read: it is seen, or was tracked by its hook
      rcases List.mem_append.mp hx with hdir | hcr
      · refine .inr (.inl ?_)
        rw [hwalk]
        exact List.mem_append_left _ (List.mem_map_of_mem (mem_children.mpr ⟨hdir, hp⟩))
      · exact .inl (by rw [hwalk]; exact hin x hcr d (by simp [htodo]) hp)
    · exact .inr (.inr hr)

theorem Covers.mkdir (hshape : Shape root s) (hroot : root.id ≠ 0) (hl : Legal root s (.mkdir d)) :
    Covers root (step hasAncestors root (.mkdir d) s) := by
  obtain ⟨hid, hne, hfresh, hparent⟩ := hl
  have hp0 : d.parent ≠ 0 := by
    rcases hparent with hp | ⟨p, hp, hpid⟩
    · exact hp ▸ hroot
    · exact hpid ▸ (hshape.id_ne p hp).1
  have hself : (step hasAncestors root (.mkdir d) s).maps.cgtracker d.id
      = (s.maps.cgtracker d.parent).or (s.maps.cgtracker d.id) := by
    rw [cgtracker_step_mkdir hid hp0, if_pos rfl]
  have hother : ∀ c, c ≠ d.id →
      (step hasAncestors root (.mkdir d) s).maps.cgtracker c = s.maps.cgtracker c := fun c hc => by
    rw [cgtracker_step_mkdir hid hp0, if_neg hc]
  have hreach : ∀ c, Reach root s c → Reach root (step hasAncestors root (.mkdir d) s) c := by
    intro c hc
    refine Reach.mono ?_ ?_ hc
    · exact fun e he => .listed he
    · refine fun y hy => .inr (hy.imp_right fun hy => ⟨List.mem_cons_of_mem d hy.1, ?_⟩)
      rw [hother y.id (hfresh y (List.mem_append_right _ hy.1))]
      exact hy.2
  refine ⟨h.own.imp_left fun ho => (hother root.id hne.symm).trans ho, fun x hx => ?_⟩
  have hx' : x = d ∨ x ∈ s.dirs ++ s.created :=
    List.mem_cons.mp (List.perm_middle.mem_iff.mp hx)
  rcases hx' with rfl | hx'
  · -- the parent is tracked, or the walk will come to read it
    by_cases hentry : s.maps.cgtracker x.parent = some root.id
    · exact .inl (by rw [hself, hentry]; rfl)
    refine .inr (.inr (hreach _ ?_))
    rcases hparent with hp | ⟨p, hp, hpid⟩
    · have htodo := h.own.resolve_left (hp ▸ hentry)
      exact hp ▸ .listed (by simp [State.left, htodo, Item.dir?])
    · rw [← hpid] at hentry ⊢
      rcases (h.below p hp).resolve_left hentry with hv | hr
      · exact .listed (List.mem_filterMap.mpr ⟨_, hv, rfl⟩)
      · exact .child ((List.mem_append.mp hp).imp_right fun hc => ⟨hc, hentry⟩) hr
  · have hxd := hfresh x hx'
    rcases h.below x hx' with hb | hb | hb
    · exact .inl ((hother x.id hxd).trans hb)
    · exact .inr (.inl hb)
    · exact .inr (.inr (hreach _ hb))

theorem Covers.activate (hd : d ∈ s.created) :
    Covers root (step hasAncestors root (.activate d) s) := by
  refine ⟨h.own, fun x hx => ?_⟩
  rcases h.below x ((perm_activate hd).mem_iff.mp hx) with hb | hb | hb
  · exact .inl hb
  · exact .inr (.inl hb)
  · refine .inr (.inr (Reach.mono ?_ (fun y hy => .inr ?_) hb))
    · exact fun e he => .listed he
    · rcases hy with hy | ⟨hy, hne⟩
      · exact .inl (List.mem_cons_of_mem d hy)
      · by_cases hyd : y = d
        · exact .inl (by simp [step, hyd])
        · exact .inr ⟨(List.mem_erase_of_ne hyd).mpr hy, hne⟩

theorem Covers.step (hroot : root.id ≠ 0) (hshape : Shape root s) (hl : Legal root s e)
    (hin : InTime root s e) : Covers root (step hasAncestors root e s) := by
  cases e with
  | walk =>
    show Covers root (s.walk root)
    cases htodo : s.todo with
    | nil => simpa [State.walk, htodo] using h
    | cons i rest =>
      cases i with
      | insert => exact h.insert hshape htodo
      | visit d => exact h.visit htodo
      | read d => exact h.read htodo hin
  | mkdir d => exact h.mkdir hshape hroot hl
  | activate d => exact h.activate hl

theorem Covers.allTracked (hfin : s.Finished) : s.AllTracked root := by
  have hnone : ∀ c, ¬ Reach root s c := by
    intro c hc
    induction hc with
    | listed h => simp [State.left, hfin.1] at h
    | child _ _ ih => exact ih
  refine ⟨h.own.resolve_right (by simp [hfin.1]), fun d hd => ?_⟩
  rcases h.below d (List.mem_append_left _ hd) with hb | hb | hb
  · exact hb
  · simp [hfin.1] at hb
  · exact absurd hb (hnone _)

end

/-! ## A walk that does not -/

/-- Nobody will track `x` any more: its hook has run, and the walk has read its parent without
seeing it. -/
structure Missed (root : Dir) (x : Dir) (s : State) : Prop where
  mem : x ∈ s.dirs ++ s.created
  parent : ∃ p, .read p ∈ s.done ∧ p.id = x.parent
  unlisted : x ∉ s.left
  entry : s.maps.cgtracker x.id ≠ some root.id

section

variable {hasAncestors : Bool} {root x : Dir} {s : State}

theorem Missed.walk (h : Missed root x s) (hshape : Shape root s) :
    Missed root x (s.walk root) := by
  obtain ⟨p, hp, hpid⟩ := h.parent
  unfold State.walk
  split
  · exact h
  · next rest htodo =>
    refine ⟨h.mem, ⟨p, List.mem_cons_of_mem _ hp, hpid⟩, (left_of_insert htodo ▸ h.unlisted :), ?_⟩
    rw [BpfMaps.cgtracker_setCgtracker, if_neg (hshape.id_ne x h.mem).2]
    exact h.entry
  · next d rest htodo =>
    have hd : d ∈ s.left := by simp [State.left, htodo, Item.dir?]
    have hxd : x.id ≠ d.id := by
      intro hid
      rcases hshape.listed d (.inl hd) with rfl | ⟨hm, _⟩
      · exact (hshape.id_ne x h.mem).2 hid
      · exact h.unlisted (hshape.eq_of_id h.mem (List.mem_append_left _ hm) hid ▸ hd)
    refine ⟨h.mem, ⟨p, List.mem_cons_of_mem _ hp, hpid⟩, (left_of_visit htodo ▸ h.unlisted :), ?_⟩
    show (if d.id = root.id then s.maps else _).cgtracker x.id ≠ _
    split
    · exact h.entry
    · rw [BpfMaps.cgtracker_setCgtracker, if_neg hxd]
      exact h.entry
  · next d rest htodo =>
    have hd : d ∈ s.left := by simp [State.left, htodo, Item.dir?]
    refine ⟨h.mem, ⟨p, List.mem_cons_of_mem _ hp, hpid⟩, fun hx => ?_, h.entry⟩
    simp only [State.left, List.filterMap_append, List.filterMap_map, List.mem_append,
      List.mem_filterMap, Function.comp_apply, Item.dir?, Option.some.injEq] at hx
    rcases hx with ⟨y, hy, rfl⟩ | ⟨i, hi, hix⟩
    · -- `x` would be found in `d`, but its parent was read before
      have hpd : p = d := hshape.listed_eq (.inr hp) (.inl hd)
        (hpid.trans (mem_children.mp hy).2)
      exact hshape.left_fresh d hd (hpd ▸ hp)
    · refine h.unlisted (List.mem_filterMap.mpr ⟨i, ?_, hix⟩)
      rw [htodo]
      exact List.mem_cons_of_mem _ hi

theorem Missed.step (h : Missed root x s) (hroot : root.id ≠ 0) (hshape : Shape root s)
    (hl : Legal root s e) : Missed root x (step hasAncestors root e s) := by
  cases e with
  | walk => exact h.walk hshape
  | mkdir d =>
    obtain ⟨hid, _, hfresh, hparent⟩ := hl
    have hp0 : d.parent ≠ 0 := by
      rcases hparent with hp | ⟨p, hp, hpid⟩
      · exact hp ▸ hroot
      · exact hpid ▸ (hshape.id_ne p hp).1
    refine ⟨?_, h.parent, h.unlisted, ?_⟩
    · exact List.perm_middle.mem_iff.mpr (List.mem_cons_of_mem d h.mem)
    · rw [cgtracker_step_mkdir hid hp0, if_neg (hfresh x h.mem)]
      exact h.entry
  | activate d =>
    exact ⟨(perm_activate hl).mem_iff.mpr h.mem, h.parent, h.unlisted, h.entry⟩

theorem missed_of_not_inTime (hshape : Shape root s) (hin : ¬ InTime root s e) :
    ∃ x, Missed root x (step hasAncestors root e s) := by
  cases e with
  | mkdir d => exact absurd trivial hin
  | activate d => exact absurd trivial hin
  | walk =>
    simp only [InTime, not_forall] at hin
    obtain ⟨x, hx, d, hhead, hparent, hentry⟩ := hin
    obtain ⟨rest, htodo⟩ : ∃ rest, s.todo = .read d :: rest := by
      cases htodo : s.todo with
      | nil => simp [htodo] at hhead
      | cons i rest => exact ⟨rest, by simpa [htodo] using hhead⟩
    have hd : d ∈ s.left := by simp [State.left, htodo, Item.dir?]
    have hx' : x ∈ s.dirs ++ s.created := List.mem_append_right _ hx
    refine ⟨x, ?_⟩
    simp only [step, State.walk, htodo]
    refine ⟨hx', ⟨d, List.mem_cons_self, hparent.symm⟩, fun hl => ?_, hentry⟩
    simp only [State.left, List.filterMap_append, List.filterMap_map, List.mem_append,
      List.mem_filterMap, Function.comp_apply, Item.dir?, Option.some.injEq] at hl
    rcases hl with ⟨y, hy, rfl⟩ | ⟨i, hi, hix⟩
    · -- what is visible is not among the created
      have hnd := (List.nodup_append'.mp hshape.ids.of_map).2.2
      exact hnd (mem_children.mp hy).1 hx
    · refine hshape.child_unlisted hd hx' hparent (.inl (List.mem_filterMap.mpr ⟨i, ?_, hix⟩))
      rw [htodo]
      exact List.mem_cons_of_mem _ hi

end

/-! ## The walk on its own -/

/-- The tracker after the container's own entry and the entries of `nested`. -/
def trackAll (m : BpfMaps) (cg : CgroupID) (nested : List CgroupID) : BpfMaps :=
  nested.foldl (fun m c => m.setCgtracker c cg) (m.setCgtracker cg cg)

/-- The whole call, where nothing fails. -/
theorem maps_updateCgTrackerMap {env : ManagerEnv} (hcalm : ∀ t, env.fault t = none)
    (cg : CgroupID) {path : String} (hpath : path ≠ "") (w : World) :
    (after (updateCgTrackerMap env cg path w)).maps
      = trackAll w.maps cg (env.nested (w.clock + 1) path) := by
  have hcall : Ends (updateCgTrackerMap env cg path w)
      (fun _ w' => w'.maps = trackAll w.maps cg (env.nested (w.clock + 1) path))
      (fun _ _ => False) := by
    unfold updateCgTrackerMap syscall
    refine Ends.bind ?_
    simp only [hcalm]
    refine ends_ok.mpr (Ends.bind (ends_ok.mpr ?_))
    rw [if_pos hpath]
    -- what is left to write leads to the maps with everything written
    refine Ends.forM (fun rest (w' : World) => rest.foldl (fun m c => m.setCgtracker c cg) w'.maps
      = trackAll w.maps cg (env.nested (w.clock + 1) path)) (fun c rest w' h => ?_) _ _ rfl
    simp only [trackNested, hcalm]
    exact ends_ok.mpr h
  exact (hcall.mono (fun _ _ h => h) (fun _ _ h => h.elim)).after

/-- While nothing else happens, the walk writes what it finds. -/
theorem maps_walk_alone {root : Dir} {m : BpfMaps} {s : State}
    (h : (s.todo = [.insert, .visit root] ∧ s.done = [] ∧ s.maps = m) ∨
      (.insert ∉ s.todo ∧ s.maps = trackAll m root.id (s.found root))) :
    .insert ∉ (s.walk root).todo ∧
      (s.walk root).maps = trackAll m root.id ((s.walk root).found root) := by
  rcases h with ⟨htodo, hdone, rfl⟩ | ⟨hno, hmaps⟩
  · simp [State.walk, htodo, hdone, State.found, trackAll]
  unfold State.walk
  split
  · exact ⟨hno, hmaps⟩
  · next rest htodo => exact absurd (by simp [htodo]) hno
  · next d rest htodo =>
    refine ⟨by simpa [htodo] using hno, ?_⟩
    by_cases hd : d.id = root.id
    · simpa [State.found, hd] using hmaps
    · simp only [if_neg hd, hmaps]
      simp [State.found, hd, trackAll, List.filterMap_append, List.foldl_append]
  · next d rest htodo =>
    refine ⟨by simpa [htodo] using hno, ?_⟩
    simpa [State.found, List.filterMap_append] using hmaps

/-- **The steps refine the call.** A walk that nothing interrupts does to the maps what
`updateCgTrackerMap` does, given what it found. -/
theorem run_walk_refines (hasAncestors : Bool) (root : Dir) (dirs : List Dir) (env : ManagerEnv)
    {path : String} (hpath : path ≠ "") (hcalm : ∀ t, env.fault t = none) (w : World) (n : Nat)
    (hfin : (run (step hasAncestors root) (List.replicate n .walk)
      (start root w.maps dirs)).Finished)
    (hfound : env.nested (w.clock + 1) path = (run (step hasAncestors root)
      (List.replicate n .walk) (start root w.maps dirs)).found root) :
    (run (step hasAncestors root) (List.replicate n .walk) (start root w.maps dirs)).maps
      = (after (updateCgTrackerMap env root.id path w)).maps := by
  rw [maps_updateCgTrackerMap hcalm root.id hpath, hfound]
  have hrun : (run (step hasAncestors root) (List.replicate n .walk)
        (start root w.maps dirs)).todo = [.insert, .visit root] ∨
      (run (step hasAncestors root) (List.replicate n .walk) (start root w.maps dirs)).maps
        = trackAll w.maps root.id ((run (step hasAncestors root) (List.replicate n .walk)
            (start root w.maps dirs)).found root) := by
    let I : State → Prop := fun s =>
      (s.todo = [.insert, .visit root] ∧ s.done = [] ∧ s.maps = w.maps) ∨
        (.insert ∉ s.todo ∧ s.maps = trackAll w.maps root.id (s.found root))
    have hinv : I (run (step hasAncestors root) (List.replicate n .walk)
        (start root w.maps dirs)) :=
      run_inv (C := fun _ e => e = .walk)
        (fun s e hs he => by subst he; exact .inr (maps_walk_alone hs)) (.inl ⟨rfl, rfl, rfl⟩)
        (along_of_forall fun e he => List.eq_of_mem_replicate he)
    exact hinv.imp (fun h => h.1) fun h => h.2
  exact hrun.resolve_left (by simp [hfin.1])

/-- **Every nested cgroup is tracked, if the walk never reads a directory too early, and only
then.** Over every tree, whatever the maps hold at the start, and every interleaving of the walk
with the creation of further cgroups. -/
theorem allTracked_iff_inTime (hasAncestors : Bool) (root : Dir) (maps : BpfMaps) (dirs : List Dir)
    (es : List Event) (hroot : root.id ≠ 0) (htree : Tree root dirs)
    (hlegal : Along (step hasAncestors root) (Legal root) es (start root maps dirs))
    (hfin : (run (step hasAncestors root) es (start root maps dirs)).Finished) :
    (run (step hasAncestors root) es (start root maps dirs)).AllTracked root ↔
      Along (step hasAncestors root) (InTime root) es (start root maps dirs) := by
  have hshape : Shape root (start root maps dirs) := Shape.init hroot htree
  constructor
  · intro hall
    refine along_of_unspoilt (L := Legal root) (I := Shape root)
      (S := fun s => ∃ x, Missed root x s) (fun s e hs hl => hs.step hroot hl) ?_ ?_ hshape
      hlegal ?_
    · rintro s e hs hl ⟨x, hx⟩
      exact ⟨x, hx.step hroot hs hl⟩
    · exact fun s e hs _ hin => missed_of_not_inTime hs hin
    · rintro ⟨x, hx⟩
      have hmem := hx.mem
      rw [hfin.2, List.append_nil] at hmem
      exact hx.entry (hall.2 x hmem)
  · intro hin
    have hrun := run_inv (I := fun s => Shape root s ∧ Covers root s)
      (fun s e hs hc => ⟨hs.1.step hroot hc.1, hs.2.step hroot hs.1 hc.1 hc.2⟩)
      ⟨hshape, Covers.init htree⟩ (hlegal.and hin)
    exact hrun.2.allTracked hfin

namespace Sample

def container : Dir := ⟨"cri-containerd-1.scope", ⟨5, [1]⟩⟩
def init : Dir := ⟨"init", ⟨6, [1, 5]⟩⟩
def app : Dir := ⟨"app", ⟨7, [1, 5]⟩⟩

/-- A tree with one directory, and a second one made while the walk is in it. -/
theorem allTracked_iff_inTime_app :
    (run (step true container) [.walk, .mkdir app, .walk, .walk, .walk, .activate app, .walk]
        (start container BpfMaps.empty [init])).AllTracked container ↔
      Along (step true container) (InTime container)
        [.walk, .mkdir app, .walk, .walk, .walk, .activate app, .walk]
        (start container BpfMaps.empty [init]) :=
  allTracked_iff_inTime true container BpfMaps.empty [init]
    [.walk, .mkdir app, .walk, .walk, .walk, .activate app, .walk] (by decide)
    (.cons .nil (by decide) (by decide) (by simp) (.inl rfl)) (by decide +kernel)
    (by decide +kernel)

/-- The hook runs for `app` before the container is tracked, and `app` becomes visible after the
walk has read the container's directory. -/
theorem app_untracked :
    Along (step true container) (Legal container)
      [.mkdir app, .walk, .walk, .walk, .activate app] (start container BpfMaps.empty []) ∧
    (run (step true container) [.mkdir app, .walk, .walk, .walk, .activate app]
      (start container BpfMaps.empty [])).Finished ∧
    app ∈ (run (step true container) [.mkdir app, .walk, .walk, .walk, .activate app]
      (start container BpfMaps.empty [])).dirs ∧
    (run (step true container) [.mkdir app, .walk, .walk, .walk, .activate app]
      (start container BpfMaps.empty [])).maps.cgtracker app.id = none := by
  decide +kernel

end Sample

end CgWalk

end RuntimeEnforcer
