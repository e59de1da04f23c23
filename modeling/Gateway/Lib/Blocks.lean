import Mathlib.Data.List.Nodup
import Gateway.Lib.Handles

/-!
# Blocks of memory in trees

A heap whose blocks form trees: a tree is freed through its root, with everything in it. Each live
block carries the root of its tree, which is all that is needed to know what a call to free it
takes. The log of what was obtained, used and released is a ghost.

* `alloc`, `allocIn`, `attach`, `use`, `free`: a new tree, a new block in the tree of another one, a
  tree made part of another, an access, and the end of a tree.
* `Trees rs s`: nothing was misused so far, and the trees are those of the roots `rs`.
  `Trees.alloc`, `Trees.allocIn`, `Trees.attach`, `Trees.use`, `Trees.free` carry it along.
* **`Trees.no_leak_iff`**: every block was released as often as obtained exactly when no tree is
  left.
-/

namespace Gateway.Lib

section Balanced

variable {η : Type} [DecidableEq η] {log : List (HandleUse η)} {held held' : List η}

theorem Balanced.perm (h : Balanced log held) (hp : held.Perm held') : Balanced log held' :=
  ⟨h.owned, fun g => by rw [h.count g, hp.count_eq]⟩

/-- Several handles are released. -/
theorem Balanced.release_all {xs : List η} (h : Balanced log (xs ++ held)) :
    Balanced (xs.map .release ++ log) held := by
  induction xs generalizing held with
  | nil => exact h
  | cons x xs ih =>
    have hrest := ih (h.perm (List.perm_middle.symm : (x :: (xs ++ held)).Perm _))
    have := hrest.release (h := x) List.mem_cons_self
    rwa [List.erase_cons_head] at this

end Balanced

/-- The next address, the live blocks with the roots of their trees, and the log. -/
structure Blocks where
  next : Nat
  live : List (Nat × Nat)
  log : List (HandleUse Nat)

namespace Blocks

def empty : Blocks := ⟨0, [], []⟩

/-- The live blocks. -/
def handles (s : Blocks) : List Nat := s.live.map Prod.fst

/-- The root of the tree that `h` is in. -/
def rootOf (s : Blocks) (h : Nat) : Nat := (s.live.lookup h).getD h

/-- The blocks that are their own root. -/
def roots (s : Blocks) : List Nat := (s.live.filter fun e => e.1 = e.2).map Prod.fst

/-- A tree of one new block, `s.next`. -/
def alloc (s : Blocks) : Blocks :=
  ⟨s.next + 1, (s.next, s.next) :: s.live, .obtain s.next :: s.log⟩

/-- A new block in the tree of `p`. -/
def allocIn (s : Blocks) (p : Nat) : Blocks :=
  ⟨s.next + 1, (s.next, s.rootOf p) :: s.live, .obtain s.next :: .use p :: s.log⟩

/-- The tree of the root `c` becomes part of the tree of `p`. -/
def attach (s : Blocks) (c p : Nat) : Blocks :=
  { s with
    live := s.live.map fun e => (e.1, if e.2 = c then s.rootOf p else e.2)
    log := .use c :: .use p :: s.log }

/-- An access to `h`. -/
def use (s : Blocks) (h : Nat) : Blocks := { s with log := .use h :: s.log }

/-- The tree of the root `r` is freed: what is in it, then `r`. -/
def free (s : Blocks) (r : Nat) : Blocks :=
  { s with
    live := s.live.filter fun e => e.2 ≠ r
    log := .release r ::
      (((s.live.filter fun e => e.2 = r ∧ e.1 ≠ r).map fun e => .release e.1) ++ s.log) }

/-! ## The invariant -/

/-- Nothing was misused, and every live block belongs to a live root. -/
structure Valid (s : Blocks) : Prop where
  balanced : Balanced s.log s.handles
  fresh : ∀ h ∈ s.handles, h < s.next
  nodup : s.handles.Nodup
  rooted : ∀ e ∈ s.live, (e.2, e.2) ∈ s.live

variable {s : Blocks} {h p c r : Nat} {rs : List Nat}

theorem valid_empty : Valid empty where
  balanced := Balanced.nil
  fresh _ hh := absurd hh List.not_mem_nil
  nodup := List.nodup_nil
  rooted _ he := absurd he List.not_mem_nil

theorem mem_handles {e : Nat × Nat} (he : e ∈ s.live) : e.1 ∈ s.handles :=
  List.mem_map_of_mem he

theorem mem_roots_iff : r ∈ s.roots ↔ (r, r) ∈ s.live := by
  unfold roots
  rw [List.mem_map]
  constructor
  · rintro ⟨⟨a, b⟩, he, rfl⟩
    obtain ⟨hmem, heq⟩ := List.mem_filter.mp he
    cases (show a = b from of_decide_eq_true heq)
    exact hmem
  · intro hr
    exact ⟨(r, r), List.mem_filter.mpr ⟨hr, by simp⟩, rfl⟩

/-- A block is in one tree. -/
theorem Valid.unique (hs : Valid s) {a b b' : Nat} (h₁ : (a, b) ∈ s.live)
    (h₂ : (a, b') ∈ s.live) : b = b' := by
  have := List.inj_on_of_nodup_map hs.nodup h₁ h₂ rfl
  exact congrArg Prod.snd this

theorem mem_rootOf (hh : h ∈ s.handles) : (h, s.rootOf h) ∈ s.live := by
  obtain ⟨⟨a, b⟩, he, rfl⟩ := List.mem_map.mp hh
  cases hl : s.live.lookup a with
  | none =>
    have := List.lookup_eq_none_iff.mp hl (a, b) he
    simp at this
  | some b' =>
    obtain ⟨l₁, l₂, heq, -⟩ := List.lookup_eq_some_iff.mp hl
    unfold rootOf
    simp only [hl, Option.getD_some]
    rw [heq]
    exact List.mem_append_right _ List.mem_cons_self

theorem Valid.rootOf_eq (hs : Valid s) {e : Nat × Nat} (he : e ∈ s.live) :
    s.rootOf e.1 = e.2 :=
  hs.unique (mem_rootOf (mem_handles he)) he

theorem Valid.rootOf_mem_roots (hs : Valid s) (hh : h ∈ s.handles) : s.rootOf h ∈ s.roots :=
  mem_roots_iff.mpr (hs.rooted _ (mem_rootOf hh))

theorem mem_handles_of_roots (hr : r ∈ s.roots) : r ∈ s.handles :=
  mem_handles (mem_roots_iff.mp hr)

theorem Valid.rootOf_root (hs : Valid s) (hr : r ∈ s.roots) : s.rootOf r = r :=
  hs.rootOf_eq (mem_roots_iff.mp hr)

theorem Valid.next_notMem (hs : Valid s) : s.next ∉ s.handles := fun hn =>
  Nat.lt_irrefl _ (hs.fresh _ hn)

theorem Valid.nodup_roots (hs : Valid s) : s.roots.Nodup :=
  (List.filter_sublist.map Prod.fst).nodup hs.nodup

/-! ## A new block -/

@[simp] theorem handles_alloc (s : Blocks) : s.alloc.handles = s.next :: s.handles := rfl

@[simp] theorem handles_allocIn (s : Blocks) (p : Nat) :
    (s.allocIn p).handles = s.next :: s.handles := rfl

@[simp] theorem handles_use (s : Blocks) (h : Nat) : (s.use h).handles = s.handles := rfl

@[simp] theorem handles_attach (s : Blocks) (c p : Nat) : (s.attach c p).handles = s.handles := by
  simp [handles, attach, Function.comp_def]

/-- The other blocks stay in their trees. -/
theorem rootOf_alloc (s : Blocks) (hne : h ≠ s.next) : s.alloc.rootOf h = s.rootOf h := by
  have : (h == s.next) = false := beq_false_of_ne hne
  simp [rootOf, alloc, List.lookup_cons, this]

theorem Valid.cons (hs : Valid s) {b : Nat} {log : List (HandleUse Nat)}
    (hlog : Balanced log s.handles) (hb : b = s.next ∨ b ∈ s.roots) :
    Valid ⟨s.next + 1, (s.next, b) :: s.live, .obtain s.next :: log⟩ where
  balanced := hlog.obtain s.next
  fresh h hh := by
    rcases List.mem_cons.mp hh with rfl | hh
    · exact Nat.lt_succ_self _
    · exact Nat.lt_succ_of_lt (hs.fresh h hh)
  nodup := List.nodup_cons.mpr ⟨hs.next_notMem, hs.nodup⟩
  rooted e he := by
    rcases List.mem_cons.mp he with rfl | he
    · rcases hb with rfl | hb
      · exact List.mem_cons_self
      · exact List.mem_cons_of_mem _ (mem_roots_iff.mp hb)
    · exact List.mem_cons_of_mem _ (hs.rooted e he)

/-! ## Trees -/

/-- Nothing was misused, and the trees are those of the roots `rs`. -/
structure Trees (rs : List Nat) (s : Blocks) : Prop where
  valid : Valid s
  roots : s.roots.Perm rs

namespace Trees

theorem empty : Trees [] Blocks.empty := ⟨valid_empty, List.Perm.refl _⟩

theorem perm {rs' : List Nat} (hs : Trees rs s) (hp : rs.Perm rs') : Trees rs' s :=
  ⟨hs.valid, hs.roots.trans hp⟩

theorem mem_roots (hs : Trees rs s) (hr : r ∈ rs) : r ∈ s.roots := hs.roots.mem_iff.mpr hr

theorem mem_handles (hs : Trees rs s) (hr : r ∈ rs) : r ∈ s.handles :=
  mem_handles_of_roots (hs.mem_roots hr)

theorem nodup (hs : Trees rs s) : rs.Nodup := hs.roots.nodup_iff.mp hs.valid.nodup_roots

/-- The next block is in no tree. -/
theorem ne_next (hs : Trees rs s) (hh : h ∈ s.handles) : h ≠ s.next := fun he =>
  hs.valid.next_notMem (he ▸ hh)

theorem rootOf_ne_next (hs : Trees rs s) (hh : h ∈ s.handles) : s.rootOf h ≠ s.next :=
  hs.ne_next (mem_handles_of_roots (hs.valid.rootOf_mem_roots hh))

theorem alloc (hs : Trees rs s) : Trees (s.next :: rs) s.alloc where
  valid := hs.valid.cons hs.valid.balanced (Or.inl rfl)
  roots := by
    have : s.alloc.roots = s.next :: s.roots := by simp [Blocks.roots, Blocks.alloc]
    rw [this]
    exact hs.roots.cons s.next

theorem allocIn (hs : Trees rs s) (hp : p ∈ s.handles) : Trees rs (s.allocIn p) where
  valid := hs.valid.cons (hs.valid.balanced.use hp) (Or.inr (hs.valid.rootOf_mem_roots hp))
  roots := by
    have hne : s.next ≠ s.rootOf p := (hs.rootOf_ne_next hp).symm
    have : (s.allocIn p).roots = s.roots := by simp [Blocks.roots, Blocks.allocIn, hne]
    rw [this]
    exact hs.roots

theorem use (hs : Trees rs s) (hh : h ∈ s.handles) : Trees rs (s.use h) where
  valid := ⟨hs.valid.balanced.use hh, hs.valid.fresh, hs.valid.nodup, hs.valid.rooted⟩
  roots := hs.roots

/-- **A tree becomes part of another one**, and its root is no root any more. -/
theorem attach (hs : Trees rs s) (hc : c ∈ rs) (hp : p ∈ s.handles) (hne : s.rootOf p ≠ c) :
    Trees (rs.erase c) (s.attach c p) := by
  have hroot := mem_roots_iff.mp (hs.valid.rootOf_mem_roots hp)
  refine ⟨⟨?_, ?_, ?_, ?_⟩, ?_⟩
  · rw [handles_attach]
    exact (hs.valid.balanced.use hp).use (hs.mem_handles hc)
  · rw [handles_attach]
    exact hs.valid.fresh
  · rw [handles_attach]
    exact hs.valid.nodup
  · intro e he
    obtain ⟨e₀, he₀, rfl⟩ := List.mem_map.mp he
    by_cases hec : e₀.2 = c
    · refine List.mem_map.mpr ⟨_, hroot, ?_⟩
      simp [hec, hne]
    · refine List.mem_map.mpr ⟨_, hs.valid.rooted e₀ he₀, ?_⟩
      simp [hec]
  · refine List.Perm.trans (List.Perm.of_eq ?_) (hs.roots.erase c)
    rw [(hs.valid.nodup_roots).erase_eq_filter]
    unfold Blocks.roots Blocks.attach
    rw [List.filter_map, List.filter_map, List.map_map, List.filter_filter]
    refine congrArg (List.map Prod.fst) (List.filter_congr fun e he => ?_)
    -- no block but its root was its own root
    have hq : e.2 = c → e.1 ≠ s.rootOf p := by
      rintro hec heq
      have h₁ : (s.rootOf p, c) ∈ s.live := by rw [← heq, ← hec]; exact he
      exact hne (hs.valid.unique hroot h₁)
    by_cases hec : e.2 = c
    · have := hq hec
      simp [hec, this]
    · by_cases heq : e.1 = e.2 <;> simp [hec, heq]

/-- The live blocks are those of the tree of `r` and the others. -/
theorem handles_perm (hs : Valid s) (hr : r ∈ s.roots) :
    s.handles.Perm (((s.live.filter fun e => e.2 = r ∧ e.1 ≠ r).map Prod.fst) ++
      (r :: (s.free r).handles)) := by
  have hroot := mem_roots_iff.mp hr
  have hsub : (s.free r).live.Sublist s.live := List.filter_sublist
  have hin {a : Nat} (ha : a ∈ (s.live.filter fun e => e.2 = r ∧ e.1 ≠ r).map Prod.fst) :
      (a, r) ∈ s.live ∧ a ≠ r := by
    obtain ⟨⟨x, y⟩, he, rfl⟩ := List.mem_map.mp ha
    obtain ⟨hmem, hcond⟩ := List.mem_filter.mp he
    obtain ⟨rfl, hne⟩ := of_decide_eq_true hcond
    exact ⟨hmem, hne⟩
  have hout {a : Nat} (ha : a ∈ (s.free r).handles) : ∃ b, (a, b) ∈ s.live ∧ b ≠ r := by
    obtain ⟨⟨x, y⟩, he, rfl⟩ := List.mem_map.mp ha
    obtain ⟨hmem, hcond⟩ := List.mem_filter.mp he
    exact ⟨y, hmem, of_decide_eq_true hcond⟩
  refine (List.perm_ext_iff_of_nodup hs.nodup ?_).mpr fun a => ?_
  · refine List.nodup_append.mpr ⟨(List.filter_sublist.map Prod.fst).nodup hs.nodup,
      List.nodup_cons.mpr ⟨fun hmem => ?_, (hsub.map Prod.fst).nodup hs.nodup⟩, ?_⟩
    · obtain ⟨b, hb, hne⟩ := hout hmem
      exact hne (hs.unique hb hroot)
    · rintro a ha b hb rfl
      obtain ⟨hmem, hne⟩ := hin ha
      rcases List.mem_cons.mp hb with rfl | hb
      · exact hne rfl
      · obtain ⟨b, hb, hne'⟩ := hout hb
        exact hne' (hs.unique hb hmem)
  · rw [List.mem_append, List.mem_cons]
    constructor
    · intro ha
      obtain ⟨⟨x, y⟩, he, rfl⟩ := List.mem_map.mp ha
      by_cases hy : y = r
      · by_cases hx : x = r
        · exact Or.inr (Or.inl hx)
        · exact Or.inl (List.mem_map.mpr ⟨(x, y), List.mem_filter.mpr ⟨he, by simp [hy, hx]⟩, rfl⟩)
      · exact Or.inr (Or.inr (List.mem_map.mpr
          ⟨(x, y), List.mem_filter.mpr ⟨he, by simp [hy]⟩, rfl⟩))
    · rintro (ha | rfl | ha)
      · exact Blocks.mem_handles (hin ha).1
      · exact Blocks.mem_handles hroot
      · obtain ⟨b, hb, -⟩ := hout ha
        exact Blocks.mem_handles hb

/-- **A tree is freed**, with everything in it. -/
theorem free (hs : Trees rs s) (hr : r ∈ rs) : Trees (rs.erase r) (s.free r) := by
  have hr' := hs.mem_roots hr
  have hsub : (s.free r).live.Sublist s.live := List.filter_sublist
  have hhandles : (s.free r).handles.Sublist s.handles := hsub.map Prod.fst
  refine ⟨⟨?_, fun h hh => hs.valid.fresh h (hhandles.subset hh), hhandles.nodup hs.valid.nodup,
    fun e he => ?_⟩, ?_⟩
  · have hall := (hs.valid.balanced.perm (handles_perm hs.valid hr')).release_all
    have hlast := hall.release (h := r) List.mem_cons_self
    rw [List.erase_cons_head, List.map_map] at hlast
    exact hlast
  · obtain ⟨hmem, hne⟩ := List.mem_filter.mp he
    exact List.mem_filter.mpr ⟨hs.valid.rooted e hmem, hne⟩
  · refine List.Perm.trans (List.Perm.of_eq ?_) (hs.roots.erase r)
    rw [(hs.valid.nodup_roots).erase_eq_filter]
    unfold Blocks.roots Blocks.free
    rw [List.filter_map, List.filter_filter, List.filter_filter]
    refine congrArg (List.map Prod.fst) (List.filter_congr fun e _ => ?_)
    by_cases heq : e.1 = e.2
    · by_cases hr2 : e.2 = r <;> simp [heq, hr2]
    · simp [heq]

/-- **No leak exactly when no tree is left.** -/
theorem no_leak_iff (hs : Trees rs s) :
    (∀ h, obtained h s.log = released h s.log) ↔ rs = [] := by
  have hbal := hs.valid.balanced.count
  constructor
  · intro hall
    refine List.eq_nil_iff_forall_not_mem.mpr fun r hr => ?_
    have hpos := List.count_pos_iff.mpr (hs.mem_handles hr)
    have := hbal r
    rw [hall r] at this
    omega
  · rintro rfl h
    have hnil : s.handles = [] := by
      refine List.eq_nil_iff_forall_not_mem.mpr fun a ha => ?_
      exact absurd (hs.roots.mem_iff.mp (hs.valid.rootOf_mem_roots ha)) List.not_mem_nil
    rw [hbal h, hnil]
    rfl

end Trees

end Blocks

end Gateway.Lib
