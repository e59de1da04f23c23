import Gateway.Lib.Blocks
import Gateway.Lib.Hoare
import Gateway.Lib.Json

/-!
# The memory of the cJSON calls

What the calls into `cJSON` that build, print and delete a tree do to the heap. The library is a
parameter, `CJsonMem`, and what its documentation says of each call is a field of `CJsonMem.Sound`:
what a caller owns before and after it. An item and what it owns (its name and its string) are one
block; a tree of items is a tree of blocks. A pointer is `none` for `NULL`, which every call takes.

An item that could not be added to an object stays with the caller; `refused` lists these.

* `Owns enough rs live`: nothing was misused, the trees are those of `rs` and the refused ones, and
  the blocks `live` can be used. `enough` says that every call finds the memory it needs.
* `CJsonMem`, `CJsonMem.Sound`: the calls, and one specification for each.
* `useBlock_meets`, `freeBlock_meets`: an access, and the `free` of the C library.
* **`heapCJson_sound`**: an implementation, in which `ok n` says whether the `n`-th call that needs
  memory finds some.
-/

namespace Gateway.Lib

/-- The heap, how many calls needed memory, and the items no object took. -/
structure Heap where
  blocks : Blocks
  calls : Nat
  refused : List Nat

namespace Heap

def empty : Heap := ⟨Blocks.empty, 0, []⟩

/-- One more call needed memory. -/
def tick (s : Heap) : Heap := { s with calls := s.calls + 1 }

end Heap

abbrev HeapM := StateM Heap

/-- A block that holds a text. -/
structure Text where
  block : Nat
  chars : List Byte
  deriving DecidableEq, Repr

/-- A block is read. -/
def useBlock (h : Nat) : HeapM Unit := fun s => ((), { s with blocks := s.blocks.use h })

/-- `free(p)`. -/
def freeBlock (h : Nat) : HeapM Unit := fun s => ((), { s with blocks := s.blocks.free h })

/-- **The calls into `cJSON`.** -/
structure CJsonMem where
  /-- `cJSON_CreateObject()` and `cJSON_CreateArray()`. -/
  createItem : HeapM (Option Nat)
  /-- `cJSON_Parse(text)`, for a text that is JSON. -/
  parseItem : HeapM (Option Nat)
  /-- `cJSON_AddStringToObject(object, ..)` and its like: whether the new item was added. -/
  addMember (object : Option Nat) : HeapM Bool
  /-- `cJSON_AddItemToObject(object, .., item)`. -/
  addItem (object item : Option Nat) : HeapM Bool
  /-- `cJSON_AddItemToArray(array, item)`. -/
  append (array item : Option Nat) : HeapM Bool
  /-- `cJSON_Print(item)`, where `text` is the text of its tree. -/
  printItem (item : Option Nat) (text : List Byte) : HeapM (Option Text)
  /-- `cJSON_Delete(item)`. -/
  deleteTree (item : Option Nat) : HeapM Unit

/-! ## What is owned -/

/-- The trees are those of `rs` and of what was refused, `live` can be used, and nothing was refused
if every call finds memory. -/
structure Owns (enough : Prop) (rs live : List Nat) (s : Heap) : Prop where
  trees : Blocks.Trees (rs ++ s.refused) s.blocks
  live : ∀ h ∈ live, h ∈ s.blocks.handles
  refused : enough → s.refused = []

variable {enough : Prop} {ok : Nat → Bool} {rs rs' live live' : List Nat} {s : Heap}
  {p c r : Nat} {q : Option Nat}

namespace Owns

theorem empty : Owns enough [] [] Heap.empty where
  trees := Blocks.Trees.empty
  live _ h := absurd h List.not_mem_nil
  refused _ := rfl

theorem tick (h : Owns enough rs live s) : Owns enough rs live s.tick :=
  ⟨h.trees, h.live, h.refused⟩

theorem perm (h : Owns enough rs live s) (hp : rs.Perm rs') : Owns enough rs' live s :=
  ⟨h.trees.perm (hp.append_right _), h.live, h.refused⟩

/-- Fewer blocks are to be used. -/
theorem mono (h : Owns enough rs live s) (hsub : ∀ x ∈ live', x ∈ live) : Owns enough rs live' s :=
  ⟨h.trees, fun x hx => h.live x (hsub x hx), h.refused⟩

theorem mem_handles (h : Owns enough rs live s) (hr : r ∈ rs) : r ∈ s.blocks.handles :=
  h.trees.mem_handles (List.mem_append_left _ hr)

/-- Two roots are in two trees. -/
theorem apart (h : Owns enough (c :: rs) live s) (hp : p ∈ rs) : s.blocks.rootOf p ≠ c := by
  have hroot := h.trees.valid.rootOf_root
    (h.trees.mem_roots (List.mem_append_left _ (List.mem_cons_of_mem c hp)))
  rw [hroot]
  rintro rfl
  exact (List.nodup_cons.mp h.trees.nodup).1 (List.mem_append_left _ hp)

end Owns

theorem useBlock_meets (hr : r ∈ rs) :
    Meets (Owns enough rs live) (useBlock r) fun _ s => Owns enough rs live s := by
  intro s hs _ s' hu
  cases hu
  exact ⟨hs.trees.use (hs.mem_handles hr), hs.live, hs.refused⟩

theorem freeBlock_meets :
    Meets (Owns enough (r :: rs) live) (freeBlock r) fun _ s => Owns enough rs [] s := by
  intro s hs _ s' hf
  cases hf
  have hfree := hs.trees.free (List.mem_append_left _ List.mem_cons_self)
  have hc : (r :: rs ++ s.refused).erase r = rs ++ s.refused := List.erase_cons_head r _
  refine ⟨?_, fun x hx => absurd hx List.not_mem_nil, hs.refused⟩
  rw [← hc]
  exact hfree

/-! ## What the calls do -/

/-- An item can be given to the tree of `parent`: `parent` is `NULL` only when memory ran out, and
the item is in another tree. -/
def Given (enough : Prop) (parent item : Option Nat) (s : Heap) : Prop :=
  (parent = none → ¬ enough) ∧ ∀ p ∈ parent, ∀ c ∈ item, s.blocks.rootOf p ≠ c

namespace CJsonMem

/-- **What `cJSON` promises**, for all trees a caller owns. -/
structure Sound (cm : CJsonMem) (enough : Prop) : Prop where
  /-- A new tree, apart from the others, or `NULL`. -/
  createItem (rs live : List Nat) : Meets (Owns enough rs live) cm.createItem fun p s =>
    (Owns enough (p.toList ++ rs) (p.toList ++ live) s ∧
      ∀ c ∈ p, ∀ h ∈ live, s.blocks.rootOf h ≠ c) ∧ (enough → p ≠ none)
  /-- A new tree or `NULL`. -/
  parseItem (rs live : List Nat) : Meets (Owns enough rs live) cm.parseItem fun p s =>
    Owns enough (p.toList ++ rs) (p.toList ++ live) s
  /-- What was obtained for a member that is not added is released. -/
  addMember (rs : List Nat) {live : List Nat} {object : Option Nat} (hp : ∀ p ∈ object, p ∈ live) :
    Meets (Owns enough rs live) (cm.addMember object) fun added s =>
      Owns enough rs live s ∧ (enough → object ≠ none → added = true)
  /-- An item is added, or refused: in both cases the caller has one tree less to look after. -/
  addItem (rs : List Nat) {live : List Nat} {object item : Option Nat}
    (hp : ∀ p ∈ object, p ∈ live) :
    Meets (fun s => Owns enough (item.toList ++ rs) live s ∧ Given enough object item s)
      (cm.addItem object item) fun added s =>
        Owns enough rs live s ∧ (enough → item ≠ none → added = true)
  /-- The same for an array. -/
  append (rs : List Nat) {live : List Nat} {array item : Option Nat}
    (hp : ∀ p ∈ array, p ∈ live) :
    Meets (fun s => Owns enough (item.toList ++ rs) live s ∧ Given enough array item s)
      (cm.append array item) fun added s =>
        Owns enough rs live s ∧ (enough → item ≠ none → added = true)
  /-- A new block with the text, or `NULL`. -/
  printItem (rs : List Nat) {live : List Nat} {item : Option Nat} (hp : ∀ p ∈ item, p ∈ live)
    (text : List Byte) :
    Meets (Owns enough rs live) (cm.printItem item text) fun r s =>
      Owns enough ((r.map Text.block).toList ++ rs) live s ∧ (∀ t ∈ r, t.chars = text) ∧
        (enough → item ≠ none → r ≠ none)
  /-- A tree is released with everything in it; of `NULL` there is none. -/
  deleteTree (rs live : List Nat) (item : Option Nat) :
    Meets (Owns enough (item.toList ++ rs) live) (cm.deleteTree item) fun _ s =>
      Owns enough rs [] s

namespace Sound

variable {cm : CJsonMem}

theorem createItem_owns (h : cm.Sound enough) : Meets (Owns enough rs live) cm.createItem
    fun p s => Owns enough (p.toList ++ rs) (p.toList ++ live) s ∧ (enough → p ≠ none) :=
  (h.createItem rs live).weaken fun _ _ hs => ⟨hs.1.1, hs.2⟩

end Sound

end CJsonMem

/-! ## An implementation -/

section Calls

variable (ok : Nat → Bool)

def createItem : HeapM (Option Nat) := fun s =>
  if ok s.calls then (some s.blocks.next, { s.tick with blocks := s.blocks.alloc })
  else (none, s.tick)

def addMember (object : Option Nat) : HeapM Bool := fun s =>
  match object with
  | none => (false, s.tick)
  | some p =>
    if ok s.calls then (true, { s.tick with blocks := s.blocks.allocIn p }) else (false, s.tick)

/-- The name of the item is copied. -/
def addItem (object item : Option Nat) : HeapM Bool := fun s =>
  match object, item with
  | _, none => (false, s)
  | none, some c => (false, { s with refused := c :: s.refused })
  | some p, some c =>
    if ok s.calls then (true, { s.tick with blocks := s.blocks.attach c p })
    else (false, { s.tick with refused := c :: s.refused })

/-- This needs no memory. -/
def append (array item : Option Nat) : HeapM Bool := fun s =>
  match array, item with
  | _, none => (false, s)
  | none, some c => (false, { s with refused := c :: s.refused })
  | some p, some c => (true, { s with blocks := s.blocks.attach c p })

def printItem (item : Option Nat) (text : List Byte) : HeapM (Option Text) := fun s =>
  match item with
  | none => (none, s)
  | some p =>
    if ok s.calls then
      (some ⟨s.blocks.next, text⟩, { s.tick with blocks := (s.blocks.use p).alloc })
    else (none, { s.tick with blocks := s.blocks.use p })

end Calls

def deleteTree (item : Option Nat) : HeapM Unit :=
  match item with
  | none => fun s => ((), s)
  | some r => freeBlock r

/-- `cJSON` on a heap in which `ok n` says whether the `n`-th call that needs memory finds some. -/
def heapCJson (ok : Nat → Bool) : CJsonMem where
  createItem := createItem ok
  parseItem := createItem ok
  addMember := addMember ok
  addItem := addItem ok
  append := append
  printItem := printItem ok
  deleteTree := deleteTree

/-- Every call finds memory. -/
def Enough (ok : Nat → Bool) : Prop := ∀ n, ok n = true

theorem createItem_meets : Meets (Owns (Enough ok) rs live) (createItem ok) fun p s =>
    (Owns (Enough ok) (p.toList ++ rs) (p.toList ++ live) s ∧
      ∀ c ∈ p, ∀ h ∈ live, s.blocks.rootOf h ≠ c) ∧ (Enough ok → p ≠ none) := by
  intro s hs q s' hr
  unfold createItem at hr
  split at hr
  · cases hr
    refine ⟨⟨⟨hs.trees.alloc, ?_, hs.refused⟩, ?_⟩, fun _ => Option.some_ne_none _⟩
    · intro h hh
      rw [Blocks.handles_alloc]
      rcases List.mem_cons.mp hh with rfl | hh
      · exact List.mem_cons_self
      · exact List.mem_cons_of_mem _ (hs.live h hh)
    · intro c hc h hh
      cases hc
      rw [Blocks.rootOf_alloc _ (hs.trees.ne_next (hs.live h hh))]
      exact hs.trees.rootOf_ne_next (hs.live h hh)
  · rename_i hno
    cases hr
    refine ⟨⟨hs.tick, ?_⟩, fun hall => absurd (hall s.calls) hno⟩
    intro c hc
    cases hc

theorem addMember_meets (hp : ∀ p ∈ q, p ∈ live) :
    Meets (Owns (Enough ok) rs live) (addMember ok q) fun added s =>
      Owns (Enough ok) rs live s ∧ (Enough ok → q ≠ none → added = true) := by
  intro s hs b s' hr
  unfold addMember at hr
  cases q with
  | none =>
    cases hr
    exact ⟨hs.tick, fun _ hne => absurd rfl hne⟩
  | some p =>
    simp only at hr
    split at hr
    · cases hr
      refine ⟨⟨hs.trees.allocIn (hs.live p (hp p rfl)), ?_, hs.refused⟩, fun _ _ => rfl⟩
      intro h hh
      rw [Blocks.handles_allocIn]
      exact List.mem_cons_of_mem _ (hs.live h hh)
    · rename_i hno
      cases hr
      exact ⟨hs.tick, fun hall => absurd (hall s.calls) hno⟩

/-- An item that is not added is refused. -/
theorem Owns.refuse (h : Owns enough rs live s) (hc : c ∈ rs) (hno : ¬ enough) :
    Owns enough (rs.erase c) live { s with refused := c :: s.refused } where
  trees := by
    refine h.trees.perm (List.Perm.trans ?_ List.perm_middle.symm)
    exact (List.perm_cons_erase hc).append_right s.refused
  live := h.live
  refused hall := absurd hall hno

/-- An item that is added is in the tree of `p`. -/
theorem Owns.attach (h : Owns enough rs live s) (hc : c ∈ rs) (hp : p ∈ live)
    (hne : s.blocks.rootOf p ≠ c) :
    Owns enough (rs.erase c) live { s with blocks := s.blocks.attach c p } where
  trees := by
    have := h.trees.attach (List.mem_append_left _ hc) (h.live p hp) hne
    rwa [List.erase_append_left _ hc] at this
  live x hx := by
    rw [Blocks.handles_attach]
    exact h.live x hx
  refused := h.refused

theorem addItem_meets (rs : List Nat) {object item : Option Nat} (hp : ∀ p ∈ object, p ∈ live) :
    Meets (fun s => Owns (Enough ok) (item.toList ++ rs) live s ∧ Given (Enough ok) object item s)
      (addItem ok object item) fun added s =>
        Owns (Enough ok) rs live s ∧ (Enough ok → item ≠ none → added = true) := by
  rintro s ⟨hs, hnone, hne⟩ b s' hr
  unfold addItem at hr
  cases item with
  | none =>
    cases hr
    exact ⟨hs, fun _ h => absurd rfl h⟩
  | some c =>
    have hc : (c :: rs).erase c = rs := List.erase_cons_head c rs
    cases object with
    | none =>
      cases hr
      have := hs.refuse List.mem_cons_self (hnone rfl)
      exact ⟨hc ▸ this, fun hall => absurd hall (hnone rfl)⟩
    | some p =>
      simp only at hr
      split at hr
      · cases hr
        have := hs.tick.attach List.mem_cons_self (hp p rfl) (hne p rfl c rfl)
        exact ⟨hc ▸ this, fun _ _ => rfl⟩
      · rename_i hno
        cases hr
        have hfail : ¬ Enough ok := fun hall => hno (hall s.calls)
        have := hs.tick.refuse List.mem_cons_self hfail
        exact ⟨hc ▸ this, fun hall => absurd hall hfail⟩

theorem append_meets (rs : List Nat) {array item : Option Nat} (hp : ∀ p ∈ array, p ∈ live) :
    Meets (fun s => Owns enough (item.toList ++ rs) live s ∧ Given enough array item s)
      (append array item) fun added s =>
        Owns enough rs live s ∧ (enough → item ≠ none → added = true) := by
  rintro s ⟨hs, hnone, hne⟩ b s' hr
  unfold append at hr
  cases item with
  | none =>
    cases array <;> cases hr <;> exact ⟨hs, fun _ h => absurd rfl h⟩
  | some c =>
    have hc : (c :: rs).erase c = rs := List.erase_cons_head c rs
    cases array with
    | none =>
      cases hr
      have := hs.refuse List.mem_cons_self (hnone rfl)
      exact ⟨hc ▸ this, fun hall => absurd hall (hnone rfl)⟩
    | some p =>
      cases hr
      have := hs.attach List.mem_cons_self (hp p rfl) (hne p rfl c rfl)
      exact ⟨hc ▸ this, fun _ _ => rfl⟩

theorem printItem_meets {item : Option Nat} (hp : ∀ p ∈ item, p ∈ live) (text : List Byte) :
    Meets (Owns (Enough ok) rs live) (printItem ok item text) fun r s =>
      Owns (Enough ok) ((r.map Text.block).toList ++ rs) live s ∧ (∀ t ∈ r, t.chars = text) ∧
        (Enough ok → item ≠ none → r ≠ none) := by
  intro s hs r s' hr
  unfold printItem at hr
  cases item with
  | none =>
    cases hr
    refine ⟨hs, fun t ht => ?_, fun _ h => absurd rfl h⟩
    cases ht
  | some p =>
    have huse := hs.trees.use (hs.live p (hp p rfl))
    simp only at hr
    split at hr
    · cases hr
      refine ⟨⟨huse.alloc, fun h hh => List.mem_cons_of_mem _ (hs.live h hh), hs.refused⟩,
        fun t ht => ?_, fun _ _ => Option.some_ne_none _⟩
      cases ht
      rfl
    · rename_i hno
      cases hr
      refine ⟨⟨huse, hs.live, hs.refused⟩, fun t ht => ?_, fun hall => absurd (hall s.calls) hno⟩
      cases ht

theorem deleteTree_meets (item : Option Nat) :
    Meets (Owns enough (item.toList ++ rs) live) (deleteTree item) fun _ s =>
      Owns enough rs [] s := by
  cases item with
  | none =>
    intro s hs _ s' hd
    cases hd
    exact hs.mono fun x hx => absurd hx List.not_mem_nil
  | some r => exact freeBlock_meets

/-- **It keeps the promises.** -/
theorem heapCJson_sound (ok : Nat → Bool) : (heapCJson ok).Sound (Enough ok) where
  createItem _ _ := createItem_meets
  parseItem _ _ := createItem_meets.weaken fun _ _ hs => hs.1.1
  addMember _ _ _ hp := addMember_meets hp
  addItem rs _ _ _ hp := addItem_meets rs hp
  append rs _ _ _ hp := append_meets rs hp
  printItem _ _ _ hp text := printItem_meets hp text
  deleteTree _ _ item := deleteTree_meets item

end Gateway.Lib
