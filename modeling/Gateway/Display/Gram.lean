import Gateway.Lib.Loop
import Mathlib.Data.Set.Basic

/-!
# The picture in the display's memory

Model of the drawing functions of `ssd1306.c`. `s_chDisplayBuffer[128][8]` is a `Buf 1024`: the
byte of column `x` and position `p` is at `8 * x + p`. Coordinates, sizes and dots are `uint8_t`
in the source and `Byte` here, and the arithmetic of the calls is theirs: `chXpos + i` is cut to
eight bits where it becomes an argument of `ssd1306_fill_point`.

* `fillPoint` (`ssd1306.c:173-190`) drops a point off the screen and else writes one bit.
* `drawBitmap` (`ssd1306.c:234-246`) reads a bitmap of rows of `(chWidth + 7) / 8` bytes. The
  reads are checked against the size of the array that the caller gives.
* `fillRectangle` (`ssd1306.c:81-91`) counts with `uint8_t` counters up to and with the corner.
* `clearScreen` is a `memset`, and `refreshGram` hands the buffer to the I²C transfer as it is.

`litAt b x y` is the picture: the bit of the pixel `(x, y)`.

Results:
* `fillPoint_spec`: no access of the buffer faults, and the one pixel is set.
* **`bitmap_drawn`**: `drawBitmap` faults exactly on a bitmap that is too short; else a pixel is
  lit if it was or if the bit that falls on it is set, with the bitmap wrapped around the 256
  columns and rows of `uint8_t`.
* **`rectangle_filled`**: `fillRectangle` returns exactly if no counter has to pass 255, and then
  it has filled the rectangle and changed nothing else.
* `startDisplay_spec`: what `app_main` shows.

Out of scope: the text functions and their fonts, and the commands of `ssd1306_init`.
-/

namespace Gateway.Display

open Lib

/-- `s_chDisplayBuffer`. -/
abbrev Gram := Buf 1024

/-- Where the pixel `(x, y)` is: its byte, `[x][7 - y / 8]`. -/
def gramIndex (x y : Nat) : Nat := 8 * x + (7 - y / 8)

/-- The pixel `(x, y)`. -/
def litAt (b : Gram) (x y : Nat) : Bool := (byteAt b.bytes (gramIndex x y)).getLsbD (7 - y % 8)

/-- `ssd1306_fill_point`. -/
def fillPoint (dev : Gram) (chXpos chYpos chPoint : Byte) : Except Fault Gram :=
  if chXpos.toNat > 127 ∨ chYpos.toNat > 63 then .ok dev
  else do
    let chPos := 7 - chYpos.toNat / 8
    let chBx := chYpos.toNat % 8
    let chTemp : Byte := 1#8 <<< (7 - chBx)
    let old ← dev.load8 (8 * chXpos.toNat + chPos)
    dev.store (8 * chXpos.toNat + chPos)
      [if chPoint ≠ 0 then old ||| chTemp else old &&& ~~~chTemp]

/-- `ssd1306_clear_screen`. -/
def clearScreen (_dev : Gram) (chFill : Byte) : Gram := Buf.fill 1024 chFill

/-- The data of the transfer of `ssd1306_refresh_gram`. -/
def refreshGram (dev : Gram) : List Byte := dev.bytes

/-- `ssd1306_draw_bitmap`. `pchBmp` points to an array of `n` bytes. -/
def drawBitmap {n : Nat} (dev : Gram) (chXpos chYpos : Byte) (pchBmp : Buf n)
    (chWidth chHeight : Byte) : Except Fault Gram :=
  let byteWidth := (chWidth.toNat + 7) / 8
  forBelow (fun j dev =>
    forBelow (fun i dev => do
      let v ← pchBmp.load8 (j * byteWidth + i / 8)
      if v &&& (128#8 >>> (i &&& 7)) ≠ 0 then
        fillPoint dev (BitVec.ofNat 8 (chXpos.toNat + i)) (BitVec.ofNat 8 (chYpos.toNat + j)) 1
      else .ok dev) chWidth.toNat dev) chHeight.toNat dev

/-- `ssd1306_fill_rectangle`, with at most `fuel` rounds of each loop. -/
def fillRectangle (fuel : Nat) (dev : Gram) (chXpos1 chYpos1 chXpos2 chYpos2 chDot : Byte) :
    Except Fault Gram :=
  forUpTo (fun chXpos dev =>
    forUpTo (fun chYpos dev => fillPoint dev chXpos chYpos chDot) chYpos2 fuel chYpos1 dev)
    chXpos2 fuel chXpos1 dev

/-- `cChBat816`. -/
def cChBat816 : Buf 16 :=
  ⟨[0x0F, 0xFE, 0x30, 0x02, 0x26, 0xDA, 0x26, 0xDA, 0x26, 0xDA, 0x26, 0xDA, 0x30, 0x02, 0x0F, 0xFE],
    rfl⟩

/-- What `app_main` does with the display, and the data of the transfer: it clears the buffer,
draws the battery at the upper left corner and refreshes (`main.c:182-192`). -/
def startDisplay (dev : Gram) : Except Fault (List Byte) := do
  let dev ← drawBitmap (clearScreen dev 0) 0 0 cChBat816 8 16
  .ok (refreshGram dev)

/-! ## One pixel -/

theorem gramIndex_lt {x y : Nat} (hx : x < 128) : gramIndex x y < 1024 := by
  unfold gramIndex
  omega

/-- Two pixels share a byte only if they share its column and its eight rows. -/
theorem gramIndex_inj {x y x' y' : Nat} (hy : y < 64) (hy' : y' < 64)
    (h : gramIndex x y = gramIndex x' y') : x = x' ∧ y / 8 = y' / 8 := by
  unfold gramIndex at h
  omega

/-- The bit that `fillPoint` writes, and the other bits of its byte. -/
theorem getLsbD_mask (old : Byte) {k i : Nat} (hk : k < 8) (hi : i < 8) (dot : Prop)
    [Decidable dot] :
    (if dot then old ||| 1#8 <<< k else old &&& ~~~(1#8 <<< k)).getLsbD i =
      if i = k then decide dot else old.getLsbD i := by
  have hmask : (1#8 <<< k).getLsbD i = decide (i = k) := by
    rw [← BitVec.twoPow_eq, BitVec.getLsbD_twoPow]
    by_cases h : i = k
    · subst h
      simp [hi]
    · simp [h, Ne.symm h]
  by_cases hdot : dot
  · rw [if_pos hdot, BitVec.getLsbD_or, hmask]
    by_cases h : i = k
    · simp [h, hdot]
    · simp [h]
  · rw [if_neg hdot, BitVec.getLsbD_and, BitVec.getLsbD_not, hmask]
    by_cases h : i = k
    · simp [h, hdot]
    · simp [h, hi]

/-- A buffer after one byte is stored. -/
theorem litAt_store {b c : Gram} {i : Nat} {v : Byte} (hi : i < 1024)
    (hc : c.bytes = writeAt b.bytes i [v]) (x y : Nat) :
    litAt c x y = if gramIndex x y = i then v.getLsbD (7 - y % 8) else litAt b x y := by
  have hsize : i + [v].length ≤ b.bytes.length := by
    rw [b.size]
    exact hi
  unfold litAt
  rw [hc, byteAt_writeAt hsize, List.length_singleton]
  by_cases h : gramIndex x y = i
  · rw [if_pos ⟨by omega, by omega⟩, if_pos h, h, Nat.sub_self]
    rfl
  · rw [if_neg (by omega), if_neg h]

/-- What is drawn: the pixels of `S` are set to `on`, and the other pixels of the screen stay. -/
def Drawn (on : Bool) (S : Set (Nat × Nat)) (b b' : Gram) : Prop :=
  ∀ x y, x < 128 → y < 64 →
    ((x, y) ∈ S → litAt b' x y = on) ∧ ((x, y) ∉ S → litAt b' x y = litAt b x y)

namespace Drawn

variable {on : Bool} {S T : Set (Nat × Nat)} {b b' b'' : Gram}

theorem nothing : Drawn on ∅ b b := by
  intro x y _ _
  exact ⟨fun h => absurd h (Set.notMem_empty _), fun _ => rfl⟩

/-- Drawing twice with the same colour. -/
theorem trans (h : Drawn on S b b') (h' : Drawn on T b' b'') : Drawn on (S ∪ T) b b'' := by
  intro x y hx hy
  constructor
  · intro hmem
    by_cases hT : (x, y) ∈ T
    · exact (h' x y hx hy).1 hT
    · rw [(h' x y hx hy).2 hT]
      exact (h x y hx hy).1 (hmem.resolve_right hT)
  · intro hmem
    rw [(h' x y hx hy).2 fun hT => hmem (Or.inr hT), (h x y hx hy).2 fun hS => hmem (Or.inl hS)]

/-- Only the pixels of the screen count. -/
theorem congr (h : Drawn on S b b') (hST : ∀ x y, x < 128 → y < 64 → ((x, y) ∈ S ↔ (x, y) ∈ T)) :
    Drawn on T b b' := by
  intro x y hx hy
  have hmem := hST x y hx hy
  constructor
  · intro hT
    exact (h x y hx hy).1 (hmem.mpr hT)
  · intro hT
    exact (h x y hx hy).2 fun hS => hT (hmem.mp hS)

end Drawn

/-- **One point**: no access faults, and one pixel at most is set. -/
theorem fillPoint_spec (b : Gram) (x y dot : Byte) :
    ∃ b', fillPoint b x y dot = .ok b' ∧
      Drawn (decide (dot ≠ 0)) {(x.toNat, y.toNat)} b b' := by
  unfold fillPoint
  by_cases hoff : x.toNat > 127 ∨ y.toNat > 63
  · refine ⟨b, if_pos hoff, fun px py hpx hpy => ⟨fun h => ?_, fun _ => rfl⟩⟩
    have h' : (px, py) = (x.toNat, y.toNat) := h
    obtain ⟨rfl, rfl⟩ := Prod.mk.inj h'
    omega
  · have hx : x.toNat < 128 := by omega
    have hy : y.toNat < 64 := by omega
    have hidx := gramIndex_lt (y := y.toNat) hx
    rw [if_neg hoff]
    show ∃ b', (b.load8 (gramIndex x.toNat y.toNat) >>= _) = _ ∧ _
    rw [Buf.load8_ok b hidx]
    obtain ⟨c, hc, hbytes⟩ := Buf.store_ok b (gramIndex x.toNat y.toNat)
      [if dot ≠ 0 then byteAt b.bytes (gramIndex x.toNat y.toNat) ||| 1#8 <<< (7 - y.toNat % 8)
        else byteAt b.bytes (gramIndex x.toNat y.toNat) &&& ~~~(1#8 <<< (7 - y.toNat % 8))] hidx
    refine ⟨c, hc, fun px py hpx hpy => ?_⟩
    rw [litAt_store hidx hbytes]
    by_cases hsame : gramIndex px py = gramIndex x.toNat y.toNat
    · -- the byte that is written: the bit of the pixel, and the seven others
      obtain ⟨rfl, hpage⟩ := gramIndex_inj hpy hy hsame
      rw [if_pos hsame, getLsbD_mask _ (by omega) (by omega)]
      constructor
      · intro hmem
        obtain ⟨-, rfl⟩ := Prod.mk.inj (hmem : (x.toNat, py) = (x.toNat, y.toNat))
        exact if_pos rfl
      · intro hmem
        have hne : py ≠ y.toNat := fun h => hmem (h ▸ rfl)
        rw [if_neg (by omega), ← hsame]
        rfl
    · rw [if_neg hsame]
      refine ⟨fun hmem => ?_, fun _ => rfl⟩
      obtain ⟨rfl, rfl⟩ := Prod.mk.inj (hmem : (px, py) = (x.toNat, y.toNat))
      exact absurd rfl hsame

/-! ## Bitmaps -/

/-- The bit in column `i` of row `j` of a bitmap whose rows are `byteWidth` bytes. -/
def bitAt {n : Nat} (pchBmp : Buf n) (byteWidth i j : Nat) : Bool :=
  (byteAt pchBmp.bytes (j * byteWidth + i / 8)).getLsbD (7 - i % 8)

theorem mask_bit (v : Byte) (i : Nat) :
    v &&& (128#8 >>> (i &&& 7)) ≠ 0 ↔ v.getLsbD (7 - i % 8) = true := by
  have hmask : ∀ k : Fin 8, ∀ v : Byte,
      v &&& (128#8 >>> k.val) ≠ 0 ↔ v.getLsbD (7 - k.val) = true := by decide +kernel
  have hand : i &&& 7 = i % 8 := Nat.and_two_pow_sub_one_eq_mod i 3
  rw [hand]
  exact hmask ⟨i % 8, Nat.mod_lt i (by omega)⟩ v

section Bitmap

variable {n : Nat} (x y : Byte) (bmp : Buf n) (byteWidth : Nat)

/-- Where the set bits among `cells` fall on the 256 columns and rows of `uint8_t`. -/
def placed (cells : Set (Nat × Nat)) : Set (Nat × Nat) :=
  {p | ∃ i j, (i, j) ∈ cells ∧ bitAt bmp byteWidth i j = true ∧
    p = ((x.toNat + i) % 256, (y.toNat + j) % 256)}

theorem placed_union (C D : Set (Nat × Nat)) :
    placed x y bmp byteWidth (C ∪ D) =
      placed x y bmp byteWidth C ∪ placed x y bmp byteWidth D := by
  ext p
  constructor
  · rintro ⟨i, j, hC | hD, h⟩
    · exact Or.inl ⟨i, j, hC, h⟩
    · exact Or.inr ⟨i, j, hD, h⟩
  · rintro (⟨i, j, hC, h⟩ | ⟨i, j, hD, h⟩)
    · exact ⟨i, j, Or.inl hC, h⟩
    · exact ⟨i, j, Or.inr hD, h⟩

theorem placed_empty : placed x y bmp byteWidth ∅ = ∅ := by
  ext p
  exact ⟨fun ⟨i, j, h, _⟩ => absurd h (Set.notMem_empty _), fun h => absurd h (Set.notMem_empty _)⟩

theorem placed_singleton (i j : Nat) :
    placed x y bmp byteWidth {(i, j)} =
      if bitAt bmp byteWidth i j = true then {((x.toNat + i) % 256, (y.toNat + j) % 256)}
      else ∅ := by
  ext p
  constructor
  · rintro ⟨i', j', hcell, hbit, rfl⟩
    obtain ⟨rfl, rfl⟩ := Prod.mk.inj (hcell : (i', j') = (i, j))
    rw [if_pos hbit]
    rfl
  · intro hp
    by_cases hbit : bitAt bmp byteWidth i j = true
    · rw [if_pos hbit] at hp
      exact ⟨i, j, rfl, hbit, hp⟩
    · rw [if_neg hbit] at hp
      exact absurd hp (Set.notMem_empty _)

/-- The first `i` bits of row `j`. -/
def rowCells (j i : Nat) : Set (Nat × Nat) := {c | c.1 < i ∧ c.2 = j}

/-- The first `j` rows of `w` bits. -/
def rowsCells (w j : Nat) : Set (Nat × Nat) := {c | c.1 < w ∧ c.2 < j}

theorem rowCells_succ (j i : Nat) : rowCells j (i + 1) = rowCells j i ∪ {(i, j)} := by
  ext ⟨a, b⟩
  show a < i + 1 ∧ b = j ↔ (a < i ∧ b = j) ∨ (a, b) = (i, j)
  rw [Prod.mk.injEq]
  omega

theorem rowsCells_succ (w j : Nat) : rowsCells w (j + 1) = rowsCells w j ∪ rowCells j w := by
  ext ⟨a, b⟩
  show a < w ∧ b < j + 1 ↔ (a < w ∧ b < j) ∨ (a < w ∧ b = j)
  omega

theorem rowCells_zero (j : Nat) : rowCells j 0 = ∅ :=
  Set.eq_empty_of_forall_notMem fun c h => Nat.not_lt_zero c.1 h.1

theorem rowsCells_zero (w : Nat) : rowsCells w 0 = ∅ :=
  Set.eq_empty_of_forall_notMem fun c h => Nat.not_lt_zero c.2 h.2

/-- A row of `w` bits is in the first `(w + 7) / 8` bytes. -/
theorem row_byte_lt {w i : Nat} (hi : i < w) : i / 8 < (w + 7) / 8 := by omega

/-- One bit of the bitmap. -/
def drawBit (i j : Nat) (dev : Gram) : Except Fault Gram := do
  let v ← bmp.load8 (j * byteWidth + i / 8)
  if v &&& (128#8 >>> (i &&& 7)) ≠ 0 then
    fillPoint dev (BitVec.ofNat 8 (x.toNat + i)) (BitVec.ofNat 8 (y.toNat + j)) 1
  else .ok dev

/-- A bit that is in the array. -/
theorem drawBit_spec {i j : Nat} (h : j * byteWidth + i / 8 < n) (dev : Gram) :
    ∃ dev', drawBit x y bmp byteWidth i j dev = .ok dev' ∧
      Drawn true (placed x y bmp byteWidth {(i, j)}) dev dev' := by
  unfold drawBit
  rw [Buf.load8_ok bmp h, placed_singleton]
  show ∃ dev', (if byteAt bmp.bytes (j * byteWidth + i / 8) &&& (128#8 >>> (i &&& 7)) ≠ 0 then
    fillPoint dev (BitVec.ofNat 8 (x.toNat + i)) (BitVec.ofNat 8 (y.toNat + j)) 1
    else .ok dev) = .ok dev' ∧ _
  by_cases hbit : bitAt bmp byteWidth i j = true
  · rw [if_pos hbit, if_pos ((mask_bit _ i).mpr hbit)]
    have hpoint :=
      fillPoint_spec dev (BitVec.ofNat 8 (x.toNat + i)) (BitVec.ofNat 8 (y.toNat + j)) 1
    rwa [BitVec.toNat_ofNat, BitVec.toNat_ofNat] at hpoint
  · rw [if_neg hbit, if_neg fun h => hbit ((mask_bit _ i).mp h)]
    exact ⟨dev, rfl, Drawn.nothing⟩

/-- A bit that is not. -/
theorem drawBit_fault {i j : Nat} (h : n ≤ j * byteWidth + i / 8) (dev : Gram) :
    drawBit x y bmp byteWidth i j dev = .error (.outOfBounds n (j * byteWidth + i / 8) 1) := by
  unfold drawBit Buf.load8
  rw [if_neg (Nat.not_lt.mpr h)]
  rfl

/-- One row of the bitmap. -/
def drawRow (w j : Nat) : Gram → Except Fault Gram :=
  forBelow (fun i => drawBit x y bmp byteWidth i j) w

theorem drawRow_spec {w j : Nat} (h : (j + 1) * ((w + 7) / 8) ≤ n) (dev : Gram) :
    ∃ dev', drawRow x y bmp ((w + 7) / 8) w j dev = .ok dev' ∧
      Drawn true (placed x y bmp ((w + 7) / 8) (rowCells j w)) dev dev' := by
  refine forBelow_ok
    (fun i t => Drawn true (placed x y bmp ((w + 7) / 8) (rowCells j i)) dev t) ?_ ?_
  · rw [rowCells_zero, placed_empty]
    exact Drawn.nothing
  · intro i hi t ht
    have hbyte := row_byte_lt hi
    rw [Nat.succ_mul] at h
    obtain ⟨t', hok, hdrawn⟩ := drawBit_spec x y bmp ((w + 7) / 8) (i := i) (j := j) (by omega) t
    refine ⟨t', hok, ?_⟩
    rw [rowCells_succ, placed_union]
    exact ht.trans hdrawn

/-- The faults of a row are reads past the end of the array. -/
theorem drawRow_fault {w j : Nat} {dev : Gram} {e : Fault}
    (h : drawRow x y bmp byteWidth w j dev = .error e) :
    ∃ off, n ≤ off ∧ e = .outOfBounds n off 1 := by
  refine forBelow_fault (fun e => ∃ off, n ≤ off ∧ e = .outOfBounds n off 1) ?_ h
  intro i _ t e he
  by_cases hin : j * byteWidth + i / 8 < n
  · obtain ⟨t', hok, -⟩ := drawBit_spec x y bmp byteWidth hin t
    rw [hok] at he
    cases he
  · rw [drawBit_fault x y bmp byteWidth (Nat.le_of_not_lt hin)] at he
    cases he
    exact ⟨j * byteWidth + i / 8, Nat.le_of_not_lt hin, rfl⟩

end Bitmap

/-- How far the coordinate `p` is from `x` on, counted around the 256 values of `uint8_t`. -/
def around (x : Byte) (p : Nat) : Nat := (p + 256 - x.toNat) % 256

theorem around_zero {p : Nat} (hp : p < 256) : around 0 p = p := by
  show (p + 256 - 0) % 256 = p
  omega

/-- On the screen each pixel gets one bit of the bitmap at most. -/
theorem mem_placed {n : Nat} {x y w h : Byte} {bmp : Buf n} {byteWidth px py : Nat}
    (hpx : px < 128) (hpy : py < 64) :
    (px, py) ∈ placed x y bmp byteWidth (rowsCells w.toNat h.toNat) ↔
      around x px < w.toNat ∧ around y py < h.toNat ∧
        bitAt bmp byteWidth (around x px) (around y py) = true := by
  have hx := x.isLt
  have hy := y.isLt
  have hw := w.isLt
  have hh := h.isLt
  unfold around
  constructor
  · rintro ⟨i, j, ⟨hi, hj⟩, hbit, hp⟩
    obtain ⟨rfl, rfl⟩ := Prod.mk.inj hp
    have hi' : i < w.toNat := hi
    have hj' : j < h.toNat := hj
    have ei : ((x.toNat + i) % 256 + 256 - x.toNat) % 256 = i := by omega
    have ej : ((y.toNat + j) % 256 + 256 - y.toNat) % 256 = j := by omega
    rw [ei, ej]
    exact ⟨hi', hj', hbit⟩
  · rintro ⟨hi, hj, hbit⟩
    refine ⟨_, _, ⟨hi, hj⟩, hbit, Prod.ext ?_ ?_⟩
    · show px = (x.toNat + (px + 256 - x.toNat) % 256) % 256
      omega
    · show py = (y.toNat + (py + 256 - y.toNat) % 256) % 256
      omega

/-- **A bitmap that is large enough** is drawn whole. -/
theorem drawBitmap_ok {n : Nat} (b : Gram) (x y : Byte) (bmp : Buf n) (w h : Byte)
    (hn : h.toNat * ((w.toNat + 7) / 8) ≤ n) :
    ∃ b', drawBitmap b x y bmp w h = .ok b' ∧
      Drawn true (placed x y bmp ((w.toNat + 7) / 8) (rowsCells w.toNat h.toNat)) b b' := by
  refine forBelow_ok (fun j t => Drawn true
    (placed x y bmp ((w.toNat + 7) / 8) (rowsCells w.toNat j)) b t) ?_ ?_
  · rw [rowsCells_zero, placed_empty]
    exact Drawn.nothing
  · intro j hj t ht
    have hrow : (j + 1) * ((w.toNat + 7) / 8) ≤ n := le_trans (Nat.mul_le_mul_right _ hj) hn
    obtain ⟨t', hok, hdrawn⟩ := drawRow_spec x y bmp hrow t
    refine ⟨t', hok, ?_⟩
    rw [rowsCells_succ, placed_union]
    exact ht.trans hdrawn

/-- **A bitmap that is too short** is read past its end. -/
theorem drawBitmap_fault {n : Nat} (b : Gram) (x y : Byte) (bmp : Buf n) (w h : Byte)
    (hn : n < h.toNat * ((w.toNat + 7) / 8)) :
    ∃ off, n ≤ off ∧ drawBitmap b x y bmp w h = .error (.outOfBounds n off 1) := by
  have hw : 0 < w.toNat := by
    by_contra hw
    rw [show w.toNat = 0 by omega] at hn
    omega
  have hh : 0 < h.toNat := by
    by_contra hh
    rw [show h.toNat = 0 by omega, Nat.zero_mul] at hn
    omega
  -- the last byte that is read is the last one of the bitmap
  have hlast : n ≤ (h.toNat - 1) * ((w.toNat + 7) / 8) + (w.toNat - 1) / 8 := by
    obtain ⟨k, hk⟩ := Nat.exists_eq_succ_of_ne_zero (Nat.ne_of_gt hh)
    rw [hk, Nat.succ_mul] at hn
    rw [hk, Nat.succ_sub_one]
    omega
  have hstuck : ∀ t t', drawRow x y bmp ((w.toNat + 7) / 8) w.toNat (h.toNat - 1) t ≠ .ok t' := by
    intro t
    refine forBelow_stuck (Nat.sub_lt hw Nat.one_pos) fun u u' hu => ?_
    rw [drawBit_fault x y bmp _ hlast] at hu
    cases hu
  have hfault := forBelow_error (s := b) (fun e => ∃ off, n ≤ off ∧ e = .outOfBounds n off 1)
    (Nat.sub_lt hh Nat.one_pos) hstuck fun j _ t e he => drawRow_fault x y bmp _ he
  obtain ⟨e, he, off, hoff, rfl⟩ := hfault
  exact ⟨off, hoff, he⟩

theorem litAt_clear (dev : Gram) {x : Nat} (y : Nat) (hx : x < 128) :
    litAt (clearScreen dev 0) x y = false := by
  have hidx := gramIndex_lt (y := y) hx
  show (byteAt (List.replicate 1024 (0 : Byte)) (gramIndex x y)).getLsbD (7 - y % 8) = false
  unfold byteAt
  rw [List.getD_eq_getElem?_getD, List.getElem?_replicate, if_pos hidx]
  exact BitVec.getLsbD_zero

/-- **At the start the screen shows the icon and nothing else**, whatever the memory held. -/
theorem startDisplay_spec (dev : Gram) :
    ∃ b : Gram, startDisplay dev = .ok b.bytes ∧ ∀ x y, x < 128 → y < 64 →
      (litAt b x y = true ↔ x < 8 ∧ y < 16 ∧ bitAt cChBat816 1 x y = true) := by
  obtain ⟨b, hb, hdrawn⟩ :=
    drawBitmap_ok (clearScreen dev 0) 0 0 cChBat816 8 16 (Nat.le_refl 16)
  refine ⟨b, ?_, fun x y hx hy => ?_⟩
  · unfold startDisplay
    rw [hb]
    rfl
  · have hpixel := hdrawn x y hx hy
    have hcell : (x, y) ∈ placed 0 0 cChBat816 1 (rowsCells 8 16) ↔
        around 0 x < 8 ∧ around 0 y < 16 ∧
          bitAt cChBat816 1 (around 0 x) (around 0 y) = true := mem_placed (w := 8) (h := 16) hx hy
    rw [around_zero (by omega), around_zero (by omega)] at hcell
    rw [← hcell]
    refine ⟨fun hlit => ?_, fun hmem => hpixel.1 hmem⟩
    by_contra hmem
    rw [hpixel.2 hmem, litAt_clear dev y hx] at hlit
    cases hlit

/-- **What `ssd1306_draw_bitmap` draws, and when it can.** It returns exactly if the array holds
`chHeight` rows of `(chWidth + 7) / 8` bytes, and else reads past the array's end; no point it
draws is out of the bounds of the display buffer. When it returns, a pixel of the screen is lit if
it was before or if the bit of the bitmap that falls on it is set, where the bitmap is laid around
the 256 columns and rows that `uint8_t` counts: what leaves the right or the lower edge at 256 comes
back at 0. -/
theorem bitmap_drawn {n : Nat} (b : Gram) (x y : Byte) (bmp : Buf n) (w h : Byte) :
    ((∃ b', drawBitmap b x y bmp w h = .ok b') ↔ h.toNat * ((w.toNat + 7) / 8) ≤ n) ∧
    (∀ e, drawBitmap b x y bmp w h = .error e → ∃ off, n ≤ off ∧ e = .outOfBounds n off 1) ∧
    (∀ b', drawBitmap b x y bmp w h = .ok b' → ∀ px py, px < 128 → py < 64 →
      litAt b' px py = (litAt b px py ||
        decide (around x px < w.toNat ∧ around y py < h.toNat) &&
          bitAt bmp ((w.toNat + 7) / 8) (around x px) (around y py))) ∧
    (∀ (dev : Gram) (p q dot : Byte), ∃ dev', fillPoint dev p q dot = .ok dev') := by
  have hpoint (dev : Gram) (p q dot : Byte) : ∃ dev', fillPoint dev p q dot = .ok dev' :=
    (fillPoint_spec dev p q dot).imp fun _ h => h.1
  by_cases hn : h.toNat * ((w.toNat + 7) / 8) ≤ n
  · obtain ⟨c, hc, hdrawn⟩ := drawBitmap_ok b x y bmp w h hn
    rw [hc]
    refine ⟨⟨fun _ => hn, fun _ => ⟨c, rfl⟩⟩, ?_, ?_, hpoint⟩
    · intro e he
      cases he
    intro b' hb' px py hpx hpy
    cases hb'
    have hpixel := hdrawn px py hpx hpy
    rw [mem_placed hpx hpy] at hpixel
    by_cases hin : around x px < w.toNat ∧ around y py < h.toNat
    · rw [decide_eq_true hin, Bool.true_and]
      cases hbit : bitAt bmp ((w.toNat + 7) / 8) (around x px) (around y py) with
      | true => rw [Bool.or_true, hpixel.1 ⟨hin.1, hin.2, hbit⟩]
      | false =>
        rw [Bool.or_false, hpixel.2 fun hmem => by rw [hbit] at hmem; cases hmem.2.2]
    · rw [decide_eq_false hin, Bool.false_and, Bool.or_false,
        hpixel.2 fun hmem => hin ⟨hmem.1, hmem.2.1⟩]
  · obtain ⟨off, hoff, hc⟩ := drawBitmap_fault b x y bmp w h (Nat.lt_of_not_le hn)
    rw [hc]
    refine ⟨⟨?_, fun hle => absurd hle hn⟩, ?_, ?_, hpoint⟩
    · rintro ⟨c, hok⟩
      cases hok
    · intro e he
      cases he
      exact ⟨off, hoff, rfl⟩
    · intro b' hb'
      cases hb'

/-! ## Rectangles -/

/-- The columns from `x1` on and before `x2`, with the rows from `y1` on and before `y2`. -/
def block (x1 x2 y1 y2 : Nat) : Set (Nat × Nat) :=
  {p | (x1 ≤ p.1 ∧ p.1 < x2) ∧ (y1 ≤ p.2 ∧ p.2 < y2)}

theorem block_row {x y1 c : Nat} (h : y1 ≤ c) :
    block x (x + 1) y1 (c + 1) = block x (x + 1) y1 c ∪ {(x, c)} := by
  ext ⟨a, d⟩
  show (x ≤ a ∧ a < x + 1) ∧ (y1 ≤ d ∧ d < c + 1) ↔
    ((x ≤ a ∧ a < x + 1) ∧ (y1 ≤ d ∧ d < c)) ∨ (a, d) = (x, c)
  rw [Prod.mk.injEq]
  omega

theorem block_column {x1 c y1 y2 : Nat} (h : x1 ≤ c) :
    block x1 (c + 1) y1 y2 = block x1 c y1 y2 ∪ block c (c + 1) y1 y2 := by
  ext ⟨a, d⟩
  show (x1 ≤ a ∧ a < c + 1) ∧ (y1 ≤ d ∧ d < y2) ↔
    ((x1 ≤ a ∧ a < c) ∧ (y1 ≤ d ∧ d < y2)) ∨ ((c ≤ a ∧ a < c + 1) ∧ (y1 ≤ d ∧ d < y2))
  omega

theorem block_empty {x1 x2 y1 y2 : Nat} (h : x2 ≤ x1 ∨ y2 ≤ y1) : block x1 x2 y1 y2 = ∅ := by
  refine Set.eq_empty_of_forall_notMem fun p hp => ?_
  have := hp.1
  have := hp.2
  omega

/-- An end before the start is as good as the start. -/
theorem block_max_columns (x1 x2 y1 y2 : Nat) :
    block x1 (max x1 x2) y1 y2 = block x1 x2 y1 y2 := by
  ext ⟨a, d⟩
  show (x1 ≤ a ∧ a < max x1 x2) ∧ (y1 ≤ d ∧ d < y2) ↔ (x1 ≤ a ∧ a < x2) ∧ (y1 ≤ d ∧ d < y2)
  omega

theorem block_max_rows (x1 x2 y1 y2 : Nat) :
    block x1 x2 y1 (max y1 y2) = block x1 x2 y1 y2 := by
  ext ⟨a, d⟩
  show (x1 ≤ a ∧ a < x2) ∧ (y1 ≤ d ∧ d < max y1 y2) ↔ (x1 ≤ a ∧ a < x2) ∧ (y1 ≤ d ∧ d < y2)
  omega

/-- The inner loop of `fillRectangle`. -/
def fillColumn (fuel : Nat) (x y1 y2 dot : Byte) (dev : Gram) : Except Fault Gram :=
  forUpTo (fun chYpos dev => fillPoint dev x chYpos dot) y2 fuel y1 dev

/-- A counter that ends below 255. -/
theorem toNat_succ_lt {c : Byte} (h : c ≠ 255) : c.toNat + 1 < 2 ^ 8 := by
  have hlt := c.isLt
  have hne : c.toNat ≠ 255 := fun he => h (BitVec.eq_of_toNat_eq he)
  omega

theorem fillColumn_ok {x y1 y2 dot : Byte} (hy : y2 ≠ 255) (b : Gram) :
    ∃ b', fillColumn 256 x y1 y2 dot b = .ok b' := by
  have hlt := toNat_succ_lt hy
  obtain ⟨b', hb', -⟩ := forUpTo_ok (s := b) (fun _ _ => True) hlt
    (fun c _ t _ => by
      obtain ⟨t', ht', -⟩ := fillPoint_spec t x c dot
      exact ⟨t', ht', trivial⟩) (show y2.toNat + 1 - y1.toNat < 256 by omega) trivial
  exact ⟨b', hb'⟩

theorem fillColumn_drawn {fuel : Nat} {x y1 y2 dot : Byte} (hy : y2 ≠ 255) {b b' : Gram}
    (h : fillColumn fuel x y1 y2 dot b = .ok b') :
    Drawn (decide (dot ≠ 0)) (block x.toNat (x.toNat + 1) y1.toNat (y2.toNat + 1)) b b' := by
  have hend := forUpTo_keeps (fun c t => y1.toNat ≤ c ∧
    Drawn (decide (dot ≠ 0)) (block x.toNat (x.toNat + 1) y1.toNat c) b t) (toNat_succ_lt hy)
    (fun c _ t t' ht hc => by
      obtain ⟨t'', ht'', hdrawn⟩ := fillPoint_spec t x c dot
      rw [ht''] at hc
      cases hc
      refine ⟨Nat.le_succ_of_le ht.1, ?_⟩
      rw [block_row ht.1]
      exact ht.2.trans hdrawn)
    ⟨Nat.le_refl _, by rw [block_empty (Or.inr (Nat.le_refl _))]; exact Drawn.nothing⟩ h
  rw [← block_max_rows]
  exact hend.2

/-- When a column is reached, the lower edge is not at 255. -/
theorem reached_rows {x1 x2 y2 : Byte} (hor : x2 < x1 ∨ y2 ≠ 255) (c : Byte) (hc : c ≤ x2)
    (hle : x1.toNat ≤ c.toNat) : y2 ≠ 255 := by
  refine hor.resolve_left fun hlt => ?_
  have hlt : x2.toNat < x1.toNat := hlt
  have hc : c.toNat ≤ x2.toNat := hc
  omega

/-- **What `ssd1306_fill_rectangle` fills, and when it returns.** Its counters are `uint8_t` and
run up to and with the corner, so a corner at 255 is never passed: the function returns exactly
if the right edge is not 255 and the lower edge is not 255 either, unless there is no column to
fill. Each run that returns has set the pixels of the rectangle, both edges included, and
changed no other pixel. -/
theorem rectangle_filled (b : Gram) (x1 y1 x2 y2 dot : Byte) :
    ((∃ fuel b', fillRectangle fuel b x1 y1 x2 y2 dot = .ok b') ↔
      x2 ≠ 255 ∧ (x2 < x1 ∨ y2 ≠ 255)) ∧
    ∀ fuel b', fillRectangle fuel b x1 y1 x2 y2 dot = .ok b' →
      Drawn (decide (dot ≠ 0)) (block x1.toNat (x2.toNat + 1) y1.toNat (y2.toNat + 1)) b b' := by
  have hreturns : ∀ fuel b', fillRectangle fuel b x1 y1 x2 y2 dot = .ok b' →
      x2 ≠ 255 ∧ (x2 < x1 ∨ y2 ≠ 255) := by
    intro fuel b' h
    refine ⟨?_, ?_⟩
    · rintro rfl
      exact forUpTo_endless rfl fuel x1 b b' h
    · by_contra hor
      obtain ⟨hx, hy⟩ := not_or.mp hor
      obtain rfl := not_not.mp hy
      exact forUpTo_stuck (BitVec.not_lt.mp hx)
        (fun t => forUpTo_endless rfl fuel y1 b t) fuel b' h
  refine ⟨⟨fun ⟨fuel, b', h⟩ => hreturns fuel b' h, ?_⟩, ?_⟩
  · rintro ⟨hx, hor⟩
    have hlt := toNat_succ_lt hx
    have hstep : ∀ c : Byte, c ≤ x2 → ∀ t, x1.toNat ≤ c.toNat →
        ∃ t', fillColumn 256 c y1 y2 dot t = .ok t' ∧ x1.toNat ≤ c.toNat + 1 := by
      intro c hc t hle
      obtain ⟨t', ht'⟩ := fillColumn_ok (reached_rows hor c hc hle) t
      exact ⟨t', ht', Nat.le_succ_of_le hle⟩
    have hfuel : x2.toNat + 1 - x1.toNat < 256 := by omega
    obtain ⟨b', hb', -⟩ := forUpTo_ok (s := b) (fun c _ => x1.toNat ≤ c) hlt hstep hfuel
      (Nat.le_refl _)
    exact ⟨256, b', hb'⟩
  · intro fuel b' h
    obtain ⟨hx, hor⟩ := hreturns fuel b' h
    have hend := forUpTo_keeps (fun c t => x1.toNat ≤ c ∧
      Drawn (decide (dot ≠ 0)) (block x1.toNat c y1.toNat (y2.toNat + 1)) b t) (toNat_succ_lt hx)
      (fun c hc t t' ht hcol => by
        refine ⟨Nat.le_succ_of_le ht.1, ?_⟩
        rw [block_column ht.1]
        exact ht.2.trans (fillColumn_drawn (reached_rows hor c hc ht.1) hcol))
      ⟨Nat.le_refl _, by rw [block_empty (Or.inl (Nat.le_refl _))]; exact Drawn.nothing⟩ h
    rw [← block_max_columns]
    exact hend.2

end Gateway.Display
