import Gateway.Display.Gram
import Mathlib.Algebra.Order.Ring.Int
import Mathlib.Tactic.Linarith
import Mathlib.Tactic.Ring

/-!
# Lines on the display

Model of `ssd1306_draw_line` (`ssd1306.c:248-297`). The coordinates are `int16_t`, here an `Int`
cut to sixteen bits (`int16`) wherever the source assigns to one, and to eight where it calls
`ssd1306_fill_point`. The two branches of the source are the same loop with the two coordinates
exchanged: `lineStep` is its body, with `a` for the coordinate that grows by one in each round
and `b` for the other one. `diff` collects the length along `b` and is brought back by the length
along `a` each time it reaches it; the test stands before the first point.

* `moves n m k`: how often `b` has moved in the first `k` rounds, for lengths `n` and `m`.
* `linePixels`: the points of a line in closed form.

Results:
* `drawLine_spec`: for ends whose distances add up to less than `2 ^ 15`, so that `diff` does not
  overflow, the loop draws `linePixels`.
* `near_line`: each point is less than one pixel off the straight line, or exactly one, and in the
  rectangle of the two ends or one column to the left of it.
* **`line_drawn`**: between two pixels of the screen the function draws such points only, and it
  meets each of its ends exactly if the line is not a diagonal. On a diagonal `diff` has reached the
  length before the first point, so that every point is one column off and both ends are left out.
-/

namespace Gateway.Display

open Lib

/-- The value that an `int16_t` keeps of `v`. -/
def int16 (v : Int) : Int := v.bmod 65536

/-- The variables of the loop of `drawLine`. -/
structure Walk where
  a : Int
  b : Int
  diff : Int
  dev : Gram

/-- The test at the top of the loop: `b` moves towards `b2` when `diff` has reached the length
along `a`. -/
def lineTurn (aLen b2 : Int) (s : Walk) : Walk :=
  if s.diff ≥ aLen then
    { s with
      diff := int16 (s.diff - aLen)
      b := if s.b < b2 then int16 (s.b + 1) else int16 (s.b - 1) }
  else s

/-- The body of the loop. -/
def lineStep (point : Gram → Int → Int → Except Fault Gram) (aLen bLen b2 : Int) (s : Walk) :
    Except Fault Walk := do
  let s := lineTurn aLen b2 s
  let dev ← point s.dev s.a s.b
  .ok { a := int16 (s.a + 1), b := s.b, diff := int16 (s.diff + bLen), dev := dev }

/-- `do … while (len--)`, with `len` an `int16_t`. -/
def lineLoop (point : Gram → Int → Int → Except Fault Gram) (aLen bLen a1 b1 b2 : Int)
    (dev : Gram) : Except Fault Gram := do
  let s ← forBelow (fun _ => lineStep point aLen bLen b2) ((aLen % 65536).toNat + 1)
    { a := a1, b := b1, diff := bLen, dev := dev }
  .ok s.dev

/-- `ssd1306_fill_point` on two `int16_t`, with the dot set. -/
def linePoint (dev : Gram) (x y : Int) : Except Fault Gram :=
  fillPoint dev (BitVec.ofInt 8 x) (BitVec.ofInt 8 y) 1

/-- `ssd1306_draw_line`. -/
def drawLine (dev : Gram) (chXpos1 chYpos1 chXpos2 chYpos2 : Int) : Except Fault Gram :=
  let xLen := int16 (chXpos1 - chXpos2).natAbs
  let yLen := int16 (chYpos1 - chYpos2).natAbs
  if yLen < xLen then
    if chXpos1 > chXpos2 then lineLoop linePoint xLen yLen chXpos2 chYpos2 chYpos1 dev
    else lineLoop linePoint xLen yLen chXpos1 chYpos1 chYpos2 dev
  else
    if chYpos1 > chYpos2 then
      lineLoop (fun dev y x => linePoint dev x y) yLen xLen chYpos2 chXpos2 chXpos1 dev
    else lineLoop (fun dev y x => linePoint dev x y) yLen xLen chYpos1 chXpos1 chXpos2 dev

/-! ## The closed form -/

/-- How often `b` has moved in the first `k` rounds. -/
def moves (n m k : Nat) : Nat := if n = 0 then k else k * m / n

/-- `diff` at the start of round `k`. -/
def rest (n m k : Nat) : Nat := m + k * m % n

/-- Where `b` is after `q` moves from `b1` towards `b2`; the move at `b2` itself goes back. -/
def minorAt (b1 b2 : Int) (q : Nat) : Int :=
  if b1 < b2 then if b1 + q ≤ b2 then b1 + q else b2 - 1 else b1 - q

/-- The points of the loop. -/
def walkPixels (pix : Int → Int → Nat × Nat) (n m : Nat) (a1 b1 b2 : Int) : Set (Nat × Nat) :=
  {p | ∃ k : Nat, k ≤ n ∧ p = pix (a1 + k) (minorAt b1 b2 (moves n m (k + 1)))}

/-- The pixel of two coordinates. -/
def pixel (x y : Int) : Nat × Nat := ((x % 256).toNat, (y % 256).toNat)

/-- The points of a line. -/
def linePixels (x1 y1 x2 y2 : Int) : Set (Nat × Nat) :=
  let n := (x1 - x2).natAbs
  let m := (y1 - y2).natAbs
  if m < n then
    if x1 > x2 then walkPixels pixel n m x2 y2 y1 else walkPixels pixel n m x1 y1 y2
  else
    if y1 > y2 then walkPixels (fun y x => pixel x y) m n y2 x2 x1
    else walkPixels (fun y x => pixel x y) m n y1 x1 x2

theorem int16_eq (v : Int) :
    int16 v = if v % 65536 < 32768 then v % 65536 else v % 65536 - 65536 := rfl

theorem int16_id {v : Int} (h : -32768 ≤ v) (h' : v < 32768) : int16 v = v := by
  rw [int16_eq]
  omega

theorem int16_mod (v : Int) : int16 v % 256 = v % 256 := by
  rw [int16_eq]
  omega

theorem pixel_int16 (x y : Int) : pixel (int16 x) (int16 y) = pixel x y := by
  unfold pixel
  rw [int16_mod, int16_mod]

theorem linePoint_spec (dev : Gram) (x y : Int) :
    ∃ dev', linePoint dev x y = .ok dev' ∧ Drawn true {pixel x y} dev dev' := by
  have h := fillPoint_spec dev (BitVec.ofInt 8 x) (BitVec.ofInt 8 y) 1
  rwa [BitVec.toNat_ofInt, BitVec.toNat_ofInt] at h

/-- A round in which `diff` has reached the length. -/
theorem moves_carry {n m k : Nat} (hmn : m ≤ n) (h : n ≤ rest n m k) :
    moves n m (k + 1) = moves n m k + 1 ∧ rest n m (k + 1) + n = rest n m k + m := by
  unfold moves rest at *
  rcases Nat.eq_zero_or_pos n with rfl | hn
  · obtain rfl : m = 0 := by omega
    exact ⟨rfl, rfl⟩
  · have hr := Nat.mod_lt (k * m) hn
    have hdiv := Nat.div_add_mod (k * m) n
    have hval : (k + 1) * m = (k * m % n + m - n) + n * (k * m / n + 1) := by
      rw [Nat.succ_mul, Nat.mul_succ]
      omega
    rw [if_neg (by omega), if_neg (by omega), hval, Nat.add_mul_div_left _ _ hn,
      Nat.add_mul_mod_self_left, Nat.div_eq_of_lt (by omega), Nat.mod_eq_of_lt (by omega)]
    omega

/-- A round in which it has not. -/
theorem moves_stay {n m k : Nat} (h : rest n m k < n) :
    moves n m (k + 1) = moves n m k ∧ rest n m (k + 1) = rest n m k + m := by
  unfold moves rest at *
  have hn : 0 < n := by omega
  have hdiv := Nat.div_add_mod (k * m) n
  have hval : (k + 1) * m = (k * m % n + m) + n * (k * m / n) := by
    rw [Nat.succ_mul]
    omega
  rw [if_neg (by omega), if_neg (by omega), hval, Nat.add_mul_div_left _ _ hn,
    Nat.add_mul_mod_self_left, Nat.div_eq_of_lt (by omega), Nat.mod_eq_of_lt (by omega)]
  omega

/-- In `k ≤ n` rounds `b` moves at most its whole length. -/
theorem moves_le {n m k : Nat} (hk : k ≤ n) : moves n m k ≤ m := by
  unfold moves
  split
  · omega
  · rename_i hn
    exact Nat.div_le_of_le_mul (Nat.mul_le_mul_right m hk)

theorem moves_zero (n m : Nat) : moves n m 0 = 0 := by
  unfold moves
  rw [Nat.zero_mul, Nat.zero_div, ite_self]

theorem rest_zero (n m : Nat) : rest n m 0 = m := by
  unfold rest
  rw [Nat.zero_mul, Nat.zero_mod, Nat.add_zero]

theorem minorAt_zero (b1 b2 : Int) : minorAt b1 b2 0 = b1 := by
  unfold minorAt
  omega

theorem rest_lt {n m k : Nat} (hn : 0 < n) : rest n m k < n + m := by
  have := Nat.mod_lt (k * m) hn
  unfold rest
  omega

/-! ## The loop -/

section Loop

variable {point : Gram → Int → Int → Except Fault Gram} {pix : Int → Int → Nat × Nat}

/-- One more move, short of the end or from it. -/
theorem minorAt_succ {b1 b2 : Int} {q : Nat} (h : q ≤ (b1 - b2).natAbs) :
    minorAt b1 b2 (q + 1) =
      if minorAt b1 b2 q < b2 then minorAt b1 b2 q + 1 else minorAt b1 b2 q - 1 := by
  unfold minorAt
  omega

theorem minorAt_between {b1 b2 : Int} {q : Nat} (h : q ≤ (b1 - b2).natAbs) :
    min b1 b2 ≤ minorAt b1 b2 q ∧ minorAt b1 b2 q ≤ max b1 b2 := by
  unfold minorAt
  split
  · rw [if_pos (by omega)]
    omega
  · omega

/-- The variables at the start of round `k`, and what is drawn by then. -/
structure AtRound (pix : Int → Int → Nat × Nat) (n m : Nat) (a1 b1 b2 : Int) (dev : Gram)
    (k : Nat) (s : Walk) : Prop where
  a : s.a = int16 (a1 + k)
  b : s.b = int16 (minorAt b1 b2 (moves n m k))
  diff : s.diff = rest n m k
  drawn : Drawn true {p | ∃ i : Nat, i < k ∧ p = pix (a1 + i) (minorAt b1 b2 (moves n m (i + 1)))}
    dev s.dev

/-- What the two lengths are: `m` along `b` and `n ≥ m` along `a`. -/
structure Lengths (n m : Nat) (b1 b2 : Int) : Prop where
  minor : (b1 - b2).natAbs = m
  le : m ≤ n
  sum : n + m < 32768

/-- The test at the start of a round: `b` is then where the round draws it. -/
theorem lineTurn_spec {n m : Nat} {a1 b1 b2 : Int} (hlen : Lengths n m b1 b2)
    (hb1 : -32768 ≤ b1 ∧ b1 < 32768) (hb2 : -32768 ≤ b2 ∧ b2 < 32768) {dev : Gram} {k : Nat}
    (hk : k ≤ n) {s : Walk} (hs : AtRound pix n m a1 b1 b2 dev k s) :
    (lineTurn n b2 s).a = s.a ∧ (lineTurn n b2 s).dev = s.dev ∧
      (lineTurn n b2 s).b = int16 (minorAt b1 b2 (moves n m (k + 1))) ∧
      int16 ((lineTurn n b2 s).diff + m) = rest n m (k + 1) := by
  have hmoves : moves n m k ≤ (b1 - b2).natAbs := by
    rw [hlen.minor]
    exact moves_le hk
  have hbetween := minorAt_between hmoves
  have hle := hlen.le
  have hsum := hlen.sum
  have hb : s.b = minorAt b1 b2 (moves n m k) := by
    rw [hs.b]
    exact int16_id (by omega) (by omega)
  have hdiff := hs.diff
  unfold lineTurn
  by_cases hcarry : n ≤ rest n m k
  · obtain ⟨hmv, hrest⟩ := moves_carry hle hcarry
    have hlt : rest n m k < n + m ∨ n = 0 := (Nat.eq_zero_or_pos n).symm.imp rest_lt id
    have hzero : n = 0 → rest n m k = 0 := by
      rintro rfl
      obtain rfl : m = 0 := by omega
      rfl
    rw [if_pos (by omega)]
    refine ⟨rfl, rfl, ?_, ?_⟩
    · show (if s.b < b2 then int16 (s.b + 1) else int16 (s.b - 1)) = _
      rw [hmv, minorAt_succ hmoves, hb]
      split <;> rfl
    · show int16 (int16 (s.diff - n) + m) = _
      rw [int16_id (v := s.diff - n) (by omega) (by omega), int16_id (by omega) (by omega)]
      omega
  · obtain ⟨hmv, hrest⟩ := moves_stay (Nat.lt_of_not_le hcarry)
    rw [if_neg (by omega)]
    refine ⟨rfl, rfl, ?_, ?_⟩
    · rw [hmv, hs.b]
    · rw [int16_id (by omega) (by omega)]
      omega

/-- **A round of the loop.** -/
theorem lineStep_spec
    (hpoint : ∀ dev a b, ∃ dev', point dev a b = .ok dev' ∧ Drawn true {pix a b} dev dev')
    (hpix : ∀ a b, pix (int16 a) (int16 b) = pix a b) {n m : Nat} {a1 b1 b2 : Int}
    (hlen : Lengths n m b1 b2) (hb1 : -32768 ≤ b1 ∧ b1 < 32768) (hb2 : -32768 ≤ b2 ∧ b2 < 32768)
    {dev : Gram} {k : Nat} (hk : k ≤ n) {s : Walk} (hs : AtRound pix n m a1 b1 b2 dev k s) :
    ∃ s', lineStep point n m b2 s = .ok s' ∧ AtRound pix n m a1 b1 b2 dev (k + 1) s' := by
  obtain ⟨ha, hdev, hb, hdiff⟩ := lineTurn_spec hlen hb1 hb2 hk hs
  obtain ⟨dev', hok, hdrawn⟩ :=
    hpoint (lineTurn n b2 s).dev (lineTurn n b2 s).a (lineTurn n b2 s).b
  refine ⟨⟨int16 ((lineTurn n b2 s).a + 1), (lineTurn n b2 s).b,
    int16 ((lineTurn n b2 s).diff + m), dev'⟩, ?_, ?_⟩
  · show (point (lineTurn n b2 s).dev (lineTurn n b2 s).a (lineTurn n b2 s).b >>= _) = _
    rw [hok]
    rfl
  · refine ⟨?_, hb, hdiff, ?_⟩
    · show int16 ((lineTurn n b2 s).a + 1) = _
      rw [ha, hs.a, int16_eq, int16_eq, int16_eq]
      omega
    · rw [hb, ha, hs.a, hpix, hdev] at hdrawn
      refine (hs.drawn.trans hdrawn).congr fun x y _ _ => ?_
      constructor
      · rintro (⟨i, hi, h⟩ | h)
        · exact ⟨i, Nat.lt_succ_of_lt hi, h⟩
        · exact ⟨k, Nat.lt_succ_self k, h⟩
      · rintro ⟨i, hi, h⟩
        rcases Nat.lt_succ_iff_lt_or_eq.mp hi with hi | rfl
        · exact Or.inl ⟨i, hi, h⟩
        · exact Or.inr h

/-- **The loop draws the points of the closed form.** -/
theorem lineLoop_spec
    (hpoint : ∀ dev a b, ∃ dev', point dev a b = .ok dev' ∧ Drawn true {pix a b} dev dev')
    (hpix : ∀ a b, pix (int16 a) (int16 b) = pix a b) {n m : Nat} {a1 b1 b2 : Int}
    (hlen : Lengths n m b1 b2) (ha1 : -32768 ≤ a1 ∧ a1 < 32768) (hb1 : -32768 ≤ b1 ∧ b1 < 32768)
    (hb2 : -32768 ≤ b2 ∧ b2 < 32768) (dev : Gram) :
    ∃ dev', lineLoop point n m a1 b1 b2 dev = .ok dev' ∧
      Drawn true (walkPixels pix n m a1 b1 b2) dev dev' := by
  have hrounds : ((n : Int) % 65536).toNat + 1 = n + 1 := by
    have := hlen.sum
    omega
  have hstart : AtRound pix n m a1 b1 b2 dev 0 ⟨a1, b1, m, dev⟩ := by
    refine ⟨?_, ?_, ?_, ?_⟩
    · show a1 = int16 (a1 + 0)
      rw [Int.add_zero, int16_id ha1.1 ha1.2]
    · show b1 = int16 (minorAt b1 b2 (moves n m 0))
      rw [moves_zero, minorAt_zero, int16_id hb1.1 hb1.2]
    · show (m : Int) = rest n m 0
      rw [rest_zero]
    · refine Drawn.nothing.congr fun x y _ _ => ⟨fun h => absurd h (Set.notMem_empty _), ?_⟩
      rintro ⟨i, hi, -⟩
      exact absurd hi (Nat.not_lt_zero i)
  obtain ⟨s, hs, hat⟩ := forBelow_ok (fun k s => AtRound pix n m a1 b1 b2 dev k s) hstart
    fun k hk s hs => lineStep_spec hpoint hpix hlen hb1 hb2 (Nat.lt_succ_iff.mp hk) hs
  refine ⟨s.dev, ?_, hat.drawn.congr fun x y _ _ => ?_⟩
  · unfold lineLoop
    rw [hrounds, hs]
    rfl
  · exact exists_congr fun k => and_congr_left' Nat.lt_succ_iff

end Loop

/-- **The line is the closed form**, for ends whose distances add up to less than `2 ^ 15`. -/
theorem drawLine_spec (x1 y1 x2 y2 : Int) (hx1 : -32768 ≤ x1 ∧ x1 < 32768)
    (hy1 : -32768 ≤ y1 ∧ y1 < 32768) (hx2 : -32768 ≤ x2 ∧ x2 < 32768)
    (hy2 : -32768 ≤ y2 ∧ y2 < 32768) (hsum : (x1 - x2).natAbs + (y1 - y2).natAbs < 32768)
    (dev : Gram) :
    ∃ dev', drawLine dev x1 y1 x2 y2 = .ok dev' ∧
      Drawn true (linePixels x1 y1 x2 y2) dev dev' := by
  have hxlen : int16 (x1 - x2).natAbs = (x1 - x2).natAbs := int16_id (by omega) (by omega)
  have hylen : int16 (y1 - y2).natAbs = (y1 - y2).natAbs := int16_id (by omega) (by omega)
  have hpoint := linePoint_spec
  have hpoint' := fun dev y x => linePoint_spec dev x y
  have hpix' := fun y x => pixel_int16 x y
  unfold drawLine linePixels
  simp only [hxlen, hylen, Nat.cast_lt]
  split_ifs with hmajor hswap hswap
  · exact lineLoop_spec hpoint pixel_int16 ⟨by omega, by omega, by omega⟩ hx2 hy2 hy1 dev
  · exact lineLoop_spec hpoint pixel_int16 ⟨by omega, by omega, by omega⟩ hx1 hy1 hy2 dev
  · exact lineLoop_spec hpoint' hpix' ⟨by omega, by omega, by omega⟩ hy2 hx2 hx1 dev
  · exact lineLoop_spec hpoint' hpix' ⟨by omega, by omega, by omega⟩ hy1 hx1 hx2 dev

/-! ## Where the points are -/

section Points

variable {n m : Nat} {b1 b2 : Int}

/-- In the rounds of the loop `b` makes at most one move too many. -/
theorem moves_succ_le (hmn : m ≤ n) {k : Nat} (hk : k ≤ n) : moves n m (k + 1) ≤ m + 1 := by
  have hle := moves_le (m := m) hk
  by_cases h : n ≤ rest n m k
  · rw [(moves_carry hmn h).1]
    omega
  · rw [(moves_stay (Nat.lt_of_not_le h)).1]
    omega

/-- The number of moves, without the division. -/
theorem moves_bounds (hmn : m ≤ n) (hn : 0 < n) (k : Nat) :
    ((n : Int) * moves n m (k + 1) - k * m).natAbs ≤ n := by
  have hdiv := Nat.div_add_mod ((k + 1) * m) n
  have hmod := Nat.mod_lt ((k + 1) * m) hn
  have hmoves : moves n m (k + 1) = (k + 1) * m / n := if_neg (Nat.ne_of_gt hn)
  rw [← hmoves, Nat.succ_mul] at hdiv
  rw [Nat.succ_mul] at hmod
  have hdiv' : (n : Int) * moves n m (k + 1) + ((k * m + m) % n : Nat) = k * m + m := by
    exact_mod_cast hdiv
  omega

/-- One move too many happens in the last round of a diagonal only. -/
theorem diagonal_of_moves (hmn : m ≤ n) (hn : 0 < n) {k : Nat} (hk : k ≤ n)
    (h : m < moves n m (k + 1)) : m = n ∧ k = n := by
  have hmoves : moves n m (k + 1) = (k + 1) * m / n := if_neg (Nat.ne_of_gt hn)
  rw [hmoves] at h
  have hle : (m + 1) * n ≤ (k + 1) * m := (Nat.le_div_iff_mul_le hn).mp h
  have hkm : k * m ≤ n * m := Nat.mul_le_mul_right m hk
  rw [Nat.succ_mul, Nat.succ_mul, Nat.mul_comm m n] at hle
  have hmn' : m = n := by omega
  subst hmn'
  refine ⟨rfl, le_antisymm hk ?_⟩
  exact Nat.le_of_mul_le_mul_right (by omega : m * m ≤ k * m) hn

/-- How far `b` is from the straight line in round `k`, times `n`. -/
theorem minorAt_near (hm : (b1 - b2).natAbs = m) (hmn : m ≤ n) {k : Nat} (hk : k ≤ n) :
    ((n : Int) * (minorAt b1 b2 (moves n m (k + 1)) - b1) - k * (b2 - b1)).natAbs ≤ n := by
  rcases Nat.eq_zero_or_pos n with rfl | hn
  · obtain rfl : k = 0 := by omega
    simp
  have hbounds := moves_bounds hmn hn k
  by_cases hlt : b1 < b2
  · have hdist : b2 - b1 = m := by omega
    by_cases hmany : m < moves n m (k + 1)
    · -- the last point of a diagonal, one before the end
      obtain ⟨rfl, rfl⟩ := diagonal_of_moves hmn hn hk hmany
      have hat : minorAt b1 b2 (moves k k (k + 1)) - b1 = k - 1 := by
        unfold minorAt
        omega
      rw [hat, hdist, show (k : Int) * (k - 1) - k * k = -k by ring, Int.natAbs_neg]
      exact le_of_eq (Int.natAbs_natCast k)
    · have hat : minorAt b1 b2 (moves n m (k + 1)) - b1 = moves n m (k + 1) := by
        unfold minorAt
        omega
      rw [hat, hdist]
      exact hbounds
  · have hdist : b2 - b1 = -m := by omega
    have hat : minorAt b1 b2 (moves n m (k + 1)) - b1 = -moves n m (k + 1) := by
      unfold minorAt
      omega
    rw [hat, hdist, show (n : Int) * -(moves n m (k + 1)) - k * -m =
      -((n : Int) * moves n m (k + 1) - k * m) by ring, Int.natAbs_neg]
    exact hbounds

/-- `b` leaves the stretch between its two ends by one at most. -/
theorem minorAt_range (hm : (b1 - b2).natAbs = m) {q : Nat} (hq : q ≤ m + 1) :
    min b1 b2 - 1 ≤ minorAt b1 b2 q ∧ minorAt b1 b2 q ≤ max b1 b2 := by
  unfold minorAt
  omega

/-- **Every point of the loop is near the line.** -/
theorem walk_near {pix : Int → Int → Nat × Nat} (hm : (b1 - b2).natAbs = m) (hmn : m ≤ n)
    {a1 : Int} {p : Nat × Nat} (hp : p ∈ walkPixels pix n m a1 b1 b2) :
    ∃ a b, p = pix a b ∧ (a1 ≤ a ∧ a ≤ a1 + n) ∧ (min b1 b2 - 1 ≤ b ∧ b ≤ max b1 b2) ∧
      (m < n → min b1 b2 ≤ b) ∧
      ((n : Int) * (b - b1) - (a - a1) * (b2 - b1)).natAbs ≤ n := by
  obtain ⟨k, hk, rfl⟩ := hp
  refine ⟨_, _, rfl, by omega, minorAt_range hm (moves_succ_le hmn hk), fun hlt => ?_, ?_⟩
  · have hmoves : moves n m (k + 1) ≤ m := by
      by_contra hmany
      have hdiag := diagonal_of_moves hmn (by omega) hk (Nat.lt_of_not_le hmany)
      omega
    exact (minorAt_between (hm ▸ hmoves)).1
  · rw [add_sub_cancel_left]
    exact minorAt_near hm hmn hk

/-- A line that is not a diagonal starts and ends where it should. -/
theorem walk_meets (pix : Int → Int → Nat × Nat) (a1 b1 b2 : Int) (hm : (b1 - b2).natAbs = m)
    (hmn : m < n) :
    pix a1 b1 ∈ walkPixels pix n m a1 b1 b2 ∧ pix (a1 + n) b2 ∈ walkPixels pix n m a1 b1 b2 := by
  have hn : n ≠ 0 := by omega
  have hfirst : moves n m 1 = 0 := by
    unfold moves
    rw [if_neg hn, Nat.one_mul, Nat.div_eq_of_lt hmn]
  have hlast : moves n m (n + 1) = m := by
    unfold moves
    rw [if_neg hn, Nat.succ_mul, Nat.add_comm, Nat.add_mul_div_left _ _ (Nat.pos_of_ne_zero hn),
      Nat.div_eq_of_lt hmn, Nat.zero_add]
  refine ⟨⟨0, Nat.zero_le n, ?_⟩, n, Nat.le_refl n, ?_⟩
  · rw [hfirst, minorAt_zero, Nat.cast_zero, add_zero]
  · have hend : minorAt b1 b2 m = b2 := by
      unfold minorAt
      omega
    rw [hlast, hend]

/-- A diagonal neither starts nor ends where it should: `b` moves before the first point, and back
or on after it has reached its end. -/
theorem walk_misses {pix : Int → Int → Nat × Nat}
    (hpix : ∀ a b a' b', pix a b = pix a' b' → a % 256 = a' % 256 ∧ b % 256 = b' % 256)
    (hm : (b1 - b2).natAbs = n) (hn : n < 255) (a1 : Int) :
    pix a1 b1 ∉ walkPixels pix n n a1 b1 b2 ∧ pix (a1 + n) b2 ∉ walkPixels pix n n a1 b1 b2 := by
  have hmoves (k : Nat) : moves n n (k + 1) = k + 1 := by
    unfold moves
    split
    · rfl
    · rename_i hn0
      exact Nat.mul_div_cancel _ (Nat.pos_of_ne_zero hn0)
  constructor
  · rintro ⟨k, hk, heq⟩
    obtain ⟨ha, hb⟩ := hpix a1 b1 (a1 + k) _ heq
    obtain rfl : k = 0 := by omega
    rw [hmoves] at hb
    unfold minorAt at hb
    omega
  · rintro ⟨k, hk, heq⟩
    obtain ⟨ha, hb⟩ := hpix (a1 + n) b2 (a1 + k) _ heq
    obtain rfl : k = n := by omega
    rw [hmoves] at hb
    unfold minorAt at hb
    omega

end Points

/-- A pixel of the screen. -/
structure OnScreen (x y : Int) : Prop where
  left : 0 ≤ x
  right : x < 128
  top : 0 ≤ y
  bottom : y < 64

/-- How far `(x, y)` is off the straight line through the two ends, times the longer distance. -/
def offLine (x1 y1 x2 y2 x y : Int) : Int := (x2 - x1) * (y - y1) - (y2 - y1) * (x - x1)

theorem pixel_inj {x y x' y' : Int} (h : pixel x y = pixel x' y') :
    x % 256 = x' % 256 ∧ y % 256 = y' % 256 := by
  have h' := Prod.mk.inj h
  omega

/-- Coordinates at most one pixel off the screen do not come back on the other side. -/
theorem pixel_eq {x y : Int} {px py : Nat} (hpx : px < 128) (hpy : py < 128)
    (h : (px, py) = pixel x y) (hx : -1 ≤ x ∧ x ≤ 128) (hy : -1 ≤ y ∧ y ≤ 128) :
    x = px ∧ y = py := by
  have h' := Prod.mk.inj h
  omega

/-- **Each point of a line is one pixel off at most**, and no more than one column outside. -/
theorem near_line {x1 y1 x2 y2 : Int} (h1 : OnScreen x1 y1) (h2 : OnScreen x2 y2) {px py : Nat}
    (hpx : px < 128) (hpy : py < 64) (h : (px, py) ∈ linePixels x1 y1 x2 y2) :
    (offLine x1 y1 x2 y2 px py).natAbs ≤ max (x1 - x2).natAbs (y1 - y2).natAbs ∧
      (min x1 x2 - 1 ≤ px ∧ px ≤ max x1 x2) ∧ min y1 y2 ≤ py ∧ py ≤ max y1 y2 := by
  obtain ⟨hx1, hx1', hy1, hy1'⟩ := h1
  obtain ⟨hx2, hx2', hy2, hy2'⟩ := h2
  unfold linePixels at h
  simp only at h
  unfold offLine
  split_ifs at h with hmajor hswap hswap
  · obtain ⟨a, b, heq, ha, hb, hin, hnear⟩ := walk_near (by omega) (by omega) h
    obtain ⟨rfl, rfl⟩ := pixel_eq hpx (by omega) heq (by omega) (by omega)
    have hn : ((x1 - x2).natAbs : Int) = x1 - x2 := by omega
    have hoff : (x2 - x1) * ((py : Int) - y1) - (y2 - y1) * (px - x1) =
        -((x1 - x2) * (py - y2) - (px - x2) * (y1 - y2)) := by ring
    rw [hn] at hnear
    rw [hoff, Int.natAbs_neg]
    have hrow := hin hmajor
    exact ⟨by omega, by omega, by omega⟩
  · obtain ⟨a, b, heq, ha, hb, hin, hnear⟩ := walk_near (by omega) (by omega) h
    obtain ⟨rfl, rfl⟩ := pixel_eq hpx (by omega) heq (by omega) (by omega)
    have hn : ((x1 - x2).natAbs : Int) = x2 - x1 := by omega
    have hoff : (x2 - x1) * ((py : Int) - y1) - (y2 - y1) * (px - x1) =
        (x2 - x1) * (py - y1) - (px - x1) * (y2 - y1) := by ring
    rw [hn] at hnear
    rw [hoff]
    have hrow := hin hmajor
    exact ⟨by omega, by omega, by omega⟩
  · obtain ⟨b, a, heq, hb, ha, -, hnear⟩ := walk_near (by omega) (by omega) h
    obtain ⟨rfl, rfl⟩ := pixel_eq hpx (by omega) heq (by omega) (by omega)
    have hn : ((y1 - y2).natAbs : Int) = y1 - y2 := by omega
    have hoff : (x2 - x1) * ((py : Int) - y1) - (y2 - y1) * (px - x1) =
        (y1 - y2) * (px - x2) - (py - y2) * (x1 - x2) := by ring
    rw [hn] at hnear
    rw [hoff]
    exact ⟨by omega, by omega, by omega⟩
  · obtain ⟨b, a, heq, hb, ha, -, hnear⟩ := walk_near (by omega) (by omega) h
    obtain ⟨rfl, rfl⟩ := pixel_eq hpx (by omega) heq (by omega) (by omega)
    have hn : ((y1 - y2).natAbs : Int) = y2 - y1 := by omega
    have hoff : (x2 - x1) * ((py : Int) - y1) - (y2 - y1) * (px - x1) =
        -((y2 - y1) * (px - x1) - (py - y1) * (x2 - x1)) := by ring
    rw [hn] at hnear
    rw [hoff, Int.natAbs_neg]
    exact ⟨by omega, by omega, by omega⟩

/-- **Which ends a line meets**: both, or on a diagonal none. -/
theorem ends_met {x1 y1 x2 y2 : Int} (h1 : OnScreen x1 y1) (h2 : OnScreen x2 y2) :
    (pixel x1 y1 ∈ linePixels x1 y1 x2 y2 ↔ (x1 - x2).natAbs ≠ (y1 - y2).natAbs) ∧
      (pixel x2 y2 ∈ linePixels x1 y1 x2 y2 ↔ (x1 - x2).natAbs ≠ (y1 - y2).natAbs) := by
  obtain ⟨hx1, hx1', hy1, hy1'⟩ := h1
  obtain ⟨hx2, hx2', hy2, hy2'⟩ := h2
  have hmeets {L : Set (Nat × Nat)} (hne : (x1 - x2).natAbs ≠ (y1 - y2).natAbs)
      (h : pixel x1 y1 ∈ L ∧ pixel x2 y2 ∈ L) :
      (pixel x1 y1 ∈ L ↔ (x1 - x2).natAbs ≠ (y1 - y2).natAbs) ∧
        (pixel x2 y2 ∈ L ↔ (x1 - x2).natAbs ≠ (y1 - y2).natAbs) :=
    ⟨iff_of_true h.1 hne, iff_of_true h.2 hne⟩
  have hmisses {L : Set (Nat × Nat)} (heq : (x1 - x2).natAbs = (y1 - y2).natAbs)
      (h : pixel x1 y1 ∉ L ∧ pixel x2 y2 ∉ L) :
      (pixel x1 y1 ∈ L ↔ (x1 - x2).natAbs ≠ (y1 - y2).natAbs) ∧
        (pixel x2 y2 ∈ L ↔ (x1 - x2).natAbs ≠ (y1 - y2).natAbs) :=
    ⟨iff_of_false h.1 (not_not.mpr heq), iff_of_false h.2 (not_not.mpr heq)⟩
  unfold linePixels
  simp only
  by_cases hmajor : (y1 - y2).natAbs < (x1 - x2).natAbs
  · -- the loop goes along `x`
    rw [if_pos hmajor]
    refine hmeets (by omega) ?_
    by_cases hswap : x1 > x2
    · rw [if_pos hswap]
      have hends := walk_meets pixel x2 y2 y1 (by omega) hmajor
      rw [show x2 + ((x1 - x2).natAbs : Int) = x1 by omega] at hends
      exact hends.symm
    · rw [if_neg hswap]
      have hends := walk_meets pixel x1 y1 y2 rfl hmajor
      rwa [show x1 + ((x1 - x2).natAbs : Int) = x2 by omega] at hends
  · rw [if_neg hmajor]
    by_cases hdiag : (x1 - x2).natAbs = (y1 - y2).natAbs
    · refine hmisses hdiag ?_
      rw [hdiag]
      have hinj : ∀ a b a' b' : Int, pixel b a = pixel b' a' → a % 256 = a' % 256 ∧
          b % 256 = b' % 256 := fun a b a' b' h => (pixel_inj h).symm
      by_cases hswap : y1 > y2
      · rw [if_pos hswap]
        have hends := walk_misses hinj (show (x2 - x1).natAbs = (y1 - y2).natAbs by omega)
          (by omega) y2
        rw [show y2 + ((y1 - y2).natAbs : Int) = y1 by omega] at hends
        exact hends.symm
      · rw [if_neg hswap]
        have hends := walk_misses hinj hdiag (by omega) y1
        rwa [show y1 + ((y1 - y2).natAbs : Int) = y2 by omega] at hends
    · -- the loop goes along `y`
      refine hmeets hdiag ?_
      have hminor := Nat.lt_of_le_of_ne (Nat.le_of_not_lt hmajor) hdiag
      by_cases hswap : y1 > y2
      · rw [if_pos hswap]
        have hends := walk_meets (fun y x => pixel x y) y2 x2 x1 (by omega) hminor
        rw [show y2 + ((y1 - y2).natAbs : Int) = y1 by omega] at hends
        exact hends.symm
      · rw [if_neg hswap]
        have hends := walk_meets (fun y x => pixel x y) y1 x1 x2 rfl hminor
        rwa [show y1 + ((y1 - y2).natAbs : Int) = y2 by omega] at hends

/-- **A line between two pixels of the screen.** The function returns and lights the points of
the closed form and no others; each of them on the screen is off the straight line by one pixel
at most, and in the rectangle of the two ends or one column to the left of it; and it lights each
of its ends exactly if the line is not a diagonal. -/
theorem line_drawn (x1 y1 x2 y2 : Int) (h1 : OnScreen x1 y1) (h2 : OnScreen x2 y2) (dev : Gram) :
    ∃ dev', drawLine dev x1 y1 x2 y2 = .ok dev' ∧
      Drawn true (linePixels x1 y1 x2 y2) dev dev' ∧
      (∀ px py : Nat, px < 128 → py < 64 → (px, py) ∈ linePixels x1 y1 x2 y2 →
        (offLine x1 y1 x2 y2 px py).natAbs ≤ max (x1 - x2).natAbs (y1 - y2).natAbs ∧
          (min x1 x2 - 1 ≤ px ∧ px ≤ max x1 x2) ∧ min y1 y2 ≤ py ∧ py ≤ max y1 y2) ∧
      (pixel x1 y1 ∈ linePixels x1 y1 x2 y2 ↔ (x1 - x2).natAbs ≠ (y1 - y2).natAbs) ∧
      (pixel x2 y2 ∈ linePixels x1 y1 x2 y2 ↔ (x1 - x2).natAbs ≠ (y1 - y2).natAbs) := by
  have hx1 := h1.right
  have hx1' := h1.left
  have hy1 := h1.bottom
  have hy1' := h1.top
  have hx2 := h2.right
  have hx2' := h2.left
  have hy2 := h2.bottom
  have hy2' := h2.top
  obtain ⟨dev', hok, hdrawn⟩ := drawLine_spec x1 y1 x2 y2
    (by omega) (by omega) (by omega) (by omega) (by omega) dev
  exact ⟨dev', hok, hdrawn, fun px py hpx hpy h => near_line h1 h2 hpx hpy h, ends_met h1 h2⟩

/-- A line from a pixel to itself does not light it. -/
theorem line_drawn_point : ∃ dev', drawLine (Buf.fill 1024 0) 5 5 5 5 = .ok dev' ∧
    ¬ (pixel 5 5 ∈ linePixels 5 5 5 5) ∧ litAt dev' 5 5 = false := by
  obtain ⟨dev', hok, hdrawn, -, hstart, -⟩ := line_drawn 5 5 5 5
    ⟨by decide, by decide, by decide, by decide⟩ ⟨by decide, by decide, by decide, by decide⟩
    (Buf.fill 1024 0)
  have hmiss : pixel 5 5 ∉ linePixels 5 5 5 5 := fun h => hstart.mp h rfl
  refine ⟨dev', hok, hmiss, ?_⟩
  rw [(hdrawn 5 5 (by decide) (by decide)).2 hmiss]
  decide +kernel

end Gateway.Display
