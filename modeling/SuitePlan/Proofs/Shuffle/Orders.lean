import Mathlib.Data.List.Permutation
import Mathlib.Data.Set.Card
import Mathlib.Probability.Distributions.Uniform
import SuitePlan.Shuffle.Permutation

/-!
# The orders that a shuffle can give

The swap for a position puts one of the items up to there in it, and later swaps leave it alone. So
the draws can be told from the order that they give, and each order is given by some draws: it is
chosen position by position, from the last one down (`swaps_reach_each_order_once`). None is more
likely than another if the draws are uniform.
-/

namespace SuitePlan.Shuffle

open scoped Nat ENNReal

/-- Draws for the positions from the given one down to the second: each is at most its position. -/
inductive Admissible : Nat → List Nat → Prop
  | nil : Admissible 0 []
  | cons {i j : Nat} {drawn : List Nat} :
      j ≤ i + 1 → Admissible i drawn → Admissible (i + 1) (j :: drawn)

/-- The items in the order that draws give. -/
def swapped (drawn : List Nat) (items : List α) : List α :=
  (swapDown (items.length - 1) drawn items.toArray).toList

variable {α : Type} {i j k : Nat} {drawn drawn' : List Nat} {items target : Array α}

/-! ## What a seed draws -/

theorem drawOnto_succ (i : Nat) (stream : Keystream) (before : List Nat) :
    drawOnto (i + 1) stream before =
      drawOnto i (stream.draw (i + 1)).2 ((stream.draw (i + 1)).1 :: before) := rfl

theorem drawOnto_eq_append (i : Nat) (stream : Keystream) (before : List Nat) :
    drawOnto i stream before = drawOnto i stream [] ++ before := by
  induction i generalizing stream before with
  | zero => rfl
  | succ i ih =>
    rw [drawOnto_succ, ih, drawOnto_succ, ih _ [_], List.append_assoc, List.singleton_append]

/-- What is drawn for the uppermost position comes first. -/
theorem reverse_drawOnto_succ (i : Nat) (stream : Keystream) :
    (drawOnto (i + 1) stream []).reverse =
      (stream.draw (i + 1)).1 :: (drawOnto i (stream.draw (i + 1)).2 []).reverse := by
  rw [drawOnto_succ, drawOnto_eq_append, List.reverse_append, List.reverse_singleton,
    List.singleton_append]

theorem admissible_reverse_drawOnto (i : Nat) (stream : Keystream) :
    Admissible i (drawOnto i stream []).reverse := by
  induction i generalizing stream with
  | zero => exact .nil
  | succ i ih =>
    rw [reverse_drawOnto_succ]
    exact .cons (stream.draw_le (i + 1)) (ih _)

theorem admissible_draws (seed : Int64) (size : Nat) : Admissible (size - 1) (draws seed size) :=
  admissible_reverse_drawOnto (size - 1) (.ofSeed seed)

/-! ## One swap -/

theorem getElem?_swapIfInBounds_left (hi : i < items.size) (hj : j < items.size) :
    (items.swapIfInBounds i j)[i]? = items[j]? := by
  rw [Array.swapIfInBounds_def, dif_pos hi, dif_pos hj, Array.getElem?_swap, if_pos rfl]
  by_cases h : j = i
  · rw [if_pos h, h, Array.getElem?_eq_getElem hi]
  · rw [if_neg h, Array.getElem?_eq_getElem hj]

theorem getElem?_swapIfInBounds_of_ne (hi : i ≠ k) (hj : j ≠ k) :
    (items.swapIfInBounds i j)[k]? = items[k]? := by
  rw [Array.swapIfInBounds_def]
  split_ifs with hlt hlt'
  · rw [Array.getElem?_swap, if_neg hj, if_neg hi]
  · rfl
  · rfl

theorem nodup_swapIfInBounds (h : items.toList.Nodup) :
    (items.swapIfInBounds i j).toList.Nodup :=
  (swapIfInBounds_perm items i j).toList.nodup_iff.mpr h

theorem size_swapIfInBounds : (items.swapIfInBounds i j).size = items.size :=
  (swapIfInBounds_perm items i j).size_eq

/-! ## All swaps -/

/-- The positions above are left alone. -/
theorem Admissible.getElem?_swapDown (h : Admissible i drawn) (hk : i < k) :
    (swapDown i drawn items)[k]? = items[k]? := by
  induction h generalizing items with
  | nil => rfl
  | cons hj _ ih =>
    rw [swapDown, ih (by omega), getElem?_swapIfInBounds_of_ne (by omega) (by omega)]

/-- The first draw tells which item comes to stand in the uppermost position. -/
theorem Admissible.getElem?_swapDown_self (h : Admissible i drawn) (hj : j ≤ i + 1)
    (hi : i + 1 ≤ items.size - 1) :
    (swapDown (i + 1) (j :: drawn) items)[i + 1]? = items[j]? := by
  rw [swapDown, h.getElem?_swapDown (Nat.lt_succ_self i),
    getElem?_swapIfInBounds_left (by omega) (by omega)]

/-- The induction is on the positions: the uppermost item tells the first draw, and once this is
known the others give the same order from the same items. -/
theorem Admissible.eq_of_swapDown_eq (h : Admissible i drawn) (h' : Admissible i drawn')
    (hnodup : items.toList.Nodup) (hi : i ≤ items.size - 1)
    (heq : swapDown i drawn items = swapDown i drawn' items) : drawn = drawn' := by
  induction h generalizing drawn' items with
  | nil =>
    cases h' with
    | nil => rfl
  | @cons i j drawn hj hdrawn ih =>
    cases h' with
    | @cons _ j' drawn' hj' hdrawn' =>
      have htop : items.toList[j]? = items.toList[j']? := by
        rw [Array.getElem?_toList, Array.getElem?_toList, ← hdrawn.getElem?_swapDown_self hj hi,
          ← hdrawn'.getElem?_swapDown_self hj' hi, heq]
      have hlt : j < items.toList.length := by
        rw [Array.length_toList]
        omega
      obtain rfl : j = j' := (List.getElem?_inj hlt hnodup).mp htop
      rw [ih hdrawn' (nodup_swapIfInBounds hnodup) (by rw [size_swapIfInBounds]; omega) heq]

/-- With all items but the first in their places the first one is in its place as well. -/
theorem eq_of_perm_of_tail_eq {xs ys : List α} (h : xs.Perm ys) (htail : xs.tail = ys.tail) :
    xs = ys := by
  cases xs with
  | nil => rw [h.nil_eq]
  | cons x rest =>
    cases ys with
    | nil => exact absurd h.length_eq (by simp)
    | cons y rest' =>
      obtain rfl : rest = rest' := htail
      have hcons : x ::ₘ (rest : Multiset α) = y ::ₘ rest := Multiset.coe_eq_coe.mpr h
      obtain rfl : x = y := (Multiset.cons_inj_left _).mp hcons
      rfl

/-- An item that is wanted in a position stands somewhere up to there, if all positions above have
what is wanted in them. -/
theorem exists_getElem?_eq (hnodup : items.toList.Nodup) (hperm : target.Perm items)
    (hi : i < target.size) (hafter : ∀ k, i < k → target[k]? = items[k]?) :
    ∃ j ≤ i, items[j]? = target[i]? := by
  obtain ⟨j, hj⟩ := Array.getElem?_of_mem (hperm.mem_iff.mp (Array.getElem_mem hi))
  rw [← Array.getElem?_eq_getElem hi] at hj
  by_cases hle : j ≤ i
  · exact ⟨j, hle, hj⟩
  · rw [← hafter j (by omega), ← Array.getElem?_toList, ← Array.getElem?_toList] at hj
    have htarget : target.toList.Nodup := hperm.toList.nodup_iff.mpr hnodup
    have hlt : i < target.toList.length := hi
    have := (List.getElem?_inj hlt htarget).mp hj.symm
    omega

/-- The induction is on the positions: a swap brings the item that is wanted in the uppermost one,
and after it all positions from there on have what is wanted in them. -/
theorem exists_swapDown_eq (hnodup : items.toList.Nodup) (hi : i ≤ items.size - 1)
    (hperm : target.Perm items) (hafter : ∀ k, i < k → target[k]? = items[k]?) :
    ∃ drawn, Admissible i drawn ∧ swapDown i drawn items = target := by
  induction i generalizing items with
  | zero =>
    refine ⟨[], .nil, ?_⟩
    have htail : target.toList.tail = items.toList.tail := by
      apply List.ext_getElem?
      intro k
      rw [List.getElem?_tail, List.getElem?_tail, Array.getElem?_toList, Array.getElem?_toList]
      exact hafter (k + 1) (Nat.succ_pos k)
    exact (Array.toList_inj.mp (eq_of_perm_of_tail_eq hperm.toList htail)).symm
  | succ i ih =>
    have hsize : target.size = items.size := hperm.size_eq
    obtain ⟨j, hj, hwanted⟩ := exists_getElem?_eq hnodup hperm (by omega) hafter
    have hswapped : ∀ k, i < k → target[k]? = (items.swapIfInBounds (i + 1) j)[k]? := by
      intro k hk
      by_cases htop : i + 1 = k
      · rw [← htop, getElem?_swapIfInBounds_left (by omega) (by omega), hwanted]
      · rw [getElem?_swapIfInBounds_of_ne htop (by omega)]
        exact hafter k (by omega)
    obtain ⟨drawn, hdrawn, heq⟩ := ih (nodup_swapIfInBounds hnodup)
      (by rw [size_swapIfInBounds]; omega) (hperm.trans (swapIfInBounds_perm items _ _).symm)
      hswapped
    exact ⟨j :: drawn, .cons hj hdrawn, heq⟩

/-! ## Uniform draws -/

/-- Draws for the positions from the given one down to the second, each of them uniform among the
positions up to its own and independent of the others. -/
noncomputable def uniformDraws : Nat → PMF (List Nat)
  | 0 => PMF.pure []
  | i + 1 => (PMF.uniformOfFinset (Finset.range (i + 2)) Finset.nonempty_range_add_one).bind
      fun j => (uniformDraws i).map (j :: ·)

theorem uniformDraws_cons (i j : Nat) (drawn : List Nat) :
    uniformDraws (i + 1) (j :: drawn) =
      (if j ≤ i + 1 then ((i + 2 : ℕ) : ℝ≥0∞)⁻¹ else 0) * uniformDraws i drawn := by
  have hfirst : ∀ j', (uniformDraws i).map (j' :: ·) (j :: drawn) =
      if j = j' then uniformDraws i drawn else 0 := by
    intro j'
    rw [PMF.map_apply]
    by_cases h : j = j'
    · rw [if_pos h, tsum_eq_single drawn]
      · rw [if_pos (by rw [h])]
      · intro other hother
        rw [if_neg]
        intro heq
        exact hother (List.cons.inj heq).2.symm
    · simp [h]
  rw [uniformDraws, PMF.bind_apply, tsum_eq_single j]
  · rw [hfirst, if_pos rfl, PMF.uniformOfFinset_apply, Finset.card_range]
    simp only [Finset.mem_range, Nat.lt_succ_iff]
  · intro j' hj'
    rw [hfirst, if_neg (Ne.symm hj'), mul_zero]

theorem uniformDraws_nil (i : Nat) : uniformDraws (i + 1) [] = 0 := by
  rw [uniformDraws, PMF.bind_apply]
  simp [PMF.map_apply]

/-- All draws are equally likely. -/
theorem Admissible.uniformDraws_eq (h : Admissible i drawn) :
    uniformDraws i drawn = (((i + 1)! : ℕ) : ℝ≥0∞)⁻¹ := by
  induction h with
  | nil => simp [uniformDraws]
  | @cons i j drawn hj _ ih =>
    rw [uniformDraws_cons, if_pos hj, ih, Nat.factorial_succ (i + 1), Nat.cast_mul,
      ENNReal.mul_inv (.inl (Nat.cast_ne_zero.mpr (Nat.succ_ne_zero _)))
        (.inl (ENNReal.natCast_ne_top _))]

theorem uniformDraws_eq_zero (h : ¬Admissible i drawn) : uniformDraws i drawn = 0 := by
  induction i generalizing drawn with
  | zero =>
    have hne : drawn ≠ [] := by
      rintro rfl
      exact h .nil
    simp [uniformDraws, hne]
  | succ i ih =>
    cases drawn with
    | nil => exact uniformDraws_nil i
    | cons j drawn =>
      rw [uniformDraws_cons]
      by_cases hj : j ≤ i + 1
      · rw [ih fun hdrawn => h (.cons hj hdrawn), mul_zero]
      · rw [if_neg hj, zero_mul]

/-! ## Each order once -/

variable {list order : List α}

theorem swapped_perm (drawn : List Nat) (list : List α) : (swapped drawn list).Perm list :=
  (swapDown_perm _ _ list.toArray).toList

theorem bijOn_swapped (hnodup : list.Nodup) :
    Set.BijOn (fun drawn => swapped drawn list) {drawn | Admissible (list.length - 1) drawn}
      {order | order.Perm list} := by
  refine ⟨fun drawn _ => swapped_perm drawn list, ?_, ?_⟩
  · intro drawn hdrawn drawn' hdrawn' heq
    exact Admissible.eq_of_swapDown_eq hdrawn hdrawn' hnodup (le_refl _) (Array.toList_inj.mp heq)
  · intro order horder
    have hafter : ∀ k, list.length - 1 < k → order.toArray[k]? = list.toArray[k]? := by
      intro k hk
      have hlength : order.length = list.length := horder.length_eq
      rw [List.getElem?_toArray, List.getElem?_toArray, List.getElem?_eq_none (by omega),
        List.getElem?_eq_none (by omega)]
    have hitems : list.toArray.toList.Nodup := hnodup
    obtain ⟨drawn, hdrawn, heq⟩ := exists_swapDown_eq hitems (le_refl _)
      (List.perm_iff_toArray_perm.mp horder) hafter
    exact ⟨drawn, hdrawn, congrArg Array.toList heq⟩

theorem ncard_orders (hnodup : list.Nodup) :
    {order : List α | order.Perm list}.ncard = list.length ! := by
  classical
  have horders : {order : List α | order.Perm list} = list.permutations.toFinset := by
    ext order
    simp
  rw [horders, Set.ncard_coe_finset, List.toFinset_card_of_nodup (list.nodup_permutations hnodup),
    List.length_permutations]

theorem map_swapped_uniformDraws (hnodup : list.Nodup) (horder : order.Perm list) :
    (uniformDraws (list.length - 1)).map (fun drawn => swapped drawn list) order =
      ((list.length ! : ℕ) : ℝ≥0∞)⁻¹ := by
  classical
  obtain ⟨drawn, hdrawn, hswapped⟩ := (bijOn_swapped hnodup).surjOn horder
  have hfactorial : (list.length - 1 + 1)! = list.length ! := by
    cases list with
    | nil => rfl
    | cons item rest => rfl
  rw [PMF.map_apply, tsum_eq_single drawn]
  · rw [if_pos hswapped.symm, Admissible.uniformDraws_eq hdrawn, hfactorial]
  · intro other hother
    by_cases hadmissible : Admissible (list.length - 1) other
    · rw [if_neg]
      intro heq
      exact hother ((bijOn_swapped hnodup).injOn hadmissible hdrawn (heq.symm.trans hswapped.symm))
    · rw [uniformDraws_eq_zero hadmissible, ite_self]

/-- The order of different items tells all draws that have given it, and each order is given by some
draws. So with uniform draws each of them is as likely as any other. -/
theorem swaps_reach_each_order_once (hnodup : list.Nodup) :
    Set.BijOn (fun drawn => swapped drawn list) {drawn | Admissible (list.length - 1) drawn}
      {order | order.Perm list} ∧
    {order : List α | order.Perm list}.ncard = list.length ! ∧
    (∀ order, order.Perm list →
      (uniformDraws (list.length - 1)).map (fun drawn => swapped drawn list) order =
        ((list.length ! : ℕ) : ℝ≥0∞)⁻¹) ∧
    ∀ seed, Admissible (list.length - 1) (draws seed list.length) ∧
      permute seed list = swapped (draws seed list.length) list :=
  ⟨bijOn_swapped hnodup, ncard_orders hnodup, fun _ => map_swapped_uniformDraws hnodup,
    fun seed => ⟨admissible_draws seed list.length, rfl⟩⟩

theorem swaps_reach_each_order_once_three :
    ["a", "b", "c"].Nodup ∧
    {order : List String | order.Perm ["a", "b", "c"]}.ncard = 6 ∧
    ∃! drawn, Admissible 2 drawn ∧ swapped drawn ["a", "b", "c"] = ["c", "a", "b"] := by
  have hnodup : ["a", "b", "c"].Nodup := by decide
  obtain ⟨hbij, hcount, -, -⟩ := swaps_reach_each_order_once hnodup
  obtain ⟨drawn, hdrawn, hswapped⟩ := hbij.surjOn (show ["c", "a", "b"].Perm _ by decide)
  refine ⟨hnodup, hcount, drawn, ⟨hdrawn, hswapped⟩, fun other hother => ?_⟩
  exact hbij.injOn hother.1 hdrawn (hother.2.trans hswapped.symm)

end SuitePlan.Shuffle
