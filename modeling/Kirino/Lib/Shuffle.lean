import Mathlib.Data.List.Nodup
import Mathlib.Data.List.Perm.Basic
/-!
# Shuffle — exchanging every element with one at or before it

From the last position down to the second, the element there is exchanged with that of a position drawn at or before it.
The result is a permutation of the list (`shuffle_perm`), and each permutation of distinct elements comes of one choice of
the positions and no other (`existsUnique_shuffle`): positions drawn evenly shuffle evenly.
-/
namespace Kirino
namespace Lib

variable {α β : Type}

/-- Exchange the elements of two positions. -/
def swapAt (l : List α) (i j : Nat) : List α :=
  match l[i]?, l[j]? with
  | some x, some y => (l.set i y).set j x
  | _, _ => l

/-- Exchange the elements from position `n` down to position 1. -/
def shuffleFrom (draw : Nat → Nat) : Nat → List α → List α
  | 0, l => l
  | n + 1, l => shuffleFrom draw n (swapAt l (n + 1) (draw (n + 1)))

def shuffle (draw : Nat → Nat) (l : List α) : List α := shuffleFrom draw (l.length - 1) l

variable {l : List α} {i j k n : Nat} {draw draw' : Nat → Nat}

theorem swapAt_eq (hi : i < l.length) (hj : j < l.length) : swapAt l i j = (l.set i l[j]).set j l[i] := by
  unfold swapAt
  rw [List.getElem?_eq_getElem hi, List.getElem?_eq_getElem hj]

theorem swapAt_perm (l : List α) (i j : Nat) : (swapAt l i j).Perm l := by
  unfold swapAt
  split
  · next x y hx hy =>
    obtain ⟨hi, rfl⟩ := List.getElem?_eq_some_iff.1 hx
    obtain ⟨hj, rfl⟩ := List.getElem?_eq_some_iff.1 hy
    exact List.set_set_perm hi hj
  · exact List.Perm.refl l

theorem getElem?_swapAt (hi : i < l.length) (hj : j < l.length) :
    (swapAt l i j)[k]? = if k = j then l[i]? else if k = i then l[j]? else l[k]? := by
  rw [swapAt_eq hi hj, List.getElem?_set, List.getElem?_set, List.length_set, List.getElem?_eq_getElem hi,
    List.getElem?_eq_getElem hj]
  by_cases hkj : j = k
  · subst hkj
    simp [hj]
  · by_cases hki : i = k
    · subst hki
      simp [hi, hkj, Ne.symm hkj]
    · simp [hkj, hki, Ne.symm hkj, Ne.symm hki]

/-- The first position takes the element of the second. -/
theorem getElem?_swapAt_left (hi : i < l.length) (hj : j < l.length) : (swapAt l i j)[i]? = l[j]? := by
  rw [getElem?_swapAt hi hj, if_pos rfl]
  split
  · next h => rw [h]
  · rfl

theorem swapAt_map (f : α → β) (l : List α) (i j : Nat) : swapAt (l.map f) i j = (swapAt l i j).map f := by
  unfold swapAt
  rw [List.getElem?_map, List.getElem?_map]
  cases l[i]? with
  | none => rfl
  | some x =>
    cases l[j]? with
    | none => rfl
    | some y => simp [List.map_set]

theorem shuffleFrom_perm (draw : Nat → Nat) : ∀ (n : Nat) (l : List α), (shuffleFrom draw n l).Perm l
  | 0, l => List.Perm.refl l
  | n + 1, l => (shuffleFrom_perm draw n _).trans (swapAt_perm l (n + 1) (draw (n + 1)))

/-- **A shuffle loses and adds nothing.** -/
theorem shuffle_perm (draw : Nat → Nat) (l : List α) : (shuffle draw l).Perm l := shuffleFrom_perm draw _ l

theorem shuffleFrom_map (draw : Nat → Nat) (f : α → β) : ∀ (n : Nat) (l : List α),
    shuffleFrom draw n (l.map f) = (shuffleFrom draw n l).map f
  | 0, _ => rfl
  | n + 1, l => by rw [shuffleFrom, shuffleFrom, swapAt_map, shuffleFrom_map draw f n]

/-- **A shuffle does not look at the elements.** -/
theorem shuffle_map (draw : Nat → Nat) (f : α → β) (l : List α) : shuffle draw (l.map f) = (shuffle draw l).map f := by
  unfold shuffle
  rw [List.length_map, shuffleFrom_map]

/-! ## One choice for each permutation -/

theorem length_swapAt (l : List α) (i j : Nat) : (swapAt l i j).length = l.length := (swapAt_perm l i j).length_eq

/-- What stands behind the first exchange stays. -/
theorem getElem?_shuffleFrom_of_lt (hdraw : ∀ i, draw i ≤ i) : ∀ (n : Nat) (l : List α), n < l.length → n < k →
    (shuffleFrom draw n l)[k]? = l[k]?
  | 0, _, _, _ => rfl
  | n + 1, l, hn, hk => by
    have hle := hdraw (n + 1)
    rw [shuffleFrom, getElem?_shuffleFrom_of_lt hdraw n _ (by rw [length_swapAt]; omega) (by omega),
      getElem?_swapAt hn (by omega), if_neg (by omega), if_neg (by omega)]

theorem shuffleFrom_congr : ∀ (n : Nat) (l : List α), (∀ i, 0 < i → i ≤ n → draw i = draw' i) →
    shuffleFrom draw n l = shuffleFrom draw' n l
  | 0, _, _ => rfl
  | n + 1, l, h => by
    rw [shuffleFrom, shuffleFrom, h (n + 1) (Nat.succ_pos n) (Nat.le_refl _)]
    exact shuffleFrom_congr n _ (fun i hi hin => h i hi (Nat.le_succ_of_le hin))

/-- **Some choice leads to a permutation** that agrees with the list behind the first exchange. -/
theorem exists_shuffleFrom : ∀ (n : Nat) (l l' : List α), l.Nodup → l'.Perm l → n < l.length →
    (∀ k, n < k → l'[k]? = l[k]?) → ∃ draw, (∀ i, draw i ≤ i) ∧ shuffleFrom draw n l = l'
  | 0, l, l', _, hperm, hn, hsame => by
    refine ⟨id, fun i => Nat.le_refl i, ?_⟩
    cases l with
    | nil => cases hn
    | cons a t =>
      cases l' with
      | nil => cases hperm.length_eq
      | cons b t' =>
        have htail : t' = t := List.ext_getElem? (fun k => by simpa using hsame (k + 1) (Nat.succ_pos k))
        subst htail
        have hhead : [b].Perm [a] := (List.perm_append_right_iff t').1 hperm
        rw [List.singleton_perm_singleton.1 hhead]
        rfl
  | n + 1, l, l', hl, hperm, hn, hsame => by
    have hn' : n + 1 < l'.length := hperm.length_eq ▸ hn
    -- the element that ends at the first position exchanged stands at or before it
    obtain ⟨j, hj, hx⟩ := List.getElem_of_mem (hperm.subset (List.getElem_mem hn'))
    have hjn : j ≤ n + 1 := by
      by_contra hlt
      have hj' : j < l'.length := hperm.length_eq ▸ hj
      have hagree := hsame j (by omega)
      rw [List.getElem?_eq_getElem hj, List.getElem?_eq_getElem hj', Option.some.injEq, hx] at hagree
      have heq := (hperm.nodup_iff.2 hl).getElem_inj_iff.1 hagree
      omega
    obtain ⟨draw, hdraw, heq⟩ := exists_shuffleFrom n (swapAt l (n + 1) j) l' ((swapAt_perm l _ _).nodup_iff.2 hl)
      (hperm.trans (swapAt_perm l _ _).symm) (by rw [length_swapAt]; omega) (fun k hk => by
        rcases Nat.lt_or_ge (n + 1) k with hlt | hge
        · rw [getElem?_swapAt hn hj, if_neg (by omega), if_neg (by omega), hsame k hlt]
        · obtain rfl : k = n + 1 := by omega
          rw [getElem?_swapAt_left hn hj, List.getElem?_eq_getElem hn', List.getElem?_eq_getElem hj, hx])
    refine ⟨fun i => if i = n + 1 then j else draw i, fun i => ?_, ?_⟩
    · dsimp only
      split
      · omega
      · exact hdraw i
    · rw [shuffleFrom, if_pos rfl, ← heq]
      exact shuffleFrom_congr n _ (fun i _ hin => if_neg (by omega))

/-- **No other choice leads there.** -/
theorem draws_unique (hdraw : ∀ i, draw i ≤ i) (hdraw' : ∀ i, draw' i ≤ i) : ∀ (n : Nat) (l : List α), l.Nodup →
    n < l.length → shuffleFrom draw n l = shuffleFrom draw' n l → ∀ i, 0 < i → i ≤ n → draw i = draw' i
  | 0, _, _, _, _, i, hi, hin => by omega
  | n + 1, l, hl, hn, heq, i, hi, hin => by
    rw [shuffleFrom, shuffleFrom] at heq
    have hlt := hdraw (n + 1)
    have hlt' := hdraw' (n + 1)
    have hlast : draw (n + 1) = draw' (n + 1) := by
      have hget : (shuffleFrom draw n (swapAt l (n + 1) (draw (n + 1))))[n + 1]? =
          (shuffleFrom draw' n (swapAt l (n + 1) (draw' (n + 1))))[n + 1]? := by rw [heq]
      rw [getElem?_shuffleFrom_of_lt hdraw n _ (by rw [length_swapAt]; omega) (Nat.lt_succ_self n),
        getElem?_shuffleFrom_of_lt hdraw' n _ (by rw [length_swapAt]; omega) (Nat.lt_succ_self n),
        getElem?_swapAt_left hn (by omega), getElem?_swapAt_left hn (by omega), List.getElem?_eq_getElem (by omega),
        List.getElem?_eq_getElem (by omega), Option.some.injEq] at hget
      exact hl.getElem_inj_iff.1 hget
    rcases Nat.lt_or_eq_of_le hin with hlt | rfl
    · rw [hlast] at heq
      exact draws_unique hdraw hdraw' n _ ((swapAt_perm l _ _).nodup_iff.2 hl) (by rw [length_swapAt]; omega) heq i hi
        (Nat.le_of_lt_succ hlt)
    · exact hlast

/-- **Each permutation of distinct elements comes of one choice of the positions**, and of no other. -/
theorem existsUnique_shuffle {l l' : List α} (hl : l.Nodup) (hperm : l'.Perm l) :
    ∃ draw, (∀ i, draw i ≤ i) ∧ shuffle draw l = l' ∧ ∀ draw', (∀ i, draw' i ≤ i) → shuffle draw' l = l' →
      ∀ i, 0 < i → i < l.length → draw' i = draw i := by
  cases hlen : l.length with
  | zero =>
    obtain rfl := List.length_eq_zero_iff.1 hlen
    exact ⟨id, fun i => Nat.le_refl i, hperm.eq_nil.symm, fun _ _ _ i _ hi => absurd hi (Nat.not_lt_zero i)⟩
  | succ n =>
    have hn : n < l.length := by omega
    obtain ⟨draw, hdraw, heq⟩ := exists_shuffleFrom n l l' hl hperm hn (fun k hk => by
      have hlen' := hperm.length_eq
      rw [List.getElem?_eq_none (by omega), List.getElem?_eq_none (by omega)])
    unfold shuffle
    rw [hlen, Nat.add_sub_cancel]
    refine ⟨draw, hdraw, heq, fun draw' hdraw' heq' i hi hin => ?_⟩
    exact draws_unique hdraw' hdraw n l hl hn (heq'.trans heq.symm) i hi (Nat.le_of_lt_succ hin)

end Lib
end Kirino
