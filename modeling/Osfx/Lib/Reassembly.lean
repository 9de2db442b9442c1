import Mathlib.Data.List.Basic
import Mathlib.Tactic.Common

/-!
# Reassembly

A list is sent in pieces of one size, but for the last, and each piece with its number. The
numbers are counted modulo `m`, and the pieces arrive in any order.

* `only_source_iff`: what arrives determines the list exactly if two full pieces with the same
  number are the same;
* `ordered_iff`: put in the order of their numbers the pieces make the list exactly if there are
  no more than `m`, or the order of the pieces makes no difference.
-/

namespace Reassembly

variable {α : Type}

/-- The pieces of a list. -/
def pieces (size : Nat) (l : List α) : List (List α) :=
  if _h : l = [] ∨ size = 0 then [] else l.take size :: pieces size (l.drop size)
termination_by l.length
decreasing_by
  have hpos := List.length_pos_of_ne_nil (not_or.mp _h).1
  rw [List.length_drop]
  omega

/-- All pieces but the last are full, and the last is neither empty nor too long. -/
structure IsPieces (size : Nat) (cs : List (List α)) : Prop where
  full : ∀ k x, cs[k]? = some x → k + 1 < cs.length → x.length = size
  bounds : ∀ x ∈ cs, 0 < x.length ∧ x.length ≤ size

/-- The pieces, each with its number. -/
def tagged (m : Nat) (cs : List (List α)) : List (Nat × List α) := cs.mapIdx fun k x => (k % m, x)

/-- What pieces make in the order in which they stand. -/
def content (t : List (Nat × List α)) : List α := (t.map Prod.snd).flatten

def InTagOrder (t : List (Nat × List α)) : Prop := t.Pairwise fun a b => a.1 ≤ b.1

theorem pieces_nil (size : Nat) : pieces size ([] : List α) = [] := by
  rw [pieces, dif_pos (Or.inl rfl)]

theorem pieces_of_ne_nil {size : Nat} (hsize : 0 < size) {l : List α} (hl : l ≠ []) :
    pieces size l = l.take size :: pieces size (l.drop size) := by
  rw [pieces, dif_neg]
  rintro (hnil | hzero)
  · exact hl hnil
  · omega

theorem flatten_pieces {size : Nat} (hsize : 0 < size) (l : List α) :
    (pieces size l).flatten = l := by
  induction l using pieces.induct size with
  | case1 l hempty =>
    obtain rfl : l = [] := hempty.resolve_right (Nat.ne_of_gt hsize)
    rw [pieces_nil]
    rfl
  | case2 l hl ih =>
    rw [pieces_of_ne_nil hsize (not_or.mp hl).1, List.flatten_cons, ih, List.take_append_drop]

theorem isPieces_pieces {size : Nat} (hsize : 0 < size) (l : List α) :
    IsPieces size (pieces size l) := by
  induction l using pieces.induct size with
  | case1 l hempty =>
    rw [pieces, dif_pos hempty]
    constructor
    · intro k x hx
      cases hx
    · intro x hx
      cases hx
  | case2 l hl ih =>
    have hpos := List.length_pos_of_ne_nil (not_or.mp hl).1
    rw [pieces_of_ne_nil hsize (not_or.mp hl).1]
    constructor
    · intro k x hx hk
      cases k with
      | zero =>
        cases hx
        have hmore : l.drop size ≠ [] := by
          intro hnil
          rw [hnil, pieces_nil] at hk
          simp at hk
        have hlen := List.length_pos_of_ne_nil hmore
        rw [List.length_drop] at hlen
        rw [List.length_take]
        omega
      | succ k =>
        rw [List.length_cons] at hk
        exact ih.full k x hx (by omega)
    · intro x hx
      rcases List.mem_cons.mp hx with rfl | hx
      · rw [List.length_take]
        omega
      · exact ih.bounds x hx

theorem IsPieces.tail {size : Nat} {x : List α} {cs : List (List α)}
    (h : IsPieces size (x :: cs)) : IsPieces size cs := by
  constructor
  · intro k y hy hk
    exact h.full (k + 1) y hy (by rw [List.length_cons]; omega)
  · exact fun y hy => h.bounds y (List.mem_cons_of_mem x hy)

/-- Pieces put together are cut as they were. -/
theorem pieces_flatten {size : Nat} (hsize : 0 < size) {cs : List (List α)}
    (h : IsPieces size cs) : pieces size cs.flatten = cs := by
  induction cs with
  | nil => exact pieces_nil size
  | cons x cs ih =>
    obtain ⟨hpos, hle⟩ := h.bounds x List.mem_cons_self
    have hcut : (x ++ cs.flatten).take size = x ∧ (x ++ cs.flatten).drop size = cs.flatten := by
      cases cs with
      | nil =>
        rw [List.flatten_nil, List.append_nil]
        exact ⟨List.take_of_length_le hle, List.drop_of_length_le hle⟩
      | cons y cs =>
        obtain rfl := h.full 0 x rfl (by simp)
        exact ⟨List.take_left, List.drop_left⟩
    have hne : x ++ cs.flatten ≠ [] := List.append_ne_nil_of_left_ne_nil
      (List.ne_nil_of_length_pos hpos) _
    rw [List.flatten_cons, pieces_of_ne_nil hsize hne, hcut.1, hcut.2, ih h.tail]

theorem length_pieces_le {size n : Nat} (hsize : 0 < size) (l : List α) :
    (pieces size l).length ≤ n ↔ l.length ≤ n * size := by
  induction l using pieces.induct size generalizing n with
  | case1 l hempty =>
    obtain rfl : l = [] := hempty.resolve_right (Nat.ne_of_gt hsize)
    rw [pieces_nil]
    exact iff_of_true (Nat.zero_le n) (Nat.zero_le _)
  | case2 l hl ih =>
    have hpos := List.length_pos_of_ne_nil (not_or.mp hl).1
    rw [pieces_of_ne_nil hsize (not_or.mp hl).1, List.length_cons]
    cases n with
    | zero =>
      rw [Nat.zero_mul]
      omega
    | succ n =>
      rw [Nat.add_le_add_iff_right, ih, List.length_drop, Nat.succ_mul]
      omega

theorem flatten_split {k : Nat} {x : List α} {cs : List (List α)} (hx : cs[k]? = some x) :
    cs.flatten = (cs.take k).flatten ++ (x ++ (cs.drop (k + 1)).flatten) := by
  obtain ⟨hk, rfl⟩ := List.getElem?_eq_some_iff.mp hx
  conv_lhs => rw [← List.take_append_drop k cs]
  rw [List.drop_eq_getElem_cons hk, List.flatten_append, List.flatten_cons]

/-! ## What the pieces determine -/

theorem mem_tagged {m r : Nat} {x : List α} {cs : List (List α)} :
    (r, x) ∈ tagged m cs ↔ ∃ k, cs[k]? = some x ∧ k % m = r := by
  rw [tagged, List.mem_mapIdx]
  constructor
  · rintro ⟨k, hk, he⟩
    cases he
    exact ⟨k, List.getElem?_eq_getElem hk, rfl⟩
  · rintro ⟨k, hx, rfl⟩
    obtain ⟨hk, rfl⟩ := List.getElem?_eq_some_iff.mp hx
    exact ⟨k, hk, rfl⟩

theorem length_tagged (m : Nat) (cs : List (List α)) : (tagged m cs).length = cs.length :=
  List.length_mapIdx

theorem map_mapIdx {β γ : Type} (f : Nat → α → β) (g : β → γ) (l : List α) :
    (l.mapIdx f).map g = l.mapIdx fun k x => g (f k x) := by
  rw [List.mapIdx_eq_zipIdx_map, List.mapIdx_eq_zipIdx_map, List.map_map]
  rfl

theorem map_numbered (number : Nat → Nat) (cs : List (List α)) :
    (cs.mapIdx fun k x => (number k, x)).map Prod.snd = cs := by
  rw [map_mapIdx, List.mapIdx_eq_iff]
  intro k
  cases cs[k]? with
  | none => rfl
  | some x => rfl

theorem map_tagged (m : Nat) (cs : List (List α)) : (tagged m cs).map Prod.snd = cs :=
  map_numbered (· % m) cs

theorem content_tagged (m : Nat) (cs : List (List α)) : content (tagged m cs) = cs.flatten := by
  rw [content, map_tagged]

/-- Two full pieces with one number are the same. -/
def SameNumberSame (size m : Nat) (cs : List (List α)) : Prop :=
  ∀ i j x y, i % m = j % m → cs[i]? = some x → cs[j]? = some y → x.length = size →
    y.length = size → x = y

/-- A piece that is not full is the last. -/
theorem IsPieces.last {size k : Nat} {x : List α} {cs : List (List α)} (h : IsPieces size cs)
    (hx : cs[k]? = some x) (hshort : x.length ≠ size) : k + 1 = cs.length := by
  obtain ⟨hk, -⟩ := List.getElem?_eq_some_iff.mp hx
  by_contra hne
  exact hshort (h.full k x hx (by omega))

theorem IsPieces.short_eq {size : Nat} {x y : List α} {cs : List (List α)} (h : IsPieces size cs)
    (hx : x ∈ cs) (hy : y ∈ cs) (hxs : x.length ≠ size) (hys : y.length ≠ size) : x = y := by
  obtain ⟨i, hi⟩ := List.mem_iff_getElem?.mp hx
  obtain ⟨j, hj⟩ := List.mem_iff_getElem?.mp hy
  have hlast := h.last hi hxs
  have hlast' := h.last hj hys
  obtain rfl : i = j := by omega
  rw [hi] at hj
  exact Option.some.inj hj

theorem eq_of_sameNumberSame {size m : Nat} {cs ds : List (List α)} (hc : IsPieces size cs)
    (hd : IsPieces size ds) (hsame : SameNumberSame size m cs)
    (hperm : (tagged m ds).Perm (tagged m cs)) : ds = cs := by
  have hlen : ds.length = cs.length := by
    rw [← length_tagged m ds, hperm.length_eq, length_tagged]
  have hfind : ∀ {k y}, ds[k]? = some y → ∃ j, cs[j]? = some y ∧ j % m = k % m := by
    intro k y hy
    exact mem_tagged.mp (hperm.subset (mem_tagged.mpr ⟨k, hy, rfl⟩))
  have hback : ∀ {k y}, cs[k]? = some y → ∃ j, ds[j]? = some y ∧ j % m = k % m := by
    intro k y hy
    exact mem_tagged.mp (hperm.symm.subset (mem_tagged.mpr ⟨k, hy, rfl⟩))
  apply List.ext_getElem
  · exact hlen
  · intro k hk hk'
    have hy := List.getElem?_eq_getElem hk
    have hx := List.getElem?_eq_getElem hk'
    obtain ⟨j, hj, hmod⟩ := hfind hy
    by_cases hyfull : ds[k].length = size
    · by_cases hxfull : cs[k].length = size
      · exact hsame j k _ _ hmod hj hx hyfull hxfull
      · -- The piece that is not full stands last on both sides.
        obtain ⟨i, hi, -⟩ := hback hx
        have hlast := hd.last hi hxfull
        have hlast' := hc.last hx hxfull
        have hik : i = k := by omega
        rw [hik, hy] at hi
        exact Option.some.inj hi
    · have hlast := hd.last hy hyfull
      have hlast' := hc.last hj hyfull
      have hjk : j = k := by omega
      rw [hjk, hx] at hj
      exact (Option.some.inj hj).symm

theorem IsPieces.set {size k : Nat} {x y : List α} {cs : List (List α)} (h : IsPieces size cs)
    (hx : cs[k]? = some x) (hxs : x.length = size) (hys : y.length = size) :
    IsPieces size (cs.set k y) := by
  obtain ⟨hpos, hle⟩ := h.bounds x (List.mem_of_getElem? hx)
  constructor
  · intro j z hz hj
    rw [List.length_set] at hj
    by_cases hkj : k = j
    · subst hkj
      rw [List.getElem?_set_self (by omega)] at hz
      cases hz
      exact hys
    · rw [List.getElem?_set_ne hkj] at hz
      exact h.full j z hz hj
  · intro z hz
    rcases List.mem_or_eq_of_mem_set hz with hz | rfl
    · exact h.bounds z hz
    · omega

/-- Two pieces with one number can change places. -/
theorem tagged_swap {m i j : Nat} {cs : List (List α)} (hmod : i % m = j % m) (hi : i < cs.length)
    (hj : j < cs.length) : (tagged m ((cs.set i cs[j]).set j cs[i])).Perm (tagged m cs) := by
  have hi' : i < (tagged m cs).length := by rwa [length_tagged]
  have hj' : j < (tagged m cs).length := by rwa [length_tagged]
  have hperm := List.set_set_perm hi' hj'
  simp only [tagged, List.getElem_mapIdx] at hperm
  simp only [tagged, List.mapIdx_set, hmod]
  rwa [hmod] at hperm

theorem sameNumberSame_of_only {size m : Nat} {cs : List (List α)} (hc : IsPieces size cs)
    (honly : ∀ ds, IsPieces size ds → (tagged m ds).Perm (tagged m cs) → ds = cs) :
    SameNumberSame size m cs := by
  intro i j x y hmod hx hy hxs hys
  obtain ⟨hi, rfl⟩ := List.getElem?_eq_some_iff.mp hx
  obtain ⟨hj, rfl⟩ := List.getElem?_eq_some_iff.mp hy
  by_cases hij : i = j
  · subst hij
    rfl
  · have hy' : (cs.set i cs[j])[j]? = some cs[j] := by
      rw [List.getElem?_set_ne hij, hy]
    have hds := honly _ ((hc.set hx hxs hys).set hy' hys hxs) (tagged_swap hmod hi hj)
    have hat : ((cs.set i cs[j]).set j cs[i])[i]? = some cs[j] := by
      rw [List.getElem?_set_ne (Ne.symm hij), List.getElem?_set_self hi]
    rw [hds, hx] at hat
    exact Option.some.inj hat

/-- What arrives determines the pieces exactly if two full ones with one number are the same. -/
theorem only_source_iff {size m : Nat} {cs : List (List α)} (hc : IsPieces size cs) :
    (∀ ds, IsPieces size ds → (tagged m ds).Perm (tagged m cs) → ds = cs) ↔
      SameNumberSame size m cs :=
  ⟨sameNumberSame_of_only hc, fun hsame _ hd hperm => eq_of_sameNumberSame hc hd hsame hperm⟩

/-! ## Pieces that commute -/

/-- The order of any two pieces makes no difference. -/
def Commuting (cs : List (List α)) : Prop := ∀ x ∈ cs, ∀ y ∈ cs, x ++ y = y ++ x

theorem flatten_perm {cs ds : List (List α)} (h : Commuting cs) (hperm : cs.Perm ds) :
    cs.flatten = ds.flatten := by
  induction hperm with
  | nil => rfl
  | cons x hperm ih =>
    rw [List.flatten_cons, List.flatten_cons,
      ih fun y hy z hz => h y (List.mem_cons_of_mem _ hy) z (List.mem_cons_of_mem _ hz)]
  | swap x y cs =>
    have hxy := h x (by simp) y (by simp)
    simp only [List.flatten_cons, ← List.append_assoc, hxy]
  | trans hfirst _ ih₁ ih₂ =>
    rw [ih₁ h, ih₂ fun y hy z hz => h y (hfirst.mem_iff.mpr hy) z (hfirst.mem_iff.mpr hz)]

theorem eq_of_commute {x y : List α} (h : x ++ y = y ++ x) (hlen : x.length = y.length) : x = y :=
  List.append_inj_left h hlen

/-- Two lists that commute with a third one are fronts of the same list. -/
theorem prefix_of_commute {w x y : List α} (hw : w ≠ []) (hx : w ++ x = x ++ w)
    (hy : w ++ y = y ++ w) (hle : x.length ≤ y.length) : x <+: y := by
  have hpow : ∀ {z} k, w ++ z = z ++ w →
      (List.replicate k w).flatten ++ z = z ++ (List.replicate k w).flatten := by
    intro z k hz
    induction k with
    | zero => simp
    | succ k ih =>
      rw [List.replicate_succ, List.flatten_cons, List.append_assoc, ih, ← List.append_assoc, hz,
        List.append_assoc]
  have hpos := List.length_pos_of_ne_nil hw
  have hgrow : ∀ k, k ≤ (List.replicate k w).flatten.length := by
    intro k
    induction k with
    | zero => exact Nat.zero_le _
    | succ k ih =>
      rw [List.replicate_succ, List.flatten_cons, List.length_append]
      omega
  have hlong := hgrow y.length
  have hfront : ∀ {z}, w ++ z = z ++ w → z.length ≤ y.length →
      z <+: (List.replicate y.length w).flatten := by
    intro z hz hzy
    refine List.prefix_of_prefix_length_le ⟨_, (hpow y.length hz).symm⟩ ⟨z, rfl⟩ ?_
    omega
  exact List.prefix_of_prefix_length_le (hfront hx hle) (hfront hy (Nat.le_refl _)) hle

/-- What commutes with a full piece, and is the same where it is not full, commutes. -/
theorem commuting_of_full {size : Nat} {cs : List (List α)} {c : List α} (hc : c.length = size)
    (hcomm : ∀ x ∈ cs, x ++ c = c ++ x)
    (hshort : ∀ x ∈ cs, ∀ y ∈ cs, x.length ≠ size → y.length ≠ size → x = y) : Commuting cs := by
  have hfull : ∀ x ∈ cs, x.length = size → x = c := fun x hx hxs =>
    eq_of_commute (hcomm x hx) (hxs.trans hc.symm)
  intro x hx y hy
  by_cases hxs : x.length = size
  · rw [hfull x hx hxs]
    exact (hcomm y hy).symm
  · by_cases hys : y.length = size
    · rw [hfull y hy hys]
      exact hcomm x hx
    · rw [hshort x hx y hy hxs hys]

/-- Full pieces whose whole commutes with what one of them commutes with are all the same. -/
theorem all_eq_of_commute {w c : List α} {cs : List (List α)} (hw : w ≠ []) (hc : w ++ c = c ++ w)
    (hlen : ∀ x ∈ cs, x.length = c.length) (h : w ++ cs.flatten = cs.flatten ++ w) :
    ∀ x ∈ cs, x = c := by
  induction cs with
  | nil =>
    intro x hx
    cases hx
  | cons y cs ih =>
    have hy := hlen y List.mem_cons_self
    have hfront : c <+: y ++ cs.flatten := by
      refine prefix_of_commute hw hc h ?_
      rw [List.length_append]
      omega
    obtain rfl : c = y := by
      obtain ⟨rest, hrest⟩ := hfront
      exact List.append_inj_left hrest hy.symm
    rw [List.flatten_cons, ← List.append_assoc, hc, List.append_assoc, List.append_assoc] at h
    have hrest := ih (fun x hx => hlen x (List.mem_cons_of_mem _ hx)) (List.append_cancel_left h)
    intro x hx
    rcases List.mem_cons.mp hx with rfl | hx
    · rfl
    · exact hrest x hx

/-! ## Pieces in the order of their numbers -/

/-- Every arrangement of the pieces in the order of their numbers makes the list. -/
def OrderMakes (m : Nat) (cs : List (List α)) : Prop :=
  ∀ t, t.Perm (tagged m cs) → InTagOrder t → content t = cs.flatten

theorem content_append (t u : List (Nat × List α)) : content (t ++ u) = content t ++ content u := by
  simp [content]

theorem exists_inTagOrder (t : List (Nat × List α)) : ∃ u, u.Perm t ∧ InTagOrder u := by
  refine ⟨t.mergeSort fun a b => a.1 ≤ b.1, List.mergeSort_perm t _, ?_⟩
  have htrans : ∀ a b c : Nat × List α, decide (a.1 ≤ b.1) = true → decide (b.1 ≤ c.1) = true →
      decide (a.1 ≤ c.1) = true := by
    intro a b c hab hbc
    exact decide_eq_true (Nat.le_trans (of_decide_eq_true hab) (of_decide_eq_true hbc))
  have htotal : ∀ a b : Nat × List α, (decide (a.1 ≤ b.1) || decide (b.1 ≤ a.1)) = true := by
    intro a b
    rw [Bool.or_eq_true, decide_eq_true_eq, decide_eq_true_eq]
    exact Nat.le_total a.1 b.1
  exact (List.pairwise_mergeSort htrans htotal t).imp fun hab => of_decide_eq_true hab

/-- Pieces can be put in order in front of a number and from it on. -/
theorem exists_split (r : Nat) (t : List (Nat × List α)) :
    ∃ low high, (low ++ high).Perm t ∧ InTagOrder low ∧ InTagOrder high ∧
      (∀ a ∈ low, a.1 < r) ∧ ∀ a ∈ high, r ≤ a.1 := by
  obtain ⟨low, hlow, hlowOrder⟩ := exists_inTagOrder (t.filter fun a => a.1 < r)
  obtain ⟨high, hhigh, hhighOrder⟩ := exists_inTagOrder (t.filter fun a => !decide (a.1 < r))
  refine ⟨low, high, (hlow.append hhigh).trans (List.filter_append_perm _ _), hlowOrder,
    hhighOrder, fun a ha => ?_, fun a ha => ?_⟩
  · have hfilter := (List.mem_filter.mp (hlow.mem_iff.mp ha)).2
    simpa using hfilter
  · have hfilter := (List.mem_filter.mp (hhigh.mem_iff.mp ha)).2
    simpa using hfilter

theorem InTagOrder.append {t u : List (Nat × List α)} (ht : InTagOrder t) (hu : InTagOrder u)
    {r : Nat} (hle : ∀ a ∈ t, a.1 ≤ r) (hge : ∀ a ∈ u, r ≤ a.1) : InTagOrder (t ++ u) :=
  List.pairwise_append.mpr
    ⟨ht, hu, fun a ha b hb => Nat.le_trans (hle a ha) (hge b hb)⟩

theorem orderMakes_of_few {m : Nat} {cs : List (List α)} (h : cs.length ≤ m) : OrderMakes m cs := by
  intro t hperm hsorted
  have hnumber : ∀ {r x}, (r, x) ∈ tagged m cs → cs[r]? = some x := by
    intro r x hx
    obtain ⟨k, hk, rfl⟩ := mem_tagged.mp hx
    obtain ⟨hlt, -⟩ := List.getElem?_eq_some_iff.mp hk
    rwa [Nat.mod_eq_of_lt (by omega)]
  have hself : InTagOrder (tagged m cs) := by
    apply List.pairwise_iff_getElem.mpr
    intro i j hi hj hij
    rw [length_tagged] at hi hj
    simp only [tagged, List.getElem_mapIdx, Nat.mod_eq_of_lt (show i < m by omega),
      Nat.mod_eq_of_lt (show j < m by omega)]
    omega
  have heq : t = tagged m cs := by
    refine hperm.eq_of_pairwise ?_ hsorted hself
    rintro ⟨r, x⟩ ⟨q, y⟩ ha hb hle hge
    obtain rfl : r = q := Nat.le_antisymm hle hge
    have hx := hnumber (hperm.mem_iff.mp ha)
    rw [hnumber hb] at hx
    rw [Option.some.inj hx]
  rw [heq, content_tagged]

theorem orderMakes_of_commuting {m : Nat} {cs : List (List α)} (h : Commuting cs) :
    OrderMakes m cs := by
  intro t hperm _
  have hmap := hperm.map Prod.snd
  rw [map_tagged] at hmap
  exact (flatten_perm h hmap.symm).symm

/-- The first pieces of the list and, behind them, the second one of number 0. -/
theorem first_sublist_tagged {m k : Nat} {cs : List (List α)} (hk : k < m) (hm : m < cs.length) :
    (tagged m (cs.take (k + 1)) ++ [(0, cs[m])]).Sublist (tagged m cs) := by
  have hsplit : tagged m cs = tagged m (cs.take (k + 1)) ++
      (cs.drop (k + 1)).mapIdx fun i x => ((i + (k + 1)) % m, x) := by
    conv_lhs => rw [← List.take_append_drop (k + 1) cs]
    rw [tagged, List.mapIdx_append, List.length_take, Nat.min_eq_left (by omega)]
    rfl
  rw [hsplit]
  refine (List.Sublist.refl _).append (List.singleton_sublist.mpr (List.mem_mapIdx.mpr ?_))
  refine ⟨m - (k + 1), by rw [List.length_drop]; omega, ?_⟩
  rw [List.getElem_drop, Nat.sub_add_cancel hk, Nat.mod_self]
  simp only [Nat.add_sub_cancel' hk]

theorem first_of_low {m k : Nat} {y : List α} {cs : List (List α)} {a : Nat × List α}
    (ha : a ∈ tagged m (cs.take (k + 1)) ++ [(0, y)]) : a.1 < k + 1 := by
  rcases List.mem_append.mp ha with ha | ha
  · obtain ⟨i, hi, hmod⟩ := mem_tagged.mp ha
    obtain ⟨hlt, -⟩ := List.getElem?_eq_some_iff.mp hi
    rw [List.length_take] at hlt
    have hle := Nat.mod_le i m
    omega
  · rw [List.mem_singleton.mp ha]
    exact Nat.zero_lt_succ k

/-- What stands in front of a number is what has a lower one. -/
theorem low_perm_filter {r : Nat} {t low high : List (Nat × List α)} (hlow : ∀ a ∈ low, a.1 < r)
    (hhigh : ∀ a ∈ high, r ≤ a.1) (hperm : (low ++ high).Perm t) :
    low.Perm (t.filter fun a => a.1 < r) := by
  have hboth := hperm.filter fun a => decide (a.1 < r)
  have hall : low.filter (fun a => decide (a.1 < r)) = low :=
    List.filter_eq_self.mpr fun a ha => decide_eq_true (hlow a ha)
  have hnone : high.filter (fun a => decide (a.1 < r)) = [] := by
    refine List.filter_eq_nil_iff.mpr fun a ha => ?_
    have hle := hhigh a ha
    simp only [decide_eq_true_eq]
    omega
  rwa [List.filter_append, hall, hnone, List.append_nil] at hboth

/-- Among the pieces of numbers up to `k` are the first ones and the second of number 0. -/
theorem low_holds {m k : Nat} {y : List α} {cs : List (List α)} {low high : List (Nat × List α)}
    (hk : k + 1 < m) (hy : cs[m]? = some y) (hlow : ∀ a ∈ low, a.1 < k + 1)
    (hhigh : ∀ a ∈ high, k + 1 ≤ a.1) (hperm : (low ++ high).Perm (tagged m cs)) :
    ∃ more, (low.map Prod.snd).Perm (cs.take (k + 1) ++ y :: more) := by
  obtain ⟨hmlt, rfl⟩ := List.getElem?_eq_some_iff.mp hy
  have hfilter := low_perm_filter hlow hhigh hperm
  have hkept : (tagged m (cs.take (k + 1)) ++ [(0, cs[m])]).filter (fun a => a.1 < k + 1) =
      tagged m (cs.take (k + 1)) ++ [(0, cs[m])] :=
    List.filter_eq_self.mpr fun a ha => decide_eq_true (first_of_low ha)
  have hin := (first_sublist_tagged (Nat.lt_of_succ_lt hk) hmlt).filter
    fun a : Nat × List α => decide (a.1 < k + 1)
  rw [hkept] at hin
  obtain ⟨more, hmore⟩ := hin.exists_perm_append
  refine ⟨more.map Prod.snd, ((hfilter.trans hmore).map Prod.snd).trans (.of_eq ?_)⟩
  rw [List.map_append, List.map_append, map_tagged, List.append_assoc]
  rfl

/-- Two members of a list can be put in front. -/
theorem exists_two_perm {β : Type} {a b : β} {l : List β} (ha : a ∈ l) (hb : b ∈ l)
    (hne : b ≠ a) : ∃ rest, (a :: b :: rest).Perm l := by
  obtain ⟨before, after, rfl⟩ := List.append_of_mem ha
  have hin : b ∈ before ++ after := by
    rw [List.mem_append, List.mem_cons] at hb
    rw [List.mem_append]
    exact hb.imp_right fun h => h.resolve_left hne
  obtain ⟨before', after', hsplit⟩ := List.append_of_mem hin
  refine ⟨before' ++ after', ?_⟩
  refine List.Perm.trans (List.Perm.cons _ ?_) List.perm_middle.symm
  rw [hsplit]
  exact List.perm_middle.symm

section
variable {m size : Nat} {cs : List (List α)} (h : OrderMakes m cs)
include h

/-- Pieces of one number can stand in any order between those of lower and of higher ones. -/
theorem content_between {r : Nat} {u v : List α} {rest low high : List (Nat × List α)}
    (hrest : (low ++ high).Perm rest) (hlowOrder : InTagOrder low) (hhighOrder : InTagOrder high)
    (hlow : ∀ a ∈ low, a.1 < r) (hhigh : ∀ a ∈ high, r ≤ a.1)
    (huv : ((r, u) :: (r, v) :: rest).Perm (tagged m cs)) :
    content low ++ (u ++ (v ++ content high)) = cs.flatten := by
  have hcons : ∀ a ∈ (r, v) :: high, r ≤ a.1 := by
    intro a ha
    rcases List.mem_cons.mp ha with rfl | ha
    · exact Nat.le_refl r
    · exact hhigh a ha
  have hback : InTagOrder ((r, u) :: (r, v) :: high) :=
    List.pairwise_cons.mpr ⟨hcons, List.pairwise_cons.mpr ⟨hhigh, hhighOrder⟩⟩
  have hperm : (low ++ (r, u) :: (r, v) :: high).Perm (tagged m cs) := by
    refine List.Perm.trans ?_ ((List.Perm.cons _ (List.Perm.cons _ hrest)).trans huv)
    exact List.perm_middle.trans (List.Perm.cons _ List.perm_middle)
  have hsorted : InTagOrder (low ++ (r, u) :: (r, v) :: high) := by
    refine hlowOrder.append hback (fun a ha => Nat.le_of_lt (hlow a ha)) fun a ha => ?_
    rcases List.mem_cons.mp ha with rfl | ha
    · exact Nat.le_refl r
    · exact hcons a ha
  have hmake := h _ hperm hsorted
  rwa [content_append] at hmake

/-- Two pieces with one number commute, as the one can stand in front of the other or behind. -/
theorem same_number_commute {r : Nat} {x y : List α} (hx : (r, x) ∈ tagged m cs)
    (hy : (r, y) ∈ tagged m cs) : x ++ y = y ++ x := by
  by_cases hxy : x = y
  · rw [hxy]
  · obtain ⟨rest, hperm⟩ := exists_two_perm hx hy fun he => hxy (Prod.mk.inj he).2.symm
    obtain ⟨low, high, hrest, hlowOrder, hhighOrder, hlow, hhigh⟩ := exists_split r rest
    have hmake := content_between h hrest hlowOrder hhighOrder hlow hhigh hperm
    have hmake' := content_between h hrest hlowOrder hhighOrder hlow hhigh
      ((List.Perm.swap _ _ _).trans hperm)
    have hcancel := List.append_cancel_left (hmake.trans hmake'.symm)
    rw [← List.append_assoc, ← List.append_assoc] at hcancel
    exact List.append_cancel_right hcancel

variable (hc : IsPieces size cs)
include hc

/-- Where the pieces in front of the `k`-th are all one full piece, all pieces with numbers below
`k` commute. -/
theorem commuting_low {k : Nat} {c : List α} {low : List (Nat × List α)} (hk : k < m)
    (hmany : m < cs.length) (hcs : c.length = size)
    (hfirst : ∀ j x, j < k → cs[j]? = some x → x = c) (hlow : ∀ a ∈ low, a.1 < k)
    (hin : ∀ a ∈ low, a ∈ tagged m cs) : Commuting (low.map Prod.snd) := by
  refine commuting_of_full hcs (fun z hz => ?_) fun z hz z' hz' => ?_
  · obtain ⟨⟨j, z⟩, hj, rfl⟩ := List.mem_map.mp hz
    have hjk : j < k := hlow _ hj
    have hjlt : j < cs.length := by omega
    have hc := hfirst j _ hjk (List.getElem?_eq_getElem hjlt)
    refine same_number_commute h (hin _ hj) (mem_tagged.mpr ⟨j, ?_, Nat.mod_eq_of_lt ?_⟩)
    · rw [List.getElem?_eq_getElem hjlt, hc]
    · omega
  · obtain ⟨⟨i, z⟩, hi, rfl⟩ := List.mem_map.mp hz
    obtain ⟨⟨j, z'⟩, hj, rfl⟩ := List.mem_map.mp hz'
    obtain ⟨i', hi', -⟩ := mem_tagged.mp (hin _ hi)
    obtain ⟨j', hj', -⟩ := mem_tagged.mp (hin _ hj)
    exact hc.short_eq (List.mem_of_getElem? hi') (List.mem_of_getElem? hj')

/-- Of more pieces than there are numbers the first ones are all the same, where the second of
number 0 is full: put behind the first ones of low numbers it stands where the next one was. -/
theorem first_same_of_full {c y : List α} (hm : 0 < m) (hzero : cs[0]? = some c)
    (hy : cs[m]? = some y) (hys : y.length = size) :
    ∀ k x, k < m → cs[k]? = some x → x = c := by
  obtain ⟨hmlt, -⟩ := List.getElem?_eq_some_iff.mp hy
  have hsize : ∀ {k x}, k < m → cs[k]? = some x → x.length = size := fun hk hx =>
    hc.full _ _ hx (by omega)
  have hcs : c.length = size := hsize hm hzero
  have hyc : y = c := by
    have hcomm := same_number_commute h (mem_tagged.mpr ⟨m, hy, Nat.mod_self m⟩)
      (mem_tagged.mpr ⟨0, hzero, Nat.zero_mod m⟩)
    exact eq_of_commute hcomm (hys.trans hcs.symm)
  intro k
  induction k using Nat.strongRecOn with
  | ind k ih =>
    intro x hk hx
    cases k with
    | zero =>
      rw [hzero] at hx
      exact (Option.some.inj hx).symm
    | succ k =>
      obtain ⟨low, high, hperm, hlowOrder, hhighOrder, hlow, hhigh⟩ :=
        exists_split (k + 1) (tagged m cs)
      have hmake := h _ hperm (hlowOrder.append hhighOrder (fun a ha => Nat.le_of_lt (hlow a ha))
        hhigh)
      have hcomm := commuting_low h hc hk hmlt hcs (fun j x hj => ih j hj x (by omega)) hlow
        fun a ha => hperm.mem_iff.mp (List.mem_append_left high ha)
      obtain ⟨more, hmore⟩ := low_holds hk hy hlow hhigh hperm
      rw [content_append, content, flatten_perm hcomm hmore, flatten_split hx, List.flatten_append,
        List.flatten_cons, List.append_assoc, List.append_assoc] at hmake
      have hxy := List.append_inj_left (List.append_cancel_left hmake)
        (hys.trans (hsize hk hx).symm)
      rw [← hxy, hyc]

omit h hc in
theorem eq_first_mid_last {c w : List α} (hm : 0 < m) (hzero : cs[0]? = some c)
    (hw : cs[m]? = some w) (hlast : m + 1 = cs.length) :
    ∃ mid, cs = c :: (mid ++ [w]) ∧ m = mid.length + 1 := by
  cases cs with
  | nil => cases hzero
  | cons c' tl =>
    cases hzero
    rcases List.eq_nil_or_concat' tl with rfl | ⟨mid, w', rfl⟩
    · simp at hlast
      omega
    · rw [List.length_cons, List.length_append, List.length_singleton] at hlast
      obtain rfl : m = mid.length + 1 := by omega
      rw [List.getElem?_cons_succ, List.getElem?_concat_length] at hw
      rw [Option.some.inj hw]
      exact ⟨mid, rfl, rfl⟩

omit h hc in
/-- The last piece, of number 0 again, can stand behind the first as well as at the end. -/
theorem last_commutes {c w : List α} {mid : List (List α)}
    (h : OrderMakes (mid.length + 1) (c :: (mid ++ [w]))) :
    w ++ mid.flatten = mid.flatten ++ w := by
  have hmake : content ((0, c) :: (0, w) :: mid.mapIdx fun k x => ((k + 1) % (mid.length + 1), x)) =
      (c :: (mid ++ [w])).flatten := by
    apply h
    · rw [tagged, List.mapIdx_cons, List.mapIdx_append, Nat.zero_mod, List.mapIdx_singleton,
        Nat.zero_add, Nat.mod_self]
      exact List.Perm.cons _ (List.perm_append_singleton _ _).symm
    · refine List.pairwise_cons.mpr ⟨fun a _ => Nat.zero_le _, List.pairwise_cons.mpr
        ⟨fun a _ => Nat.zero_le _, List.pairwise_iff_getElem.mpr fun i j hi hj hij => ?_⟩⟩
      rw [List.length_mapIdx] at hi hj
      simp only [List.getElem_mapIdx, Nat.mod_eq_of_lt (Nat.succ_lt_succ hi),
        Nat.mod_eq_of_lt (Nat.succ_lt_succ hj)]
      omega
  rw [content, List.map_cons, List.map_cons, map_numbered (fun k => (k + 1) % (mid.length + 1)),
    List.flatten_cons, List.flatten_cons, List.flatten_cons, List.flatten_append,
    List.flatten_singleton] at hmake
  exact List.append_cancel_left hmake

/-- So they are where it is the last one: it commutes with all that are between. -/
theorem first_same_of_last {c w : List α} (hm : 0 < m) (hzero : cs[0]? = some c)
    (hw : cs[m]? = some w) (hlast : m + 1 = cs.length) :
    ∀ k x, k < m → cs[k]? = some x → x = c := by
  have hcw : w ++ c = c ++ w := same_number_commute h
    (mem_tagged.mpr ⟨m, hw, Nat.mod_self m⟩) (mem_tagged.mpr ⟨0, hzero, Nat.zero_mod m⟩)
  have hwne : w ≠ [] :=
    List.ne_nil_of_length_pos (hc.bounds w (List.mem_of_getElem? hw)).1
  obtain ⟨mid, rfl, rfl⟩ := eq_first_mid_last hm hzero hw hlast
  have hlen : ∀ x ∈ mid, x.length = c.length := by
    intro x hx
    obtain ⟨k, hk⟩ := List.mem_iff_getElem?.mp hx
    obtain ⟨hlt, -⟩ := List.getElem?_eq_some_iff.mp hk
    rw [hc.full 0 c hzero (by simp), hc.full (k + 1) x ?_ (by simp; omega)]
    rw [List.getElem?_cons_succ, List.getElem?_append_left hlt, hk]
  have hall := all_eq_of_commute hwne hcw hlen (last_commutes h)
  intro k x hk hx
  cases k with
  | zero => exact (Option.some.inj hx).symm
  | succ k =>
    rw [List.getElem?_cons_succ, List.getElem?_append_left (Nat.lt_of_succ_lt_succ hk)] at hx
    exact hall x (List.mem_of_getElem? hx)

theorem commuting_of_orderMakes (hm : 0 < m) (hmany : m < cs.length) : Commuting cs := by
  obtain ⟨c, hzero⟩ : ∃ c, cs[0]? = some c := ⟨_, List.getElem?_eq_getElem (by omega)⟩
  obtain ⟨y, hy⟩ : ∃ y, cs[m]? = some y := ⟨_, List.getElem?_eq_getElem hmany⟩
  have hfirst : ∀ k x, k < m → cs[k]? = some x → x = c := by
    by_cases hys : y.length = size
    · exact first_same_of_full h hc hm hzero hy hys
    · exact first_same_of_last h hc hm hzero hy (hc.last hy hys)
  refine commuting_of_full (hc.full 0 c hzero (by omega)) (fun x hx => ?_)
    fun x hx y hy => hc.short_eq hx hy
  obtain ⟨i, hi⟩ := List.mem_iff_getElem?.mp hx
  have hlt := Nat.mod_lt i hm
  obtain ⟨z, hz⟩ : ∃ z, cs[i % m]? = some z := ⟨_, List.getElem?_eq_getElem (by omega)⟩
  obtain rfl := hfirst (i % m) z hlt hz
  exact same_number_commute h (mem_tagged.mpr ⟨i, hi, rfl⟩)
    (mem_tagged.mpr ⟨i % m, hz, Nat.mod_mod i m⟩)

end

/-- Put in the order of their numbers the pieces make the list exactly if there are no more than
numbers, or the order of the pieces makes no difference. -/
theorem ordered_iff {size m : Nat} {cs : List (List α)} (hc : IsPieces size cs) (hm : 0 < m) :
    OrderMakes m cs ↔ cs.length ≤ m ∨ Commuting cs := by
  constructor
  · intro h
    by_cases hfew : cs.length ≤ m
    · exact Or.inl hfew
    · exact Or.inr (commuting_of_orderMakes h hc hm (Nat.not_le.mp hfew))
  · rintro (hfew | hcomm)
    · exact orderMakes_of_few hfew
    · exact orderMakes_of_commuting hcomm

/-- Pieces that the order of their numbers puts together are determined by what arrives. -/
theorem sameNumberSame_of_ordered {size m : Nat} {cs : List (List α)}
    (h : cs.length ≤ m ∨ Commuting cs) : SameNumberSame size m cs := by
  intro i j x y hmod hx hy hxs hys
  rcases h with hfew | hcomm
  · obtain ⟨hi, -⟩ := List.getElem?_eq_some_iff.mp hx
    obtain ⟨hj, -⟩ := List.getElem?_eq_some_iff.mp hy
    rw [Nat.mod_eq_of_lt (by omega), Nat.mod_eq_of_lt (by omega)] at hmod
    rw [hmod, hy] at hx
    exact (Option.some.inj hx).symm
  · exact eq_of_commute (hcomm x (List.mem_of_getElem? hx) y (List.mem_of_getElem? hy))
      (hxs.trans hys.symm)

end Reassembly
