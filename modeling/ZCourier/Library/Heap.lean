import Mathlib.Order.Lattice
import Mathlib.Data.List.Perm.Basic

/-!
# Binary heaps

The heap of `container/heap`: an array in which no element comes before its parent. Elements are
compared by a key. `push_perm` and `pop_spec` say which elements a heap holds, `IsHeap.push` and
`IsHeap.pop` that the order is kept, and `IsHeap.head_le` that the first element has the least key.
-/

namespace ZCourier.Library.Heap

variable {α κ : Type} [LinearOrder κ] (key : α → κ)

/-- `Less`: the element at one position has a smaller key than the one at another. -/
def less (a : Array α) (i j : Nat) : Bool :=
  match a[i]?, a[j]? with
  | some x, some y => key x < key y
  | _, _ => false

/-- The parent of a position; the root is its own. -/
def parent (j : Nat) : Nat := (j - 1) / 2

/-- `up`: exchange an element with its parent while it is smaller. -/
def up : Nat → Array α → Nat → Array α
  | 0, a, _ => a
  | fuel + 1, a, j =>
    if parent j = j || !less key a j (parent j) then a
    else up fuel (a.swapIfInBounds (parent j) j) (parent j)

/-- The smaller child of a position among the first `n`. -/
def smallerChild (a : Array α) (n i : Nat) : Nat :=
  if 2 * i + 2 < n && less key a (2 * i + 2) (2 * i + 1) then 2 * i + 2 else 2 * i + 1

/-- `down`: exchange an element with its smaller child while that one is smaller. -/
def down (n : Nat) : Nat → Array α → Nat → Array α
  | 0, a, _ => a
  | fuel + 1, a, i =>
    if n ≤ 2 * i + 1 || !less key a (smallerChild key a n i) i then a
    else down n fuel (a.swapIfInBounds i (smallerChild key a n i)) (smallerChild key a n i)

/-- `heap.Push`. -/
def push (a : Array α) (x : α) : Array α :=
  up key a.size (a.push x) a.size

/-- `heap.Pop`, which is not called on an empty heap. -/
def pop (a : Array α) : Option (α × Array α) :=
  let n := a.size - 1
  let b := down key n n (a.swapIfInBounds 0 n) 0
  b.back?.map fun x => (x, b.pop)

/-! ## Exchanging two elements -/

/-- Where the element at a position comes from when two are exchanged. -/
def transpose (i j k : Nat) : Nat :=
  if k = i then j else if k = j then i else k

theorem transpose_left (i j : Nat) : transpose i j i = j := if_pos rfl

theorem transpose_right (i j : Nat) : transpose i j j = i := by
  rw [transpose]
  split
  · next h => exact h
  · exact if_pos rfl

theorem transpose_other {i j k : Nat} (hi : k ≠ i) (hj : k ≠ j) : transpose i j k = k := by
  rw [transpose, if_neg hi, if_neg hj]

variable {a : Array α}

theorem getElem?_exchange {i j : Nat} (hi : i < a.size) (hj : j < a.size) (k : Nat) :
    (a.swapIfInBounds i j)[k]? = a[transpose i j k]? := by
  rw [Array.swapIfInBounds_def, dif_pos hi, dif_pos hj, Array.getElem?_swap, transpose]
  by_cases hkj : k = j
  · subst hkj
    by_cases hki : k = i
    · subst hki
      simp [hi]
    · simp [hki, hi]
  · by_cases hki : k = i
    · subst hki
      simp [Ne.symm hkj, hj]
    · simp [Ne.symm hkj, Ne.symm hki, hkj, hki]

theorem exchange_perm (a : Array α) (i j : Nat) :
    (a.swapIfInBounds i j).toList.Perm a.toList := by
  rw [Array.swapIfInBounds_def]
  split
  · split
    · exact Array.perm_iff_toList_perm.mp (Array.swap_perm _ _)
    · exact .refl _
  · exact .refl _

/-! ## Which elements a heap holds -/

theorem up_perm (fuel : Nat) (a : Array α) (j : Nat) : (up key fuel a j).toList.Perm a.toList := by
  induction fuel generalizing a j with
  | zero => exact .refl _
  | succ fuel ih =>
    rw [up]
    split
    · exact .refl _
    · exact (ih _ _).trans (exchange_perm a _ _)

theorem down_perm (n fuel : Nat) (a : Array α) (i : Nat) :
    (down key n fuel a i).toList.Perm a.toList := by
  induction fuel generalizing a i with
  | zero => exact .refl _
  | succ fuel ih =>
    rw [down]
    split
    · exact .refl _
    · exact (ih _ _).trans (exchange_perm a _ _)

theorem push_perm (a : Array α) (x : α) : (push key a x).toList.Perm (x :: a.toList) := by
  refine (up_perm key _ _ _).trans ?_
  rw [Array.toList_push]
  exact List.perm_append_singleton x a.toList

theorem size_eq_of_perm {a b : Array α} (h : a.toList.Perm b.toList) : a.size = b.size := by
  rw [← Array.length_toList, ← Array.length_toList]
  exact h.length_eq

theorem smallerChild_lt (a : Array α) {n i : Nat} (h : 2 * i + 1 < n) :
    i < smallerChild key a n i ∧ smallerChild key a n i < n := by
  rw [smallerChild]
  split
  · next hcond =>
    rw [Bool.and_eq_true, decide_eq_true_eq] at hcond
    omega
  · omega

/-- `down` leaves the elements from its bound on alone. -/
theorem down_getElem? {n fuel : Nat} {i k : Nat} (hn : n ≤ a.size) (hk : n ≤ k) (hi : i ≤ k) :
    (down key n fuel a i)[k]? = a[k]? := by
  induction fuel generalizing a i with
  | zero => rfl
  | succ fuel ih =>
    rw [down]
    split
    · rfl
    · next hcond =>
      rw [Bool.or_eq_true, not_or, decide_eq_true_eq] at hcond
      obtain ⟨hlt, hchild⟩ := smallerChild_lt key a (Nat.lt_of_not_le hcond.1)
      rw [ih (by rwa [Array.size_swapIfInBounds]) (by omega),
        getElem?_exchange (by omega) (by omega), transpose_other (by omega) (by omega)]

theorem pop_spec {x : α} (h : a[0]? = some x) :
    ∃ rest, pop key a = some (x, rest) ∧ a.toList.Perm (x :: rest.toList) := by
  obtain ⟨hpos, -⟩ := Array.getElem?_eq_some_iff.mp h
  rw [pop]
  generalize hb : down key (a.size - 1) (a.size - 1) (a.swapIfInBounds 0 (a.size - 1)) 0 = b
  have hperm : b.toList.Perm a.toList := hb ▸ (down_perm key _ _ _ _).trans (exchange_perm a _ _)
  have hsize : b.size = a.size := size_eq_of_perm hperm
  have hlast : b.back? = some x := by
    rw [Array.back?_eq_getElem?, hsize, ← hb,
      down_getElem? key (by rw [Array.size_swapIfInBounds]; omega) (Nat.le_refl _) (Nat.zero_le _),
      getElem?_exchange hpos (by omega), transpose_right, h]
  refine ⟨b.pop, by rw [hlast]; rfl, hperm.symm.trans ?_⟩
  have hne : b.toList ≠ [] := by
    intro hnil
    rw [← Array.length_toList, hnil] at hsize
    simp at hsize
    omega
  have hget : b.toList.getLast hne = x := by
    rw [Array.back?_eq_getElem?, ← Array.getElem?_toList, ← Array.length_toList,
      ← List.getLast?_eq_getElem?, List.getLast?_eq_some_getLast hne] at hlast
    exact Option.some.inj hlast
  rw [Array.toList_pop]
  conv_lhs => rw [← List.dropLast_concat_getLast hne, hget]
  exact List.perm_append_singleton x _

/-! ## The order of a heap -/

/-- The keys at two positions are in order. -/
def Le (a : Array α) (i j : Nat) : Prop :=
  ∀ x y, a[i]? = some x → a[j]? = some y → key x ≤ key y

/-- No element among the first `n` comes before its parent. -/
def OrderedTo (a : Array α) (n : Nat) : Prop :=
  ∀ c, 0 < c → c < n → Le key a (parent c) c

def IsHeap (a : Array α) : Prop := OrderedTo key a a.size

variable {key}

theorem Le.trans {i j k : Nat} (hj : j < a.size) (hij : Le key a i j) (hjk : Le key a j k) :
    Le key a i k :=
  fun x z hx hz => le_trans (hij x a[j] hx (Array.getElem?_eq_getElem hj))
    (hjk a[j] z (Array.getElem?_eq_getElem hj) hz)

theorem le_of_less {i j : Nat} (h : less key a i j = true) : Le key a i j := by
  intro x y hx hy
  rw [less, hx, hy] at h
  exact le_of_lt (of_decide_eq_true h)

theorem le_of_not_less {i j : Nat} (h : ¬ less key a i j = true) : Le key a j i := by
  intro x y hx hy
  rw [less, hx, hy, decide_eq_true_eq, not_lt] at h
  exact h

theorem le_exchange {i j : Nat} (hi : i < a.size) (hj : j < a.size) {p q : Nat} :
    Le key (a.swapIfInBounds i j) p q ↔ Le key a (transpose i j p) (transpose i j q) := by
  rw [Le, Le, getElem?_exchange hi hj, getElem?_exchange hi hj]

theorem parent_lt {c : Nat} (h : 0 < c) : parent c < c := by
  rw [parent]
  omega

theorem OrderedTo.root_le {n : Nat} (h : OrderedTo key a n) (hn : n ≤ a.size) {i : Nat}
    (hi : i < n) : Le key a 0 i := by
  induction i using Nat.strongRecOn with
  | ind i ih =>
    by_cases hzero : i = 0
    · subst hzero
      intro x y hx hy
      rw [Option.some.inj (hx.symm.trans hy)]
    · have hparent := parent_lt (Nat.pos_of_ne_zero hzero)
      exact (ih (parent i) hparent (by omega)).trans (by omega)
        (h i (Nat.pos_of_ne_zero hzero) hi)

theorem IsHeap.head_le (h : IsHeap key a) {x y : α} (hx : a[0]? = some x) (hy : y ∈ a.toList) :
    key x ≤ key y := by
  obtain ⟨i, hi, rfl⟩ := List.mem_iff_getElem.mp hy
  rw [Array.length_toList] at hi
  exact h.root_le (Nat.le_refl _) hi x _ hx (by rw [Array.getElem?_eq_getElem hi]; rfl)

/-! ### Moving up -/

/-- All are in order but an element and its parent, and its children are in order with its parent.
-/
structure UpOrder (key : α → κ) (a : Array α) (j : Nat) : Prop where
  inside : j < a.size
  except : ∀ c, 0 < c → c < a.size → c ≠ j → Le key a (parent c) c
  grand : ∀ c, 0 < c → c < a.size → parent c = j → 0 < j → Le key a (parent j) c

theorem UpOrder.exchange {j : Nat} (h : UpOrder key a j) (hj : 0 < j)
    (hless : less key a j (parent j) = true) :
    UpOrder key (a.swapIfInBounds (parent j) j) (parent j) := by
  have hparent := parent_lt hj
  have hinside := h.inside
  have hup : Le key a j (parent j) := le_of_less hless
  have hi : parent j < a.size := by omega
  refine ⟨by rwa [Array.size_swapIfInBounds], ?_, ?_⟩
  · intro c hc hsize hne
    rw [Array.size_swapIfInBounds] at hsize
    have hless' := parent_lt hc
    rw [le_exchange hi hinside]
    by_cases hcj : c = j
    · subst hcj
      rw [transpose_left, transpose_right]
      exact hup
    · rw [transpose_other hne hcj]
      by_cases hpj : parent c = j
      · rw [hpj, transpose_right]
        exact h.grand c hc hsize hpj hj
      · by_cases hpi : parent c = parent j
        · rw [hpi, transpose_left]
          exact hup.trans hi (hpi ▸ h.except c hc hsize hcj)
        · rw [transpose_other hpi hpj]
          exact h.except c hc hsize hcj
  · intro c hc hsize hpc hpos
    rw [Array.size_swapIfInBounds] at hsize
    have hgrand := parent_lt hpos
    have habove := h.except (parent j) hpos hi (by omega)
    rw [le_exchange hi hinside, transpose_other (by omega) (by omega)]
    by_cases hcj : c = j
    · subst hcj
      rw [transpose_right]
      exact habove
    · have hlt := parent_lt hc
      rw [transpose_other (by omega) hcj]
      exact habove.trans hi (hpc ▸ h.except c hc hsize hcj)

theorem UpOrder.isHeap {fuel : Nat} {j : Nat} (h : UpOrder key a j) (hfuel : j ≤ fuel) :
    IsHeap key (up key fuel a j) := by
  induction fuel generalizing a j with
  | zero =>
    intro c hc hsize
    exact h.except c hc hsize (by omega)
  | succ fuel ih =>
    rw [up]
    split
    · next hstop =>
      intro c hc hsize
      by_cases hcj : c = j
      · subst hcj
        rw [Bool.or_eq_true, decide_eq_true_eq, Bool.not_eq_true'] at hstop
        rcases hstop with hroot | hless
        · have hlt := parent_lt hc
          omega
        · exact le_of_not_less (Bool.eq_false_iff.mp hless)
      · exact h.except c hc hsize hcj
    · next hgo =>
      rw [Bool.or_eq_true, not_or, decide_eq_true_eq, Bool.not_eq_true', Bool.not_eq_false] at hgo
      have hpos : 0 < j := by
        rcases Nat.eq_zero_or_pos j with hzero | hpos
        · subst hzero
          exact absurd rfl hgo.1
        · exact hpos
      have hlt := parent_lt hpos
      exact ih (h.exchange hpos hgo.2) (by omega)

theorem IsHeap.push (h : IsHeap key a) (x : α) : IsHeap key (push key a x) := by
  refine UpOrder.isHeap ⟨by rw [Array.size_push]; omega, ?_, ?_⟩ (Nat.le_refl _)
  · intro c hc hsize hne
    rw [Array.size_push] at hsize
    have hlt := parent_lt hc
    have hold := h c hc (by omega)
    rw [Le, Array.getElem?_push, if_neg (by omega), Array.getElem?_push, if_neg hne]
    exact hold
  · intro c hc hsize hparent hpos
    rw [Array.size_push] at hsize
    have hlt := parent_lt hc
    omega

/-! ### Moving down -/

/-- All of the first `n` are in order but an element and its children, and these are in order with
its parent. -/
structure DownOrder (key : α → κ) (a : Array α) (n i : Nat) : Prop where
  bound : n ≤ a.size
  except : ∀ c, 0 < c → c < n → parent c ≠ i → Le key a (parent c) c
  grand : ∀ c, 0 < c → c < n → parent c = i → 0 < i → Le key a (parent i) c

theorem parent_child {c i : Nat} (h : parent c = i) (hc : 0 < c) :
    c = 2 * i + 1 ∨ c = 2 * i + 2 := by
  rw [parent] at h
  omega

theorem smallerChild_le (a : Array α) {n i c : Nat} (hc : 0 < c) (hn : c < n)
    (hparent : parent c = i) : Le key a (smallerChild key a n i) c := by
  have hrefl : ∀ k, Le key a k k := by
    intro k x y hx hy
    rw [Option.some.inj (hx.symm.trans hy)]
  rw [smallerChild]
  rcases parent_child hparent hc with rfl | rfl
  · split
    · next hcond =>
      rw [Bool.and_eq_true] at hcond
      exact le_of_less hcond.2
    · exact hrefl _
  · split
    · exact hrefl _
    · next hcond =>
      rw [Bool.and_eq_true, decide_eq_true_eq, not_and] at hcond
      exact le_of_not_less (hcond hn)

theorem DownOrder.exchange {n i : Nat} (h : DownOrder key a n i) (hchild : 2 * i + 1 < n)
    (hless : less key a (smallerChild key a n i) i = true) :
    DownOrder key (a.swapIfInBounds i (smallerChild key a n i)) n (smallerChild key a n i) := by
  obtain ⟨hlt, hn⟩ := smallerChild_lt key a hchild
  have hparentChild : parent (smallerChild key a n i) = i := by
    rw [smallerChild, parent]
    split <;> omega
  have hsmaller : ∀ c, 0 < c → c < n → parent c = i → Le key a (smallerChild key a n i) c :=
    fun c hc hcn hp => smallerChild_le a hc hcn hp
  generalize smallerChild key a n i = j at *
  have hbound := h.bound
  have hi : i < a.size := by omega
  have hj : j < a.size := by omega
  refine ⟨by rwa [Array.size_swapIfInBounds], ?_, ?_⟩
  · intro c hc hcn hne
    have hclt := parent_lt hc
    rw [le_exchange hi hj]
    by_cases hpi : parent c = i
    · rw [hpi, transpose_left]
      by_cases hcj : c = j
      · rw [hcj, transpose_right]
        exact le_of_less hless
      · rw [transpose_other (by omega) hcj]
        exact hsmaller c hc hcn hpi
    · rw [transpose_other hpi hne]
      have hcj : c ≠ j := by
        rintro rfl
        exact hpi hparentChild
      by_cases hci : c = i
      · rw [hci, transpose_left]
        exact h.grand j (by omega) hn hparentChild (by omega)
      · rw [transpose_other hci hcj]
        exact h.except c hc hcn hpi
  · intro c hc hcn hpc hpos
    have hclt := parent_lt hc
    rw [hparentChild, le_exchange hi hj, transpose_left, transpose_other (by omega) (by omega)]
    exact hpc ▸ h.except c hc hcn (by omega)

theorem DownOrder.orderedTo {fuel : Nat} {n i : Nat} (h : DownOrder key a n i)
    (hfuel : n ≤ fuel + i) : OrderedTo key (down key n fuel a i) n := by
  induction fuel generalizing a i with
  | zero =>
    intro c hc hcn
    have hclt := parent_lt hc
    exact h.except c hc hcn (by omega)
  | succ fuel ih =>
    rw [down]
    split
    · next hstop =>
      intro c hc hcn
      by_cases hpi : parent c = i
      · rw [Bool.or_eq_true, decide_eq_true_eq, Bool.not_eq_true'] at hstop
        rcases hstop with hnone | hless
        · rcases parent_child hpi hc with rfl | rfl <;> omega
        · have hchild : 2 * i + 1 < n := by
            rcases parent_child hpi hc with rfl | rfl <;> omega
          obtain ⟨-, hn⟩ := smallerChild_lt key a hchild
          have hbound := h.bound
          rw [hpi]
          exact (le_of_not_less (Bool.eq_false_iff.mp hless)).trans (by omega)
            (smallerChild_le a hc hcn hpi)
      · exact h.except c hc hcn hpi
    · next hgo =>
      rw [Bool.or_eq_true, not_or, decide_eq_true_eq, Bool.not_eq_true', Bool.not_eq_false] at hgo
      have hchild := Nat.lt_of_not_le hgo.1
      obtain ⟨hlt, -⟩ := smallerChild_lt key a hchild
      exact ih (h.exchange hchild hgo.2) (by omega)

theorem IsHeap.pop {a rest : Array α} {x : α} (h : IsHeap key a)
    (hpop : pop key a = some (x, rest)) :
    IsHeap key rest := by
  rw [Heap.pop] at hpop
  obtain ⟨y, hback, hpair⟩ := Option.map_eq_some_iff.mp hpop
  obtain ⟨-, rfl⟩ := Prod.mk.inj hpair
  have hperm := (down_perm key (a.size - 1) (a.size - 1) (a.swapIfInBounds 0 (a.size - 1)) 0).trans
    (exchange_perm a 0 (a.size - 1))
  have hsize := size_eq_of_perm hperm
  have hpos : 0 < a.size := by
    rw [Array.back?_eq_getElem?] at hback
    obtain ⟨hlt, -⟩ := Array.getElem?_eq_some_iff.mp hback
    omega
  have horder : DownOrder key (a.swapIfInBounds 0 (a.size - 1)) (a.size - 1) 0 := by
    refine ⟨by rw [Array.size_swapIfInBounds]; omega, ?_, ?_⟩
    · intro c hc hcn hne
      have hclt := parent_lt hc
      rw [le_exchange hpos (by omega), transpose_other hne (by omega),
        transpose_other (by omega) (by omega)]
      exact h c hc (by omega)
    · intro c _ _ _ hzero
      omega
  have hordered : OrderedTo key
      (down key (a.size - 1) (a.size - 1) (a.swapIfInBounds 0 (a.size - 1)) 0) (a.size - 1) :=
    horder.orderedTo (Nat.le_refl _)
  intro c hc hcn
  rw [Array.size_pop, hsize] at hcn
  have hclt := parent_lt hc
  rw [Le, Array.getElem?_pop, if_pos (by omega), Array.getElem?_pop, if_pos (by omega)]
  exact hordered c hc hcn

end ZCourier.Library.Heap
