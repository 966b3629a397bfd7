import IndexedMail.Ranking
import Mathlib.Data.List.Basic
import Mathlib.Data.List.Perm.Basic

/-!
# Stable rankings

What it means that values stand by falling key with ties in the old order, said without a sorting
algorithm.  Such an order is unique, it is kept by selections, and ranking produces it exactly if
every value has a rank.
-/

namespace IndexedMail.Ranking

variable {α ε : Type}

/-- The same values by falling key, those of one key in the order in which they stood. -/
structure StablyRanked (key : α → Int) (values ordered : List α) : Prop where
  falling : ordered.Pairwise fun a b => key b ≤ key a
  ties : ∀ k, ordered.filter (fun a => key a == k) = values.filter (fun a => key a == k)

namespace StablyRanked

variable {key : α → Int} {values ordered other : List α}

theorem mem_iff (h : StablyRanked key values ordered) (a : α) : a ∈ ordered ↔ a ∈ values := by
  have hk := congrArg (a ∈ ·) (h.ties (key a))
  simpa using hk

/-- Falling lists with the same ties are the same list; the induction takes off equal heads. -/
theorem eq_of_ties (ha : ordered.Pairwise fun a b => key b ≤ key a)
    (hb : other.Pairwise fun a b => key b ≤ key a)
    (h : ∀ k, ordered.filter (fun a => key a == k) = other.filter (fun a => key a == k)) :
    ordered = other := by
  have hmem : ∀ a, a ∈ ordered ↔ a ∈ other := by
    intro a
    simpa using congrArg (a ∈ ·) (h (key a))
  induction ordered generalizing other with
  | nil =>
      cases other with
      | nil => rfl
      | cons y ys => exact absurd ((hmem y).2 List.mem_cons_self) List.not_mem_nil
  | cons x xs ih =>
      cases other with
      | nil => exact absurd ((hmem x).1 List.mem_cons_self) List.not_mem_nil
      | cons y ys =>
          have hxy : key x = key y := by
            apply Int.le_antisymm
            · rcases List.mem_cons.1 ((hmem x).1 List.mem_cons_self) with rfl | hx
              · exact Int.le_refl _
              · exact (List.pairwise_cons.1 hb).1 x hx
            · rcases List.mem_cons.1 ((hmem y).2 List.mem_cons_self) with rfl | hy
              · exact Int.le_refl _
              · exact (List.pairwise_cons.1 ha).1 y hy
          have hhead := h (key x)
          simp only [List.filter_cons, hxy, beq_self_eq_true, if_true, List.cons.injEq] at hhead
          obtain ⟨rfl, htail⟩ := hhead
          have htails : ∀ k, xs.filter (fun a => key a == k) = ys.filter (fun a => key a == k) := by
            intro k
            by_cases hk : key x = k
            · subst hk
              exact htail
            · simpa [List.filter_cons, hk] using h k
          have hrest : ∀ a, a ∈ xs ↔ a ∈ ys := by
            intro a
            simpa using congrArg (a ∈ ·) (htails (key a))
          rw [ih (List.pairwise_cons.1 ha).2 (List.pairwise_cons.1 hb).2 htails hrest]

theorem unique (h : StablyRanked key values ordered) (h' : StablyRanked key values other) :
    ordered = other :=
  eq_of_ties h.falling h'.falling fun k => (h.ties k).trans (h'.ties k).symm

theorem of_falling (h : values.Pairwise fun a b => key b ≤ key a) :
    StablyRanked key values values :=
  ⟨h, fun _ => rfl⟩

/-- A selection of ranked values is the ranking of the selection. -/
theorem filter (h : StablyRanked key values ordered) (p : α → Bool) :
    StablyRanked key (values.filter p) (ordered.filter p) := by
  refine ⟨h.falling.filter p, ?_⟩
  intro k
  rw [List.filter_comm, h.ties k, List.filter_comm]

/-- Only the keys of the values themselves count. -/
theorem congr_key {key' : α → Int} (hkeys : ∀ a ∈ values, key a = key' a)
    (h : StablyRanked key values ordered) : StablyRanked key' values ordered := by
  have hordered : ∀ a ∈ ordered, key a = key' a := fun a ha => hkeys a ((h.mem_iff a).1 ha)
  refine ⟨?_, ?_⟩
  · refine h.falling.imp_of_mem ?_
    intro a b ha hb hab
    rwa [← hordered a ha, ← hordered b hb]
  · intro k
    have hleft : ordered.filter (fun a => key a == k) = ordered.filter (fun a => key' a == k) :=
      List.filter_congr fun a ha => by rw [hordered a ha]
    have hright : values.filter (fun a => key a == k) = values.filter (fun a => key' a == k) :=
      List.filter_congr fun a ha => by rw [hkeys a ha]
    rw [← hleft, ← hright, h.ties k]

/-- To rank parts that are ranked already is to rank the whole. -/
theorem append_iff {first second first' second' : List α} (h₁ : StablyRanked key first first')
    (h₂ : StablyRanked key second second') :
    StablyRanked key (first' ++ second') ordered ↔ StablyRanked key (first ++ second) ordered := by
  have hties : ∀ k, (first' ++ second').filter (fun a => key a == k) =
      (first ++ second).filter (fun a => key a == k) := by
    intro k
    rw [List.filter_append, List.filter_append, h₁.ties k, h₂.ties k]
  constructor
  · intro h
    exact ⟨h.falling, fun k => (h.ties k).trans (hties k)⟩
  · intro h
    exact ⟨h.falling, fun k => (h.ties k).trans (hties k).symm⟩

end StablyRanked

/-- The merge sort by falling key is stable. -/
theorem stablyRanked_mergeSort (key : α → Int) (values : List α) :
    StablyRanked key values (values.mergeSort fun a b => decide (key b ≤ key a)) := by
  have htrans : ∀ a b c : α, decide (key b ≤ key a) = true → decide (key c ≤ key b) = true →
      decide (key c ≤ key a) = true := by
    intro a b c
    simp only [decide_eq_true_eq]
    omega
  have htotal : ∀ a b : α, (decide (key b ≤ key a) || decide (key a ≤ key b)) = true := by
    intro a b
    simp only [Bool.or_eq_true, decide_eq_true_eq]
    omega
  refine ⟨?_, ?_⟩
  · simpa using List.pairwise_mergeSort htrans htotal values
  · intro k
    have hpair : (values.filter fun a => key a == k).Pairwise
        fun a b => decide (key b ≤ key a) = true := by
      rw [List.pairwise_filter]
      refine List.pairwise_of_forall ?_
      intro a b ha hb
      simp only [beq_iff_eq, decide_eq_true_eq] at ha hb ⊢
      omega
    have hsub := (List.sublist_mergeSort htrans htotal hpair List.filter_sublist).filter
      fun a => key a == k
    rw [List.filter_filter] at hsub
    simp only [Bool.and_self] at hsub
    refine (hsub.eq_of_length ?_).symm
    exact ((List.mergeSort_perm values _).filter _).length_eq.symm

/-- The rank of a value; nought for a value without one. -/
def keyOf (rank : α → Except ε Int) (a : α) : Int :=
  match rank a with
  | .ok k => k
  | .error _ => 0

theorem keyOf_of_ok {rank : α → Except ε Int} {a : α} {k : Int} (h : rank a = .ok k) :
    keyOf rank a = k := by
  simp [keyOf, h]

theorem sort_nil (rank : α → Except ε Int) : sort rank [] = .ok [] := by
  simp [sort, ranked, Except.map]

theorem ranked_of_forall {rank : α → Except ε Int} {values : List α}
    (h : ∀ a ∈ values, ∃ k, rank a = .ok k) :
    ranked rank values = .ok (values.map fun a => (keyOf rank a, a)) := by
  induction values with
  | nil => rfl
  | cons a rest ih =>
      obtain ⟨k, hk⟩ := h a List.mem_cons_self
      have hrest := ih fun b hb => h b (List.mem_cons_of_mem _ hb)
      simp [ranked, hk, hrest, keyOf_of_ok hk, Except.map]

theorem exists_rank_of_ranked {rank : α → Except ε Int} {values : List α}
    {pairs : List (Int × α)} (h : ranked rank values = .ok pairs) :
    ∀ a ∈ values, ∃ k, rank a = .ok k := by
  induction values generalizing pairs with
  | nil => simp
  | cons a rest ih =>
      unfold ranked at h
      cases ha : rank a with
      | error e => simp [ha] at h
      | ok k =>
          cases hr : ranked rank rest with
          | error e => simp [ha, hr, Except.map] at h
          | ok tail =>
              intro b hb
              rcases List.mem_cons.1 hb with rfl | hb
              · exact ⟨k, ha⟩
              · exact ih hr b hb

theorem sort_of_forall {rank : α → Except ε Int} {values : List α}
    (h : ∀ a ∈ values, ∃ k, rank a = .ok k) :
    ∃ ordered, sort rank values = .ok ordered ∧ StablyRanked (keyOf rank) values ordered := by
  have hmap := List.map_mergeSort (f := fun a => (keyOf rank a, a))
    (r := fun a b => decide (keyOf rank b ≤ keyOf rank a))
    (s := fun a b => decide (b.1 ≤ a.1)) (l := values) (fun a _ b _ => rfl)
  refine ⟨values.mergeSort fun a b => decide (keyOf rank b ≤ keyOf rank a), ?_,
    stablyRanked_mergeSort _ _⟩
  simp [sort, ranked_of_forall h, Except.map, ← hmap, Function.comp_def]

/-- Ranking answers exactly if every value has a rank, and answers with the stable order. -/
theorem sort_eq_ok_iff {rank : α → Except ε Int} {values ordered : List α} :
    sort rank values = .ok ordered ↔
      (∀ a ∈ values, ∃ k, rank a = .ok k) ∧ StablyRanked (keyOf rank) values ordered := by
  constructor
  · intro h
    have hranks : ∀ a ∈ values, ∃ k, rank a = .ok k := by
      cases hr : ranked rank values with
      | error e => simp [sort, hr, Except.map] at h
      | ok pairs => exact exists_rank_of_ranked hr
    obtain ⟨expected, hs, hstable⟩ := sort_of_forall hranks
    have heq : expected = ordered := by simpa [hs] using h
    exact ⟨hranks, heq ▸ hstable⟩
  · rintro ⟨hranks, hstable⟩
    obtain ⟨expected, hs, hstable'⟩ := sort_of_forall hranks
    rw [hs, hstable'.unique hstable]

theorem sort_eq_ok_iff_of_forall {rank : α → Except ε Int} {key : α → Int}
    {values ordered : List α} (h : ∀ a ∈ values, rank a = .ok (key a)) :
    sort rank values = .ok ordered ↔ StablyRanked key values ordered := by
  have hkeys : ∀ a ∈ values, keyOf rank a = key a := fun a ha => keyOf_of_ok (h a ha)
  rw [sort_eq_ok_iff]
  constructor
  · rintro ⟨-, hstable⟩
    exact hstable.congr_key hkeys
  · intro hstable
    exact ⟨fun a ha => ⟨key a, h a ha⟩, hstable.congr_key fun a ha => (hkeys a ha).symm⟩

/-- Ranking fails only with a failure to rank one of the values. -/
theorem exists_of_sort_eq_error {rank : α → Except ε Int} {values : List α} {e : ε}
    (h : sort rank values = .error e) : ∃ a ∈ values, rank a = .error e := by
  have hranked : ranked rank values = .error e := by
    cases hr : ranked rank values with
    | error err => simpa [sort, hr, Except.map] using h
    | ok pairs => simp [sort, hr, Except.map] at h
  clear h
  induction values with
  | nil => cases hranked
  | cons a rest ih =>
      unfold ranked at hranked
      cases ha : rank a with
      | error err =>
          simp only [ha, Except.error.injEq] at hranked
          exact ⟨a, List.mem_cons_self, hranked ▸ ha⟩
      | ok k =>
          cases hr : ranked rank rest with
          | error err =>
              simp only [ha, hr, Except.map, Except.error.injEq] at hranked
              obtain ⟨b, hb, hfails⟩ := ih (hranked ▸ hr)
              exact ⟨b, List.mem_cons_of_mem _ hb, hfails⟩
          | ok tail => simp [ha, hr, Except.map] at hranked

end IndexedMail.Ranking
