import Mathlib.Data.List.Nodup

/-!
# Looking up by keys

What is found under keys that are asked for in a list, and lists of keys with each key once.
-/

namespace IndexedMail.Lookup

variable {α β : Type}

theorem nodup_eraseDups [BEq β] [LawfulBEq β] : ∀ keys : List β, keys.eraseDups.Nodup
  | [] => List.nodup_nil
  | key :: rest => by
      have hshorter := List.length_filter_le (fun other => !other == key) rest
      have hothers := nodup_eraseDups (rest.filter fun other => !other == key)
      rw [List.eraseDups_cons, List.nodup_cons]
      exact ⟨by simp, hothers⟩
termination_by keys => keys.length
decreasing_by
  rw [List.length_cons]
  omega

theorem eraseDups_of_nodup [BEq β] [LawfulBEq β] {keys : List β} (h : keys.Nodup) :
    keys.eraseDups = keys := by
  induction keys with
  | nil => rfl
  | cons key rest ih =>
      obtain ⟨hkey, hrest⟩ := List.nodup_cons.1 h
      have hothers : rest.filter (fun other => !other == key) = rest := by
        rw [List.filter_eq_self]
        intro other hother
        have hne : other ≠ key := fun heq => hkey (heq ▸ hother)
        simpa using hne
      rw [List.eraseDups_cons, hothers, ih hrest]

theorem eraseDups_ne_nil [BEq β] [LawfulBEq β] {keys : List β} (h : keys ≠ []) :
    keys.eraseDups ≠ [] := by
  cases keys with
  | nil => exact absurd rfl h
  | cons key rest => simp [List.eraseDups_cons]

/-- Keys under each of which something is found give as many values, in their order. -/
theorem map_filterMap_of_found {find? : β → Option α} {key : α → β}
    (hkey : ∀ {b a}, find? b = some a → key a = b) {keys : List β}
    (h : ∀ b ∈ keys, (find? b).isSome) : (keys.filterMap find?).map key = keys := by
  induction keys with
  | nil => rfl
  | cons b rest ih =>
      obtain ⟨a, ha⟩ := Option.isSome_iff_exists.1 (h b List.mem_cons_self)
      rw [List.filterMap_cons_some ha, List.map_cons, hkey ha,
        ih fun c hc => h c (List.mem_cons_of_mem _ hc)]

/-- Values with different keys are told by their keys, also in a list. -/
theorem eq_of_map_eq {key : α → β} {values first second : List α} (h : (values.map key).Nodup)
    (hfirst : first ⊆ values) (hsecond : second ⊆ values)
    (heq : first.map key = second.map key) : first = second := by
  induction first generalizing second with
  | nil =>
      rw [List.map_nil, eq_comm, List.map_eq_nil_iff] at heq
      exact heq.symm
  | cons a rest ih =>
      cases second with
      | nil => simp at heq
      | cons b others =>
          rw [List.map_cons, List.map_cons, List.cons.injEq] at heq
          rw [List.cons_subset] at hfirst hsecond
          obtain rfl := List.inj_on_of_nodup_map h hfirst.1 hsecond.1 heq.1
          rw [ih hfirst.2 hsecond.2 heq.2]

end IndexedMail.Lookup
