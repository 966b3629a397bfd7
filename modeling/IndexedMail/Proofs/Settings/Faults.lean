import IndexedMail.Proofs.Settings.Accepted

/-!
# The first faulty server

A list of servers is refused exactly if one of them is unsound or has the name of an earlier one,
and the refusal points at the first server of which that is so.
-/

namespace IndexedMail.Settings

namespace Server

/-- The server at an index is unsound, or one before it has its name. -/
def FaultyAt (servers : List Server) (i : Nat) : Prop :=
  ∃ s, servers[i]? = some s ∧ (¬ s.Sound ∨ s.name ∈ (servers.take i).map name)

/-! ## Where the search for a fault stops -/

/-- The servers in front of the first faulty one would pass on their own. -/
theorem exists_of_firstFault?_eq_some {before : List String} {index i : Nat}
    {servers : List Server} {fault : Fault}
    (h : firstFault? before index servers = some (i, fault)) :
    ∃ earlier s later, servers = earlier ++ s :: later ∧ i = index + earlier.length ∧
      firstFault? before index earlier = none ∧
      fault? ((earlier.map name).reverse ++ before) s = some fault := by
  induction servers generalizing before index with
  | nil => cases h
  | cons s rest ih =>
      rw [firstFault?] at h
      cases hfault : fault? before s with
      | some found =>
          simp only [hfault, Option.some.injEq, Prod.mk.injEq] at h
          obtain ⟨rfl, rfl⟩ := h
          exact ⟨[], s, rest, rfl, rfl, rfl, hfault⟩
      | none =>
          simp only [hfault] at h
          obtain ⟨earlier, t, later, rfl, rfl, hnone, ht⟩ := ih h
          refine ⟨s :: earlier, t, later, rfl, ?_, ?_, ?_⟩
          · rw [List.length_cons]
            omega
          · simpa only [firstFault?, hfault] using hnone
          · simpa using ht

/-! ## Faulty indices -/

variable {earlier : List Server}

theorem faultyAt_length_iff {s : Server} {later : List Server} :
    FaultyAt (earlier ++ s :: later) earlier.length ↔
      ¬ (s.name ∉ earlier.map name ∧ s.Sound) := by
  have hat : (earlier ++ s :: later)[earlier.length]? = some s := by simp
  have htake : (earlier ++ s :: later).take earlier.length = earlier := by simp
  rw [FaultyAt, hat, htake, not_and_or, not_not, or_comm]
  simp

theorem name_not_mem_take (hnodup : (earlier.map name).Nodup) {j : Nat} {s : Server}
    (hs : earlier[j]? = some s) : s.name ∉ (earlier.take j).map name := by
  obtain ⟨hj, rfl⟩ := List.getElem?_eq_some_iff.1 hs
  rw [← List.take_append_drop j earlier, List.map_append, List.nodup_append,
    List.drop_eq_getElem_cons hj] at hnodup
  exact fun hmem => hnodup.2.2 _ hmem _ List.mem_cons_self rfl

theorem not_faultyAt_of_lt (hnodup : (earlier.map name).Nodup) (hsound : ∀ s ∈ earlier, s.Sound)
    (more : List Server) {j : Nat} (hj : j < earlier.length) :
    ¬ FaultyAt (earlier ++ more) j := by
  rintro ⟨s, hs, hfault⟩
  rw [List.getElem?_append_left hj] at hs
  rw [List.take_append_of_le_length (Nat.le_of_lt hj)] at hfault
  rcases hfault with hunsound | hname
  · exact hunsound (hsound s (List.mem_of_getElem? hs))
  · exact name_not_mem_take hnodup hs hname

theorem firstFault?_least {servers : List Server} {i : Nat} {fault : Fault}
    (h : firstFault? [] 0 servers = some (i, fault)) :
    FaultyAt servers i ∧ ∀ j < i, ¬ FaultyAt servers j := by
  obtain ⟨earlier, s, later, rfl, rfl, hnone, hs⟩ := exists_of_firstFault?_eq_some h
  obtain ⟨hnodup, -, hsound⟩ := firstFault?_eq_none_iff.1 hnone
  rw [Nat.zero_add]
  refine ⟨faultyAt_length_iff.2 ?_, fun j hj => not_faultyAt_of_lt hnodup hsound _ hj⟩
  have hfaulty : ¬ fault? ((earlier.map name).reverse ++ []) s = none := by
    rw [hs]
    exact Option.some_ne_none fault
  simpa [fault?_eq_none_iff] using hfaulty

end Server

/-! ## The refusal -/

theorem checkServers_eq_error {servers : List Server} {e : Error}
    (h : checkServers servers = .error e) :
    servers = [] ∧ e = .noServers ∨
      ∃ i fault, Server.firstFault? [] 0 servers = some (i, fault) ∧ e = .server i fault := by
  unfold checkServers at h
  split at h
  · rename_i hempty
    cases h
    exact .inl ⟨List.isEmpty_iff.1 hempty, rfl⟩
  · split at h
    · rename_i i fault hfault
      cases h
      exact .inr ⟨i, fault, hfault, rfl⟩
    · cases h

/--
A list of servers passes exactly if there is one in it, all are sound, and no two have one name.

Any other list is refused for a value, and if there are servers in it, the message begins with the
path of the first one that is unsound or has the name of an earlier one.
-/
theorem checkServers_first_fault (servers : List Server) :
    (checkServers servers = .ok () ↔
      servers ≠ [] ∧ (servers.map Server.name).Nodup ∧ ∀ s ∈ servers, s.Sound) ∧
    (∀ e, checkServers servers = .error e → e.refusal = .value ∧
      (servers ≠ [] → ∃ i, Server.FaultyAt servers i ∧ (∀ j < i, ¬ Server.FaultyAt servers j) ∧
        ∃ rest, e.message = "servers[" ++ toString i ++ "]" ++ rest)) := by
  refine ⟨checkServers_eq_ok_iff, fun e he => ?_⟩
  rcases checkServers_eq_error he with ⟨hempty, rfl⟩ | ⟨i, fault, hfault, rfl⟩
  · exact ⟨rfl, fun hne => absurd hempty hne⟩
  · obtain ⟨hfaulty, hleast⟩ := Server.firstFault?_least hfault
    exact ⟨rfl, fun _ => ⟨i, hfaulty, hleast, fault.description, rfl⟩⟩

/-- Of three servers two are faulty, and the first of these is pointed at. -/
theorem checkServers_first_fault_two :
    let servers := [Engine.plainServer "a", { Engine.plainServer "b" with maxResults := 0 },
      Engine.plainServer "a"]
    let e : Error := .server 1 .zeroLimit
    checkServers servers = .error e ∧
    e.message = "servers[1].max_results must be negative (unlimited) or positive" ∧
    ∃ i, Server.FaultyAt servers i ∧ (∀ j < i, ¬ Server.FaultyAt servers j) ∧
      ∃ rest, e.message = "servers[" ++ toString i ++ "]" ++ rest := by
  intro servers e
  have hrefused : checkServers servers = .error e := by decide
  obtain ⟨-, hpoints⟩ := (checkServers_first_fault servers).2 e hrefused
  exact ⟨hrefused, by decide, hpoints (List.cons_ne_nil _ _)⟩

end IndexedMail.Settings
