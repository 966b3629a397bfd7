import IndexedMail.Environment
import Mathlib.Data.List.TakeWhile

/-!
# A final slash is kept

Whatever a home directory and variables put into a path, a slash at its end stays there: no
reference reaches over a slash that nothing follows.  So there is nothing to put back after a path
has been expanded, and the expansion that would put a slash back is the plain one.  A path has no
expansion exactly if it asks for what cannot be looked up.
-/

namespace IndexedMail.Lookups

open Text (Point Wide)

/-- The last point of a path is a slash. -/
def EndsInSlash (path : Wide) : Prop :=
  path.getLast? = some (.char '/')

instance : DecidablePred EndsInSlash :=
  fun path => inferInstanceAs (Decidable (path.getLast? = some (.char '/')))

/-- Expand a path, and put a slash back that it ended in before but not after. -/
def expandRestoring (l : Lookups) (path : Wide) : Except LookupError Wide :=
  if path.isEmpty then .ok path
  else
    (l.expand path).map fun expanded =>
      if EndsInSlash path ∧ ¬ EndsInSlash expanded then expanded ++ Text.wide "/" else expanded

/-! ## References -/

theorem reference?_brace (cs : Wide) :
    reference? (.char '\x7b' :: cs) =
      let name := cs.takeWhile (· != .char '\x7d')
      if name.length < cs.length then some (name, name.length + 2) else none := rfl

theorem reference?_of_ne {p : Point} (h : p ≠ .char '\x7b') (cs : Wide) :
    reference? (p :: cs) =
      let name := (p :: cs).takeWhile isNamePoint
      if name.isEmpty then none else some (name, name.length) := by
  unfold reference?
  split
  · rename_i heq
    exact absurd (List.cons.inj heq).1 h
  · rfl

theorem takeWhile_append_slash {p : Point → Bool} (h : p (.char '/') = false) (cs : Wide) :
    (cs ++ [Point.char '/']).takeWhile p = cs.takeWhile p := by
  rw [List.takeWhile_append]
  split
  · rename_i hall
    have hself : cs.takeWhile p = cs := (List.takeWhile_prefix p).eq_of_length hall
    rw [List.takeWhile_cons_of_neg (by simp [h]), List.append_nil, hself]
  · rfl

/-- A slash behind a text neither names a variable nor closes a name. -/
theorem reference?_append_slash (cs : Wide) :
    reference? (cs ++ [Point.char '/']) = reference? cs := by
  cases cs with
  | nil => rfl
  | cons p rest =>
      rw [List.cons_append]
      by_cases hbrace : p = .char '\x7b'
      · subst hbrace
        rw [reference?_brace, reference?_brace, List.takeWhile_append]
        have hle := (List.takeWhile_prefix (l := rest) (· != Point.char '\x7d')).length_le
        split
        · rename_i hopen
          simp [hopen]
        · rename_i hclosed
          have hlt : (rest.takeWhile (· != Point.char '\x7d')).length < rest.length := by omega
          have hlt' : (rest.takeWhile (· != Point.char '\x7d')).length <
              (rest ++ [Point.char '/']).length := by
            rw [List.length_append]
            omega
          simp only [hlt, hlt', if_true]
      · rw [reference?_of_ne hbrace, reference?_of_ne hbrace, ← List.cons_append,
          takeWhile_append_slash (by decide)]

theorem length_le_of_reference? {cs name : Wide} {length : Nat}
    (h : reference? cs = some (name, length)) : length ≤ cs.length := by
  cases cs with
  | nil => cases h
  | cons p rest =>
      by_cases hbrace : p = .char '\x7b'
      · subst hbrace
        rw [reference?_brace] at h
        dsimp only at h
        split at h
        · cases h
          rw [List.length_cons]
          omega
        · cases h
      · rw [reference?_of_ne hbrace] at h
        dsimp only at h
        split at h
        · cases h
        · cases h
          exact (List.takeWhile_prefix isNamePoint).length_le

/-- A path is taken apart into what is no reference, point by point, and references. -/
@[elab_as_elim]
theorem reference_induction {motive : Wide → Prop} (nil : motive [])
    (plain : ∀ p cs, (p = .char '$' → reference? cs = none) → motive cs → motive (p :: cs))
    (reference : ∀ cs name length, reference? cs = some (name, length) →
      motive (cs.drop length) → motive (.char '$' :: cs)) (cs : Wide) : motive cs := by
  -- A reference is passed over as a whole, so the induction is on the length.
  induction hlength : cs.length using Nat.strong_induction_on generalizing cs with
  | _ n ih =>
      cases cs with
      | nil => exact nil
      | cons p rest =>
          rw [List.length_cons] at hlength
          by_cases hplain : p = .char '$' → reference? rest = none
          · exact plain p rest hplain (ih _ (by omega) rest rfl)
          · obtain ⟨rfl, hsome⟩ := Classical.not_imp.1 hplain
            obtain ⟨⟨name, length⟩, hreference⟩ := Option.ne_none_iff_exists'.1 hsome
            have hdropped : (rest.drop length).length < n := by
              rw [List.length_drop]
              omega
            exact reference rest name length hreference (ih _ hdropped _ rfl)

/-- A path refers to a variable, by a dollar sign that is not part of a reference before it. -/
inductive RefersTo : Wide → Wide → Prop
  | here {cs name : Wide} {length : Nat} (h : reference? cs = some (name, length)) :
      RefersTo (.char '$' :: cs) name
  | behind {cs name other : Wide} {length : Nat} (h : reference? cs = some (other, length))
      (hrest : RefersTo (cs.drop length) name) : RefersTo (.char '$' :: cs) name
  | further {p : Point} {cs name : Wide} (h : p = .char '$' → reference? cs = none)
      (hrest : RefersTo cs name) : RefersTo (p :: cs) name

theorem refersTo_nil {name : Wide} : ¬ RefersTo [] name := by
  rintro ⟨⟩

theorem refersTo_cons_of_none {p : Point} {cs name : Wide}
    (h : p = .char '$' → reference? cs = none) : RefersTo (p :: cs) name ↔ RefersTo cs name := by
  constructor
  · rintro (hfound | ⟨hfound, -⟩ | ⟨-, hrest⟩)
    · exact absurd ((h rfl).symm.trans hfound) (by simp)
    · exact absurd ((h rfl).symm.trans hfound) (by simp)
    · exact hrest
  · exact .further h

theorem refersTo_cons_of_some {cs name other : Wide} {length : Nat}
    (h : reference? cs = some (other, length)) :
    RefersTo (.char '$' :: cs) name ↔ name = other ∨ RefersTo (cs.drop length) name := by
  constructor
  · rintro (hfound | ⟨hfound, hrest⟩ | ⟨hnone, -⟩)
    · cases h.symm.trans hfound
      exact .inl rfl
    · cases h.symm.trans hfound
      exact .inr hrest
    · exact absurd ((hnone rfl).symm.trans h) (by simp)
  · rintro (rfl | hrest)
    · exact .here h
    · exact .behind h hrest

/-! ## What cannot be looked up -/

/-- A half of a pair that stands for no byte. -/
def HasStrayHalf (name : Wide) : Prop :=
  ∃ n, Point.half n ∈ name ∧ Wide.isByte n = false

theorem isSome_faultFrom_iff {encodes : Fin 2048 → Bool} {position : Nat} {w : Wide} :
    (Wide.faultFrom encodes position w).isSome = true ↔
      ∃ n, Point.half n ∈ w ∧ encodes n = false := by
  induction w generalizing position with
  | nil => simp [Wide.faultFrom]
  | cons p rest ih =>
      cases p with
      | char c => simp [Wide.faultFrom, ih]
      | half n =>
          by_cases hn : encodes n = true
          · rw [Wide.faultFrom, if_pos hn, ih]
            constructor
            · rintro ⟨m, hm, hstray⟩
              exact ⟨m, List.mem_cons_of_mem _ hm, hstray⟩
            · rintro ⟨m, hm, hstray⟩
              rcases List.mem_cons.1 hm with heq | hrest
              · obtain rfl := Point.half.inj heq
                rw [hn] at hstray
                cases hstray
              · exact ⟨m, hrest, hstray⟩
          · rw [Wide.faultFrom, if_neg hn]
            exact iff_of_true rfl ⟨n, List.mem_cons_self, by simpa using hn⟩

theorem isSome_variableFault_iff {name : Wide} :
    (variableFault name).isSome = true ↔ HasStrayHalf name := by
  rw [variableFault, Option.isSome_map]
  exact isSome_faultFrom_iff

theorem isSome_accountFault_iff {name : Wide} :
    (accountFault name).isSome = true ↔
      HasStrayHalf name ∨ Point.char (Char.ofNat 0) ∈ name := by
  rw [HasStrayHalf, ← @isSome_faultFrom_iff _ 0]
  unfold accountFault Wide.systemFault
  cases Wide.faultFrom Wide.isByte 0 name <;> simp

/-! ## Expansions -/

variable (l : Lookups)

theorem exists_map_error_iff {α β ε : Type} {f : α → β} {x : Except ε α} :
    (∃ e, x.map f = .error e) ↔ ∃ e, x = .error e := by
  cases x <;> simp [Except.map]

theorem exists_of_map_ok {α β ε : Type} {f : α → β} {x : Except ε α} {b : β}
    (h : x.map f = .ok b) : ∃ a, x = .ok a ∧ f a = b := by
  cases x with
  | error e => cases h
  | ok a => exact ⟨a, rfl, Except.ok.inj h⟩

theorem expandFrom_drop (skip : Nat) (cs : Wide) :
    l.expandFrom skip cs = l.expandFrom 0 (cs.drop skip) := by
  induction cs generalizing skip with
  | nil => cases skip <;> rfl
  | cons p rest ih =>
      cases skip with
      | zero => rfl
      | succ skip => exact ih skip

theorem expandFrom_cons {p : Point} {cs : Wide} (h : p = .char '$' → reference? cs = none) :
    l.expandFrom 0 (p :: cs) = (l.expandFrom 0 cs).map (p :: ·) := by
  by_cases hdollar : p = .char '$'
  · simp [expandFrom, hdollar, h hdollar]
  · simp [expandFrom, hdollar]

/-- What stands in the place of a reference. -/
def replacement (name taken : Wide) : Wide :=
  (l.value? name).getD (.char '$' :: taken)

theorem expandFrom_of_some {cs name : Wide} {length : Nat}
    (h : reference? cs = some (name, length)) :
    l.expandFrom 0 (.char '$' :: cs) =
      match variableFault name with
      | some e => .error e
      | none =>
          (l.expandFrom 0 (cs.drop length)).map (l.replacement name (cs.take length) ++ ·) := by
  simp only [expandFrom, h, beq_self_eq_true, if_true, replacement]
  cases variableFault name with
  | some e => rfl
  | none => rw [expandFrom_drop]

/-- Variables are put in exactly if all that are referred to can be looked up. -/
theorem exists_expandVariables_error_iff {cs : Wide} :
    (∃ e, l.expandVariables cs = .error e) ↔ ∃ name, RefersTo cs name ∧ HasStrayHalf name := by
  unfold expandVariables
  induction cs using reference_induction with
  | nil => simp [expandFrom, refersTo_nil]
  | plain p cs hplain ih =>
      rw [expandFrom_cons l hplain, exists_map_error_iff, ih]
      simp only [refersTo_cons_of_none hplain]
  | reference cs name length hreference ih =>
      simp only [expandFrom_of_some l hreference, refersTo_cons_of_some hreference]
      cases hfault : variableFault name with
      | some e =>
          have hstray := isSome_variableFault_iff.1 (Option.isSome_of_eq_some hfault)
          exact iff_of_true ⟨e, rfl⟩ ⟨name, .inl rfl, hstray⟩
      | none =>
          have hfree : ¬ HasStrayHalf name := by
            rw [← isSome_variableFault_iff, hfault]
            simp
          dsimp only
          rw [exists_map_error_iff, ih]
          constructor
          · rintro ⟨other, hrefers, hstray⟩
            exact ⟨other, .inr hrefers, hstray⟩
          · rintro ⟨other, rfl | hrefers, hstray⟩
            · exact absurd hstray hfree
            · exact ⟨other, hrefers, hstray⟩

/-- A slash behind a text takes no part in its expansion. -/
theorem expandVariables_append_slash (cs : Wide) :
    l.expandVariables (cs ++ [Point.char '/']) =
      (l.expandVariables cs).map (· ++ [Point.char '/']) := by
  unfold expandVariables
  induction cs using reference_induction with
  | nil => rfl
  | plain p cs hplain ih =>
      have happended : p = .char '$' → reference? (cs ++ [Point.char '/']) = none := by
        rwa [reference?_append_slash]
      rw [List.cons_append, expandFrom_cons l happended, expandFrom_cons l hplain, ih]
      cases l.expandFrom 0 cs <;> rfl
  | reference cs name length hreference ih =>
      have happended : reference? (cs ++ [Point.char '/']) = some (name, length) := by
        rw [reference?_append_slash, hreference]
      have hle := length_le_of_reference? hreference
      rw [List.cons_append, expandFrom_of_some l happended, expandFrom_of_some l hreference,
        List.take_append_of_le_length hle, List.drop_append_of_le_length hle, ih]
      cases variableFault name with
      | some e => rfl
      | none =>
          cases l.expandFrom 0 (cs.drop length) with
          | error e => rfl
          | ok expanded => exact congrArg Except.ok (List.append_assoc ..).symm

theorem endsInSlash_expandVariables {path expanded : Wide} (h : EndsInSlash path)
    (hexpanded : l.expandVariables path = .ok expanded) : EndsInSlash expanded := by
  obtain ⟨cs, rfl⟩ := List.getLast?_eq_some_iff.1 h
  rw [expandVariables_append_slash] at hexpanded
  obtain ⟨before, -, rfl⟩ := exists_of_map_ok hexpanded
  exact List.getLast?_concat ..

/-! ## Home directories -/

theorem endsInSlash_homeBefore (home : Wide) {rest : Wide} (h : EndsInSlash rest) :
    EndsInSlash (homeBefore home rest) := by
  have hne : rest ≠ [] := by
    rintro rfl
    cases h
  rw [homeBefore, if_neg (by simp [hne]), EndsInSlash, List.getLast?_append, h, Option.some_or]

theorem endsInSlash_dropWhile {p : Point} {cs : Wide} (hp : p ≠ .char '/')
    (h : EndsInSlash (p :: cs)) : EndsInSlash (cs.dropWhile (· != .char '/')) := by
  obtain ⟨before, hbefore⟩ := List.getLast?_eq_some_iff.1 h
  cases before with
  | nil => exact absurd (List.cons.inj hbefore).1 hp
  | cons q qs =>
      obtain rfl : cs = qs ++ [.char '/'] := (List.cons.inj hbefore).2
      rw [List.dropWhile_append]
      split
      · rfl
      · exact List.getLast?_concat ..

/-- A home directory loses its slashes, but the last slash of the path is not its own. -/
theorem endsInSlash_expandHome {path home : Wide} (h : EndsInSlash path)
    (hhome : l.expandHome path = .ok home) : EndsInSlash home := by
  unfold expandHome at hhome
  split at hhome
  · rename_i behind
    have hrest := endsInSlash_dropWhile (by decide) h
    have hput : ∀ found : Option Wide, EndsInSlash (found.elim (Point.char '~' :: behind)
        (homeBefore · (behind.dropWhile (· != Point.char '/')))) := by
      rintro (_ | found)
      · exact h
      · exact endsInSlash_homeBefore found hrest
    dsimp only at hhome
    split at hhome
    · cases hhome
      exact hput _
    · split at hhome
      · cases hhome
      · cases hhome
        exact hput _
  · cases hhome
    exact h

/--
A path begins with a tilde and the name of an account, in which there is the character nought or a
half that stands for no byte.
-/
def NamesBrokenAccount (path : Wide) : Prop :=
  ∃ name rest : Wide, path = .char '~' :: (name ++ rest) ∧ Point.char '/' ∉ name ∧
    (HasStrayHalf name ∨ Point.char (Char.ofNat 0) ∈ name)

theorem namesBrokenAccount_cons_iff {behind : Wide} :
    NamesBrokenAccount (.char '~' :: behind) ↔
      (accountFault (behind.takeWhile (· != .char '/'))).isSome = true := by
  rw [isSome_accountFault_iff]
  constructor
  · rintro ⟨name, rest, hpath, hslash, hbroken⟩
    obtain rfl := (List.cons.inj hpath).2
    have hname : ∀ p ∈ name, (p != Point.char '/') = true := by
      intro p hp
      rw [bne_iff_ne]
      rintro rfl
      exact hslash hp
    rw [List.takeWhile_append_of_pos hname]
    rcases hbroken with ⟨n, hn, hstray⟩ | hnought
    · exact .inl ⟨n, List.mem_append_left _ hn, hstray⟩
    · exact .inr (List.mem_append_left _ hnought)
  · intro hbroken
    refine ⟨behind.takeWhile (· != .char '/'), behind.dropWhile (· != .char '/'), ?_, ?_, hbroken⟩
    · rw [List.takeWhile_append_dropWhile]
    · intro hslash
      simpa using List.mem_takeWhile_imp hslash

theorem exists_expandHome_error_iff {path : Wide} :
    (∃ e, l.expandHome path = .error e) ↔ NamesBrokenAccount path := by
  unfold expandHome
  split
  · rename_i behind
    rw [namesBrokenAccount_cons_iff]
    dsimp only
    split
    · rename_i hempty
      rw [List.isEmpty_iff.1 hempty]
      simp [accountFault, Wide.systemFault, Wide.faultFrom]
    · cases accountFault (behind.takeWhile (· != .char '/')) <;> simp
  · rename_i hnone
    refine iff_of_false (by simp) ?_
    rintro ⟨name, rest, rfl, -⟩
    exact hnone _ rfl

/-! ## What becomes of a final slash -/

/--
A path asks for what cannot be looked up: for an account, or for a variable when its home directory
has been put in.
-/
def AsksInVain (path : Wide) : Prop :=
  NamesBrokenAccount path ∨
    ∃ home, l.expandHome path = .ok home ∧ ∃ name, RefersTo home name ∧ HasStrayHalf name

theorem exists_expand_error_iff {path : Wide} :
    (∃ e, l.expand path = .error e) ↔ l.AsksInVain path := by
  unfold expand AsksInVain
  rw [← exists_expandHome_error_iff l]
  cases l.expandHome path with
  | error e => simp [Except.bind]
  | ok home => simp [Except.bind, exists_expandVariables_error_iff]

theorem endsInSlash_expand {path expanded : Wide} (h : EndsInSlash path)
    (hexpanded : l.expand path = .ok expanded) : EndsInSlash expanded := by
  unfold expand at hexpanded
  cases hhome : l.expandHome path with
  | error e => simp [hhome, Except.bind] at hexpanded
  | ok home =>
      rw [hhome] at hexpanded
      exact l.endsInSlash_expandVariables (l.endsInSlash_expandHome h hhome) hexpanded

/-- There is never a slash to put back. -/
theorem expandRestoring_eq (path : Wide) : l.expandRestoring path = l.expand path := by
  unfold expandRestoring
  split
  · rename_i hempty
    rw [List.isEmpty_iff.1 hempty]
    rfl
  · cases hexpanded : l.expand path with
    | error e => rfl
    | ok expanded =>
        have hkept : ¬ (EndsInSlash path ∧ ¬ EndsInSlash expanded) :=
          fun hlost => hlost.2 (l.endsInSlash_expand hlost.1 hexpanded)
        rw [Except.map, if_neg hkept]

/--
What becomes of a path that ends in a slash, whatever the home directories and the variables hold.

It is expanded to a path that ends in a slash, unless it asks for an account or a variable that
cannot be looked up; then there is no expanded path at all.  Either way nothing has to be put back
at its end.
-/
theorem expand_keeps_slash {path : Wide} (h : EndsInSlash path) :
    ((∃ expanded, l.expand path = .ok expanded ∧ EndsInSlash expanded) ↔ ¬ l.AsksInVain path) ∧
    ((∃ e, l.expand path = .error e) ↔ l.AsksInVain path) ∧
    l.expandRestoring path = l.expand path := by
  refine ⟨?_, l.exists_expand_error_iff, l.expandRestoring_eq path⟩
  rw [← exists_expand_error_iff]
  cases hexpanded : l.expand path with
  | error e => simp
  | ok expanded =>
      have hkept := l.endsInSlash_expand h hexpanded
      simp [hkept]

/-- A home directory with a mark in it that the rest of the path completes to a reference. -/
def openHome : Environment :=
  ⟨[("HOME", "/h/$\x7b/"), ("/A", "x$HOME")]⟩

/-- The reference takes a slash of the path away, but not the last one. -/
theorem expand_keeps_slash_open :
    EndsInSlash "~/A\x7d/" ∧
    ∃ expanded, openHome.lookups.expand "~/A\x7d/" = .ok expanded ∧ EndsInSlash expanded := by
  have hslash : EndsInSlash "~/A\x7d/" := by decide
  have hfound : ¬ openHome.lookups.AsksInVain "~/A\x7d/" := by
    rw [← exists_expand_error_iff]
    have hexpand : openHome.lookups.expand "~/A\x7d/" = .ok "/h/x$HOME/" := by rfl
    simp [hexpand]
  exact ⟨hslash, (openHome.lookups.expand_keeps_slash hslash).1.2 hfound⟩

/-- Paths that end in a slash and are not expanded to any path. -/
theorem expand_not_kept :
    (openHome.get? "HOME").isSome = true ∧
    ∀ path ∈ [Text.wide "~\x00/", [.char '~', .half 0, .char '/'],
        [.char '$', .char '\x7b', .half 0, .char '\x7d', .char '/']],
      EndsInSlash path ∧
      ¬ ∃ expanded, openHome.lookups.expand path = .ok expanded ∧ EndsInSlash expanded := by
  refine ⟨rfl, ?_⟩
  intro path hpath
  have hfails : EndsInSlash path ∧ ∃ e, openHome.lookups.expand path = .error e := by
    simp only [List.mem_cons, List.not_mem_nil, or_false] at hpath
    rcases hpath with rfl | rfl | rfl
    · exact ⟨by decide, _, rfl⟩
    · exact ⟨by decide, _, rfl⟩
    · exact ⟨by decide, _, rfl⟩
  refine ⟨hfails.1, ?_⟩
  rintro ⟨expanded, hok, -⟩
  obtain ⟨e, he⟩ := hfails.2
  rw [he] at hok
  cases hok

end IndexedMail.Lookups
