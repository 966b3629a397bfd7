import IndexedMail.Proofs.Json.Literals

/-!
# Values that are read back

Values without floating-point numbers and halves of surrogate pairs, with whole numbers that can be
written, names that differ within one object, and not too many levels, are read back as they were
written.
-/

namespace IndexedMail.Json

/-- A value with at most the given number of levels that a written text does not lose. -/
inductive Restorable : Nat → Json → Prop
  | null {levels : Nat} : Restorable levels .null
  | bool {levels : Nat} (b : Bool) : Restorable levels (.bool b)
  | int {levels : Nat} {i : Int} (h : i.natAbs < Text.Numeral.writableBound) :
      Restorable levels (.int i)
  | string {levels : Nat} (s : String) : Restorable levels (.string s)
  | array {levels : Nat} {items : List Json} (h : ∀ item ∈ items, Restorable levels item) :
      Restorable (levels + 1) (.array items)
  | object {levels : Nat} {members : List (Text.Wide × Json)}
      (hnames : (members.map (·.1)).Nodup) (hnarrow : ∀ m ∈ members, ∃ s, m.1 = Text.wide s)
      (h : ∀ m ∈ members, Restorable levels m.2) : Restorable (levels + 1) (.object members)

/-! ## Written characters -/

/-- A point as a character, where halves of surrogate pairs do not occur. -/
def charOf (p : Text.Point) : Char :=
  p.char?.getD Text.Utf8.replacement

theorem map_charOf_map (cs : List Char) : (cs.map Text.Point.char).map charOf = cs := by
  simp [Function.comp_def, charOf, Text.Point.char?]

theorem map_charOf_wide (s : String) : (Text.wide s).map charOf = s.toList :=
  map_charOf_map s.toList

/-- The characters of a value that begins on a line of the given level. -/
def charsAt (level : Nat) (value : Json) : List Char :=
  (renderAt level value).map charOf

/-- The characters of a line break and the indentation of a level. -/
def lineChars (level : Nat) : List Char :=
  '\n' :: List.replicate (2 * level) ' '

theorem map_charOf_newline (level : Nat) : (newline level).map charOf = lineChars level := by
  simp [newline, lineChars, charOf, Text.Point.char?]

/-- The characters of the further items of an array, and of its end. -/
def itemsChars (level : Nat) (items : List Json) : List Char :=
  (renderItems level items).map charOf

/-- The characters of the further members of an object, and of its end. -/
def membersChars (level : Nat) (members : List (Text.Wide × Json)) : List Char :=
  (renderMembers level members).map charOf

/-- The characters of a string literal. -/
def literalChars (s : Text.Wide) : List Char :=
  (renderString s).map charOf

/-- The characters of a member of an object, and of what follows it. -/
def memberChars (level : Nat) (m : Text.Wide × Json) (rest : List Char) : List Char :=
  literalChars m.1 ++ ':' :: ' ' :: (charsAt (level + 1) m.2 ++ rest)

theorem charsAt_int (level : Nat) (i : Int) : charsAt level (.int i) = Text.Numeral.ofInt i :=
  map_charOf_map _

theorem charsAt_array_cons (level : Nat) (item : Json) (rest : List Json) :
    charsAt level (.array (item :: rest)) =
      '[' :: (lineChars (level + 1) ++ (charsAt (level + 1) item ++ itemsChars level rest)) := by
  simp only [charsAt, itemsChars, renderAt, List.map_append, map_charOf_newline, map_charOf_wide,
    List.append_assoc]
  rfl

theorem charsAt_object_cons (level : Nat) (m : Text.Wide × Json)
    (rest : List (Text.Wide × Json)) :
    charsAt level (.object (m :: rest)) =
      '\x7b' :: (lineChars (level + 1) ++ memberChars level m (membersChars level rest)) := by
  simp only [charsAt, memberChars, literalChars, membersChars, renderAt, List.map_append,
    map_charOf_newline, map_charOf_wide, List.append_assoc]
  rfl

theorem itemsChars_nil (level : Nat) : itemsChars level [] = lineChars level ++ [']'] := by
  simp only [itemsChars, renderItems, List.map_append, map_charOf_newline, map_charOf_wide]
  rfl

theorem itemsChars_cons (level : Nat) (item : Json) (rest : List Json) :
    itemsChars level (item :: rest) =
      ',' :: (lineChars (level + 1) ++ (charsAt (level + 1) item ++ itemsChars level rest)) := by
  simp only [itemsChars, charsAt, renderItems, List.map_append, map_charOf_newline,
    map_charOf_wide, List.append_assoc]
  rfl

theorem membersChars_nil (level : Nat) : membersChars level [] = lineChars level ++ ['\x7d'] := by
  simp only [membersChars, renderMembers, List.map_append, map_charOf_newline, map_charOf_wide]
  rfl

theorem membersChars_cons (level : Nat) (m : Text.Wide × Json)
    (rest : List (Text.Wide × Json)) :
    membersChars level (m :: rest) =
      ',' :: (lineChars (level + 1) ++ memberChars level m (membersChars level rest)) := by
  simp only [membersChars, memberChars, literalChars, charsAt, renderMembers, List.map_append,
    map_charOf_newline, map_charOf_wide, List.append_assoc]
  rfl

theorem literalChars_wide_append (s : String) (rest : List Char) :
    literalChars (Text.wide s) ++ rest = '"' :: (s.toList.flatMap escapeChar ++ '"' :: rest) := by
  have hpoints : (Text.wide s).flatMap escapePoint =
      (s.toList.flatMap escapeChar).map Text.Point.char := by
    simp [Text.wide, List.flatMap_map, List.map_flatMap, escapePoint]
  simp only [literalChars, renderString, hpoints, List.map_cons, List.map_append, map_charOf_map]
  simp [charOf, Text.Point.char?]

/-! ## Space between the parts -/

theorem skipSpace_lineChars (level : Nat) (cs : List Char) :
    skipSpace (lineChars level ++ cs) = skipSpace cs := by
  refine List.dropWhile_append_of_pos ?_
  intro c hc
  rcases List.mem_cons.1 hc with rfl | hc
  · rfl
  · rw [List.eq_of_mem_replicate hc]
    rfl

theorem skipSpace_cons {c : Char} (h : isSpace c = false) (cs : List Char) :
    skipSpace (c :: cs) = c :: cs := by
  simp [skipSpace, h]

/-- How a value begins: not with space, the end of an array or a mark of byte order. -/
def Begins (cs : List Char) : Prop :=
  ∃ c more, cs = c :: more ∧ isSpace c = false ∧ c ≠ ']' ∧ c ≠ Char.ofNat 0xfeff

namespace Begins

theorem append {cs : List Char} (h : Begins cs) (rest : List Char) : Begins (cs ++ rest) := by
  obtain ⟨c, more, rfl, hc⟩ := h
  exact ⟨c, more ++ rest, rfl, hc⟩

theorem skipSpace_eq {cs : List Char} (h : Begins cs) : skipSpace cs = cs := by
  obtain ⟨c, more, rfl, hc, -⟩ := h
  exact skipSpace_cons hc more

theorem ofNat (n : Nat) : Begins (Text.Numeral.ofNat n) := by
  obtain ⟨c, more, hcons⟩ := List.exists_cons_of_ne_nil (Text.Numeral.ofNat_ne_nil n)
  obtain ⟨d, hd, rfl⟩ := Text.Numeral.exists_digit_of_mem_ofNat (hcons ▸ List.mem_cons_self)
  have hall : ∀ d < 10, isSpace (Nat.digitChar d) = false ∧ Nat.digitChar d ≠ ']' ∧
      Nat.digitChar d ≠ Char.ofNat 0xfeff := by decide
  exact ⟨_, more, hcons, hall d hd⟩

end Begins

theorem Restorable.begins {levels : Nat} {value : Json} (h : Restorable levels value)
    (level : Nat) : Begins (charsAt level value) := by
  cases h with
  | null => exact ⟨'n', "ull".toList, rfl, by decide⟩
  | bool b =>
      cases b with
      | true => exact ⟨'t', "rue".toList, rfl, by decide⟩
      | false => exact ⟨'f', "alse".toList, rfl, by decide⟩
  | @int _ i hi =>
      rw [charsAt_int]
      cases i with
      | ofNat n => exact Begins.ofNat n
      | negSucc n => exact ⟨'-', _, rfl, by decide⟩
  | string s => exact ⟨'"', _, rfl, by decide⟩
  | @array _ items _ =>
      cases items with
      | nil => exact ⟨'[', _, rfl, by decide⟩
      | cons item rest => exact ⟨'[', _, rfl, by decide⟩
  | @object _ members _ _ =>
      cases members with
      | nil => exact ⟨'\x7b', _, rfl, by decide⟩
      | cons m rest => exact ⟨'\x7b', _, rfl, by decide⟩

/-! ## Items and members -/

/-- Whether a value is read, with that many levels, from what is written for it. -/
def ReadsBack (levels : Nat) (value : Json) : Prop :=
  ∀ level fuel rest, Ends rest → (charsAt level value).length < fuel →
    valueFuel fuel levels (charsAt level value ++ rest) = .ok (value, rest)

theorem ends_itemsChars (level : Nat) (rest : List Json) (tail : List Char) :
    Ends (itemsChars level rest ++ tail) := by
  cases rest with
  | nil =>
      rw [itemsChars_nil, List.append_assoc]
      exact Ends.lineFeed _
  | cons item rest => exact Ends.comma _

theorem ends_membersChars (level : Nat) (rest : List (Text.Wide × Json)) (tail : List Char) :
    Ends (membersChars level rest ++ tail) := by
  cases rest with
  | nil =>
      rw [membersChars_nil, List.append_assoc]
      exact Ends.lineFeed _
  | cons m rest => exact Ends.comma _

theorem itemsChars_cons_append (level : Nat) (item : Json) (rest : List Json)
    (tail : List Char) :
    itemsChars level (item :: rest) ++ tail =
      ',' :: (lineChars (level + 1) ++
        (charsAt (level + 1) item ++ (itemsChars level rest ++ tail))) := by
  simp [itemsChars_cons]

theorem skipSpace_itemsChars_nil (level : Nat) (tail : List Char) :
    skipSpace (itemsChars level [] ++ tail) = ']' :: tail := by
  rw [itemsChars_nil, List.append_assoc, skipSpace_lineChars]
  rfl

/-- Items that read back one by one read back as the rest of an array. -/
theorem itemsFuel_itemsChars {levels level : Nat} {item : Json} {rest : List Json}
    (hreads : ∀ i ∈ item :: rest, ReadsBack levels i)
    (hbegins : ∀ i ∈ item :: rest, Begins (charsAt (level + 1) i)) {fuel : Nat}
    (hfuel : (charsAt (level + 1) item ++ itemsChars level rest).length < fuel)
    (tail : List Char) :
    itemsFuel fuel levels (charsAt (level + 1) item ++ (itemsChars level rest ++ tail)) =
      .ok (item :: rest, tail) := by
  -- The first item is read with the fuel of the whole, the others with one less.
  induction rest generalizing item fuel with
  | nil =>
      cases fuel with
      | zero => exact absurd hfuel (Nat.not_lt_zero _)
      | succ fuel =>
          have hlength : (charsAt (level + 1) item).length < fuel := by
            simp only [List.length_append, itemsChars_nil, List.length_singleton] at hfuel
            omega
          have hread := hreads item List.mem_cons_self (level + 1) fuel _
            (ends_itemsChars level [] tail) hlength
          rw [itemsFuel, hread]
          simp only [skipSpace_itemsChars_nil]
  | cons next rest ih =>
      cases fuel with
      | zero => exact absurd hfuel (Nat.not_lt_zero _)
      | succ fuel =>
          have hparts : (charsAt (level + 1) item).length < fuel ∧
              (charsAt (level + 1) next ++ itemsChars level rest).length < fuel := by
            simp only [List.length_append, itemsChars_cons, List.length_cons] at hfuel ⊢
            omega
          have hread := hreads item List.mem_cons_self (level + 1) fuel _
            (ends_itemsChars level (next :: rest) tail) hparts.1
          have hmore := ih (fun i hi => hreads i (List.mem_cons_of_mem _ hi))
            (fun i hi => hbegins i (List.mem_cons_of_mem _ hi)) hparts.2
          have hnext : Begins (charsAt (level + 1) next) :=
            hbegins next (List.mem_cons_of_mem _ List.mem_cons_self)
          rw [itemsFuel, hread]
          simp only [itemsChars_cons_append, skipSpace_cons (show isSpace ',' = false from rfl),
            skipSpace_lineChars, (hnext.append _).skipSpace_eq, hmore]
          rfl

theorem skipSpace_membersChars_nil (level : Nat) (tail : List Char) :
    skipSpace (membersChars level [] ++ tail) = '\x7d' :: tail := by
  rw [membersChars_nil, List.append_assoc, skipSpace_lineChars]
  rfl

theorem skipSpace_memberChars (level : Nat) (m : Text.Wide × Json) (rest : List Char) :
    skipSpace (memberChars level m rest) = memberChars level m rest :=
  skipSpace_cons rfl _

theorem membersChars_cons_append (level : Nat) (m : Text.Wide × Json)
    (rest : List (Text.Wide × Json)) (tail : List Char) :
    membersChars level (m :: rest) ++ tail =
      ',' :: (lineChars (level + 1) ++ memberChars level m (membersChars level rest ++ tail)) := by
  simp [membersChars_cons, memberChars]

theorem length_memberChars (level : Nat) (m : Text.Wide × Json) (rest : List Char) :
    (charsAt (level + 1) m.2).length + rest.length < (memberChars level m rest).length := by
  simp only [memberChars, List.length_append, List.length_cons]
  omega

theorem not_mem_keys_of_nodup {m : Text.Wide × Json} {done rest : List (Text.Wide × Json)}
    (h : ((done ++ m :: rest).map (·.1)).Nodup) : m.1 ∉ Entries.keys done := by
  intro hm
  rw [List.map_append, List.nodup_append] at h
  exact h.2.2 m.1 hm m.1 List.mem_cons_self rfl

theorem membersFuel_memberChars {levels level fuel : Nat} {m : Text.Wide × Json}
    (hreads : ReadsBack levels m.2) (hnarrow : ∃ s, m.1 = Text.wide s)
    (hbegins : Begins (charsAt (level + 1) m.2))
    {done : List (Text.Wide × Json)} (hname : m.1 ∉ Entries.keys done)
    (hfuel : (charsAt (level + 1) m.2).length < fuel) {rest : List Char} (hrest : Ends rest) :
    (∀ after, skipSpace rest = '\x7d' :: after →
      membersFuel (fuel + 1) levels (memberChars level m rest) done =
        .ok (done ++ [m], after)) ∧
    (∀ more, skipSpace rest = ',' :: more →
      membersFuel (fuel + 1) levels (memberChars level m rest) done =
        membersFuel fuel levels (skipSpace more) (done ++ [m])) := by
  have hread := hreads (level + 1) fuel rest hrest hfuel
  have hspace : skipSpace (' ' :: (charsAt (level + 1) m.2 ++ rest)) =
      charsAt (level + 1) m.2 ++ rest := (hbegins.append rest).skipSpace_eq
  obtain ⟨s, hs⟩ := hnarrow
  have hpoints : s.toList.map Text.Point.char = m.1 := hs.symm
  rw [memberChars, hs, literalChars_wide_append]
  simp only [membersFuel, stringFrom_flatMap_escapeChar,
    skipSpace_cons (show isSpace ':' = false from rfl), hspace, hread, hpoints,
    Entries.insert_of_not_mem m.2 hname]
  constructor
  · intro after hafter
    rw [hafter]
    rfl
  · intro more hmore
    rw [hmore]
    rfl

/-- Members whose values read back one by one read back as the rest of an object. -/
theorem membersFuel_membersChars {levels level : Nat} {m : Text.Wide × Json}
    {rest done : List (Text.Wide × Json)} (hreads : ∀ n ∈ m :: rest, ReadsBack levels n.2)
    (hnarrow : ∀ n ∈ m :: rest, ∃ s, n.1 = Text.wide s)
    (hbegins : ∀ n ∈ m :: rest, Begins (charsAt (level + 1) n.2))
    (hnames : ((done ++ m :: rest).map (·.1)).Nodup) {fuel : Nat}
    (hfuel : (memberChars level m (membersChars level rest)).length < fuel) (tail : List Char) :
    membersFuel fuel levels (memberChars level m (membersChars level rest ++ tail)) done =
      .ok (done ++ m :: rest, tail) := by
  -- As for items; what was read before is kept, and the name is new to it.
  induction rest generalizing m done fuel with
  | nil =>
      cases fuel with
      | zero => exact absurd hfuel (Nat.not_lt_zero _)
      | succ fuel =>
          have hmember := length_memberChars level m (membersChars level [])
          have hlength : (charsAt (level + 1) m.2).length < fuel := by omega
          obtain ⟨hlast, -⟩ := membersFuel_memberChars (hreads m List.mem_cons_self)
            (hnarrow m List.mem_cons_self) (hbegins m List.mem_cons_self)
            (not_mem_keys_of_nodup hnames) hlength
            (ends_membersChars level [] tail)
          exact hlast tail (skipSpace_membersChars_nil level tail)
  | cons next rest ih =>
      cases fuel with
      | zero => exact absurd hfuel (Nat.not_lt_zero _)
      | succ fuel =>
          have hmember := length_memberChars level m (membersChars level (next :: rest))
          have hrest : (memberChars level next (membersChars level rest)).length <
              (membersChars level (next :: rest)).length := by
            simp only [membersChars_cons, memberChars, List.length_append, List.length_cons]
            omega
          have hlength : (charsAt (level + 1) m.2).length < fuel := by omega
          have hmore := ih (fun n hn => hreads n (List.mem_cons_of_mem _ hn))
            (fun n hn => hnarrow n (List.mem_cons_of_mem _ hn))
            (fun n hn => hbegins n (List.mem_cons_of_mem _ hn))
            (show ((done ++ [m] ++ next :: rest).map (·.1)).Nodup by simpa using hnames)
            (show _ < fuel by omega)
          obtain ⟨-, hnext⟩ := membersFuel_memberChars (hreads m List.mem_cons_self)
            (hnarrow m List.mem_cons_self) (hbegins m List.mem_cons_self)
            (not_mem_keys_of_nodup hnames) hlength
            (ends_membersChars level (next :: rest) tail)
          have hcomma := membersChars_cons_append level next rest tail
          rw [hnext _ (by rw [hcomma, skipSpace_cons rfl]), skipSpace_lineChars,
            skipSpace_memberChars, hmore, List.append_assoc]
          rfl

/-! ## Whole values -/

theorem valueFuel_ofInt (fuel levels : Nat) (i : Int) (rest : List Char) :
    valueFuel (fuel + 1) levels (Text.Numeral.ofInt i ++ rest) =
      atom (Text.Numeral.ofInt i ++ rest) := by
  have hatom : ∀ c more, c ≠ '"' ∧ c ≠ '[' ∧ c ≠ '\x7b' →
      valueFuel (fuel + 1) levels (c :: more) = atom (c :: more) := by
    rintro c more ⟨hquote, harray, hobject⟩
    simp [valueFuel, hquote, harray, hobject]
  cases i with
  | ofNat n =>
      obtain ⟨c, more, hcons⟩ := List.exists_cons_of_ne_nil (Text.Numeral.ofNat_ne_nil n)
      obtain ⟨d, hd, rfl⟩ := Text.Numeral.exists_digit_of_mem_ofNat (hcons ▸ List.mem_cons_self)
      have hall : ∀ d < 10, Nat.digitChar d ≠ '"' ∧ Nat.digitChar d ≠ '[' ∧
          Nat.digitChar d ≠ '\x7b' := by decide
      rw [Text.Numeral.ofInt, hcons, List.cons_append]
      exact hatom _ _ (hall d hd)
  | negSucc n => exact hatom '-' _ (by decide)

theorem valueFuel_array {fuel levels : Nat} {body : List Char} (hbody : Begins body)
    (level : Nat) :
    valueFuel (fuel + 1) (levels + 1) ('[' :: (lineChars level ++ body)) =
      (itemsFuel fuel levels body).map fun (items, after) => (array items, after) := by
  have hspace : skipSpace (lineChars level ++ body) = body := by
    rw [skipSpace_lineChars, hbody.skipSpace_eq]
  obtain ⟨c, more, rfl, -, hend, -⟩ := hbody
  simp [valueFuel, hspace, hend]

theorem valueFuel_object (fuel levels level : Nat) (m : Text.Wide × Json) (rest : List Char) :
    valueFuel (fuel + 1) (levels + 1)
        ('\x7b' :: (lineChars (level + 1) ++ memberChars level m rest)) =
      (membersFuel fuel levels (memberChars level m rest) []).map fun (ms, after) =>
        (object ms, after) := by
  have hspace : skipSpace (lineChars (level + 1) ++ memberChars level m rest) =
      memberChars level m rest := by
    rw [skipSpace_lineChars, skipSpace_memberChars]
  have hquote : ∃ cs, memberChars level m rest = '"' :: cs := ⟨_, rfl⟩
  obtain ⟨cs, hcs⟩ := hquote
  rw [hcs] at hspace ⊢
  simp [valueFuel, hspace]

theorem readsBack_array {levels : Nat} {items : List Json}
    (hreads : ∀ item ∈ items, ReadsBack levels item)
    (hbegins : ∀ item ∈ items, ∀ level, Begins (charsAt level item)) :
    ReadsBack (levels + 1) (.array items) := by
  intro level fuel rest hrest hfuel
  cases fuel with
  | zero => exact absurd hfuel (Nat.not_lt_zero _)
  | succ fuel =>
      cases items with
      | nil => rfl
      | cons item more =>
          have hlength : (charsAt (level + 1) item ++ itemsChars level more).length < fuel := by
            simp only [charsAt_array_cons, List.length_cons, List.length_append] at hfuel ⊢
            omega
          have hread :=
            itemsFuel_itemsChars hreads (fun i hi => hbegins i hi (level + 1)) hlength rest
          have hitem := (hbegins item List.mem_cons_self (level + 1)).append
            (itemsChars level more ++ rest)
          have htext : charsAt level (.array (item :: more)) ++ rest = '[' ::
              (lineChars (level + 1) ++
                (charsAt (level + 1) item ++ (itemsChars level more ++ rest))) := by
            simp [charsAt_array_cons]
          rw [htext, valueFuel_array hitem, hread]
          rfl

theorem readsBack_object {levels : Nat} {members : List (Text.Wide × Json)}
    (hnames : (members.map (·.1)).Nodup) (hnarrow : ∀ m ∈ members, ∃ s, m.1 = Text.wide s)
    (hreads : ∀ m ∈ members, ReadsBack levels m.2)
    (hbegins : ∀ m ∈ members, ∀ level, Begins (charsAt level m.2)) :
    ReadsBack (levels + 1) (.object members) := by
  intro level fuel rest hrest hfuel
  cases fuel with
  | zero => exact absurd hfuel (Nat.not_lt_zero _)
  | succ fuel =>
      cases members with
      | nil => rfl
      | cons m more =>
          have hlength : (memberChars level m (membersChars level more)).length < fuel := by
            simp only [charsAt_object_cons, List.length_cons, List.length_append] at hfuel
            omega
          have hread := @membersFuel_membersChars levels level m more [] hreads
            hnarrow (fun n hn => hbegins n hn (level + 1)) hnames fuel hlength rest
          have htext : charsAt level (.object (m :: more)) ++ rest = '\x7b' ::
              (lineChars (level + 1) ++
                memberChars level m (membersChars level more ++ rest)) := by
            simp [charsAt_object_cons, memberChars]
          rw [htext, valueFuel_object, hread]
          rfl

theorem Restorable.readsBack {levels : Nat} {value : Json} (h : Restorable levels value) :
    ReadsBack levels value := by
  induction h with
  | null =>
      intro level fuel rest hrest hfuel
      cases fuel with
      | zero => exact absurd hfuel (Nat.not_lt_zero _)
      | succ fuel => rfl
  | bool b =>
      intro level fuel rest hrest hfuel
      cases fuel with
      | zero => exact absurd hfuel (Nat.not_lt_zero _)
      | succ fuel => cases b <;> rfl
  | int hi =>
      intro level fuel rest hrest hfuel
      cases fuel with
      | zero => exact absurd hfuel (Nat.not_lt_zero _)
      | succ fuel => rw [charsAt_int, valueFuel_ofInt, atom_ofInt hi hrest]
  | string s =>
      intro level fuel rest hrest hfuel
      cases fuel with
      | zero => exact absurd hfuel (Nat.not_lt_zero _)
      | succ fuel =>
          change valueFuel (fuel + 1) _ (literalChars (Text.wide s) ++ rest) = _
          rw [literalChars_wide_append]
          simp [valueFuel, stringFrom_flatMap_escapeChar, Except.map, Text.wide]
  | array h ih => exact readsBack_array ih fun item hitem => (h item hitem).begins
  | object hnames hnarrow h ih =>
      exact readsBack_object hnames hnarrow ih fun m hm => (h m hm).begins

/-! ## What is stored -/

/-- Whether a text is of characters, none of which is a carriage return. -/
def Storable (w : Text.Wide) : Prop :=
  ∀ p ∈ w, ∃ c, p = .char c ∧ c ≠ '\r'

namespace Storable

theorem append {v w : Text.Wide} (hv : Storable v) (hw : Storable w) : Storable (v ++ w) := by
  intro p hp
  rcases List.mem_append.1 hp with hp | hp
  · exact hv p hp
  · exact hw p hp

theorem map_char {cs : List Char} (h : '\r' ∉ cs) : Storable (cs.map .char) := by
  intro p hp
  obtain ⟨c, hc, rfl⟩ := List.mem_map.1 hp
  exact ⟨c, rfl, fun hreturn => h (hreturn ▸ hc)⟩

theorem newline (level : Nat) : Storable (newline level) := by
  have hchars : Json.newline level = (lineChars level).map .char := by
    simp [Json.newline, lineChars]
  rw [hchars]
  exact map_char (by simp [lineChars])

/-- A storable text is that of its characters. -/
theorem eq_map_char {w : Text.Wide} (h : Storable w) :
    w = (w.map charOf).map .char ∧ '\r' ∉ w.map charOf := by
  induction w with
  | nil => exact ⟨rfl, List.not_mem_nil⟩
  | cons p rest ih =>
      obtain ⟨c, rfl, hc⟩ := h p List.mem_cons_self
      obtain ⟨hrest, hreturn⟩ := ih fun q hq => h q (List.mem_cons_of_mem _ hq)
      refine ⟨congrArg (Text.Point.char c :: ·) hrest, ?_⟩
      exact List.not_mem_cons_of_ne_of_not_mem (Ne.symm hc) hreturn

end Storable

theorem not_mem_escapeChar (c : Char) : '\r' ∉ escapeChar c := by
  obtain ⟨letter, -, hletter, -, hescape⟩ | ⟨hcontrol, hescape⟩ | ⟨-, -, hcontrol, hescape⟩ :=
    escapeChar_cases c
  · simp [hescape, Ne.symm hletter]
  · have hall : ∀ n < 0x20, '\r' ∉ Text.hexDigits 4 n := by decide
    simp [hescape, hall c.toNat hcontrol]
  · rw [hescape, List.mem_singleton]
    rintro rfl
    exact hcontrol (by decide)

theorem storable_renderString (s : String) : Storable (renderString (Text.wide s)) := by
  have hpoints : renderString (Text.wide s) =
      ('"' :: (s.toList.flatMap escapeChar ++ ['"'])).map Text.Point.char := by
    simp [renderString, Text.wide, List.flatMap_map, List.map_flatMap, escapePoint]
  rw [hpoints]
  exact Storable.map_char (by simp [not_mem_escapeChar])

theorem storable_renderItems {items : List Json}
    (h : ∀ item ∈ items, ∀ level, Storable (renderAt level item)) (level : Nat) :
    Storable (renderItems level items) := by
  induction items with
  | nil => exact (Storable.newline level).append (Storable.map_char (by decide))
  | cons item rest ih =>
      have hitem := h item List.mem_cons_self (level + 1)
      have hrest := ih fun i hi => h i (List.mem_cons_of_mem _ hi)
      exact (Storable.map_char (by decide)).append
        (((Storable.newline (level + 1)).append hitem).append hrest)

theorem storable_renderMembers {members : List (Text.Wide × Json)}
    (hnarrow : ∀ m ∈ members, ∃ s, m.1 = Text.wide s)
    (h : ∀ m ∈ members, ∀ level, Storable (renderAt level m.2)) (level : Nat) :
    Storable (renderMembers level members) := by
  induction members with
  | nil => exact (Storable.newline level).append (Storable.map_char (by decide))
  | cons m rest ih =>
      obtain ⟨s, hs⟩ := hnarrow m List.mem_cons_self
      have hname : Storable (renderString m.1) := hs ▸ storable_renderString s
      have hvalue := h m List.mem_cons_self (level + 1)
      have hrest := ih (fun n hn => hnarrow n (List.mem_cons_of_mem _ hn))
        fun n hn => h n (List.mem_cons_of_mem _ hn)
      exact (Storable.map_char (by decide)).append
        ((((Storable.newline (level + 1)).append hname).append
          (Storable.map_char (by decide))).append (hvalue.append hrest))

/-- What is written for a value is stored as it is, whatever texts it holds. -/
theorem Restorable.storable {levels : Nat} {value : Json} (h : Restorable levels value)
    (level : Nat) : Storable (renderAt level value) := by
  induction h generalizing level with
  | null => exact Storable.map_char (by decide)
  | bool b => cases b <;> exact Storable.map_char (by decide)
  | @int _ i hi =>
      have hdigits : ∀ n, '\r' ∉ Text.Numeral.ofNat n := by
        intro n hmem
        have hdecimal := isDecimal_of_mem_ofNat _ hmem
        exact absurd hdecimal (by decide)
      rw [renderAt]
      cases i with
      | ofNat n => exact Storable.map_char (hdigits n)
      | negSucc n =>
          exact Storable.map_char (List.not_mem_cons_of_ne_of_not_mem (by decide) (hdigits (n + 1)))
  | string s => exact storable_renderString s
  | @array _ items h ih =>
      cases items with
      | nil => exact Storable.map_char (by decide)
      | cons item rest =>
          have hitem := ih item List.mem_cons_self (level + 1)
          have hrest := storable_renderItems (fun i hi => ih i (List.mem_cons_of_mem _ hi)) level
          exact (Storable.map_char (by decide)).append
            (((Storable.newline (level + 1)).append hitem).append hrest)
  | @object _ members hnames hnarrow h ih =>
      cases members with
      | nil => exact Storable.map_char (by decide)
      | cons m rest =>
          obtain ⟨s, hs⟩ := hnarrow m List.mem_cons_self
          have hname : Storable (renderString m.1) := hs ▸ storable_renderString s
          have hvalue := ih m List.mem_cons_self (level + 1)
          have hrest := storable_renderMembers (fun n hn => hnarrow n (List.mem_cons_of_mem _ hn))
            (fun n hn => ih n (List.mem_cons_of_mem _ hn)) level
          exact (Storable.map_char (by decide)).append
            ((((Storable.newline (level + 1)).append hname).append
              (Storable.map_char (by decide))).append (hvalue.append hrest))

/-! ## Whole texts -/

/-- A text that was written is read as the value for which it was written. -/
theorem read_charsAt {levels : Nat} {value : Json} (h : Restorable levels value) :
    read levels (charsAt 0 value) = .ok value := by
  obtain ⟨c, more, hcons, hspace, -, hmark⟩ := h.begins 0
  have hvalue : valueFuel (2 * (charsAt 0 value).length + 2) levels (charsAt 0 value) =
      .ok (value, []) := by
    have hread := h.readsBack 0 (2 * (charsAt 0 value).length + 2) [] Ends.nil (by omega)
    rwa [List.append_nil] at hread
  have hskip : skipSpace (charsAt 0 value) = charsAt 0 value := by
    rw [hcons, skipSpace_cons hspace]
  have hhead : ((charsAt 0 value).head? == some (Char.ofNat 0xfeff)) = false := by
    rw [hcons]
    simpa using hmark
  have htext : readText levels (charsAt 0 value) = .ok value := by
    have hnothing : skipSpace [] = [] := rfl
    simp [readText, hhead, hskip, hvalue, hnothing]
  simp [read, htext]

theorem Restorable.render_eq {levels : Nat} {value : Json} (h : Restorable levels value) :
    value.render = (charsAt 0 value).map .char :=
  (h.storable 0).eq_map_char.1

theorem Restorable.not_mem_charsAt {levels : Nat} {value : Json} (h : Restorable levels value) :
    '\r' ∉ charsAt 0 value :=
  (h.storable 0).eq_map_char.2

end IndexedMail.Json
