/-!
# Entries in order

Key and value pairs in the order in which the keys first came, each key once.
-/

namespace IndexedMail.Entries

variable {α β : Type}

/-- Give a key a value: in its place if it is there, at the end otherwise. -/
def insertBy (same : α → α → Bool) (key : α) (value : β) : List (α × β) → List (α × β)
  | [] => [(key, value)]
  | (k, v) :: rest =>
      if same k key then (k, value) :: rest else (k, v) :: insertBy same key value rest

/-- Give a key a value, with keys compared by equality. -/
def insert [BEq α] (key : α) (value : β) (entries : List (α × β)) : List (α × β) :=
  insertBy (· == ·) key value entries

/-- Give every key of the second list its value there. -/
def update [BEq α] (entries overrides : List (α × β)) : List (α × β) :=
  overrides.foldl (fun acc (key, value) => insert key value acc) entries

/-- The value of a key. -/
def get? [BEq α] (entries : List (α × β)) (key : α) : Option β :=
  (entries.find? fun entry => entry.1 == key).map (·.2)

def keys (entries : List (α × β)) : List α :=
  entries.map (·.1)

theorem get?_insert [BEq α] [LawfulBEq α] (key key' : α) (value : β) (entries : List (α × β)) :
    get? (insert key value entries) key' =
      if key == key' then some value else get? entries key' := by
  induction entries with
  | nil =>
      by_cases h : key = key'
      · simp [insert, insertBy, get?, h]
      · simp [insert, insertBy, get?, h]
  | cons entry rest ih =>
      obtain ⟨k, v⟩ := entry
      simp only [insert] at ih
      by_cases hk : k = key
      · subst hk
        by_cases h : k = key' <;> simp [insert, insertBy, get?, h]
      · have hne : (k == key) = false := by simp [hk]
        by_cases h : k = key'
        · subst h
          simp [insert, insertBy, get?, hne, Ne.symm hk]
        · have hne' : (k == key') = false := by simp [h]
          simp only [insert, insertBy, hne, Bool.false_eq_true, if_false]
          simp only [get?, List.find?_cons, hne'] at ih ⊢
          exact ih

theorem keys_insert_of_mem [BEq α] [LawfulBEq α] (key : α) (value : β) (entries : List (α × β))
    (h : key ∈ keys entries) : keys (insert key value entries) = keys entries := by
  induction entries with
  | nil => simp [keys] at h
  | cons entry rest ih =>
      obtain ⟨k, v⟩ := entry
      by_cases hk : k = key
      · subst hk
        simp [insert, insertBy, keys]
      · have hmem : key ∈ keys rest := by
          simpa [keys, Ne.symm hk, eq_comm] using h
        have hne : (k == key) = false := by simp [hk]
        simpa [insert, insertBy, keys, hne] using ih hmem

theorem insert_of_not_mem [BEq α] [LawfulBEq α] {key : α} (value : β)
    {entries : List (α × β)} (h : key ∉ keys entries) :
    insert key value entries = entries ++ [(key, value)] := by
  induction entries with
  | nil => rfl
  | cons entry rest ih =>
      obtain ⟨k, v⟩ := entry
      have hk : k ≠ key := fun e => h (by simp [keys, e])
      have hmem : key ∉ keys rest := fun hm => h (by simpa [keys] using Or.inr hm)
      have hne : (k == key) = false := by simp [hk]
      simpa [insert, insertBy, hne] using ih hmem

theorem keys_insert_of_not_mem [BEq α] [LawfulBEq α] (key : α) (value : β)
    (entries : List (α × β)) (h : key ∉ keys entries) :
    keys (insert key value entries) = keys entries ++ [key] := by
  rw [insert_of_not_mem value h]
  exact List.map_append

theorem update_cons [BEq α] (entries : List (α × β)) (key : α) (value : β)
    (rest : List (α × β)) :
    update entries ((key, value) :: rest) = update (insert key value entries) rest := rfl

theorem get?_append [BEq α] (first second : List (α × β)) (key : α) :
    get? (first ++ second) key = (get? first key).or (get? second key) := by
  rw [get?, List.find?_append, Option.map_or]
  rfl

/-- Of several values that a key is given, the last one stays. -/
theorem get?_update [BEq α] [LawfulBEq α] (entries overrides : List (α × β)) (key : α) :
    get? (update entries overrides) key = (get? overrides.reverse key).or (get? entries key) := by
  induction overrides generalizing entries with
  | nil => rfl
  | cons entry rest ih =>
      obtain ⟨k, v⟩ := entry
      rw [update_cons, ih, get?_insert, List.reverse_cons, get?_append, Option.or_assoc]
      by_cases h : k = key
      · simp [get?, h]
      · simp [get?, h]

end IndexedMail.Entries
