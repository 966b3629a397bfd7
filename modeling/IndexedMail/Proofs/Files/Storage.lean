import IndexedMail.Files.Basic

/-!
# Reading what was written

A file that was written is found under its path and has the content that was written.  Nothing
that a path goes through is changed by that: those places are directories, and no file is put in
the place of one.
-/

namespace IndexedMail.Files

theorem at?_put_of_ne (f : Files) {place other : Place} (kind : Kind) (h : place ≠ other) :
    (f.put place kind).at? other = f.at? other := by
  have hsame : (place == other) = false := by simpa using h
  simp [at?, put, Entries.get?_insert, hsame]

/-- Where no directory is, the working directory is not below. -/
theorem not_isPrefixOf_of_at? {f : Files} {place : Place} (h : f.at? place ≠ some .directory) :
    place.isPrefixOf f.base = false := by
  cases hprefix : place.isPrefixOf f.base with
  | false => rfl
  | true => exact absurd (if_pos hprefix) h

theorem at?_eq_directory_of_enter {f : Files} {place next : Place} {name : String}
    (h : f.enter place name = .ok next) : f.at? place = some .directory := by
  cases hat : f.at? place with
  | none => simp [enter, hat] at h
  | some kind =>
      cases kind with
      | directory => rfl
      | file content => simp [enter, hat] at h

theorem enter_put {f : Files} {place start next : Place} {name : String} (kind : Kind)
    (hplace : f.at? place ≠ some .directory) (h : f.enter start name = .ok next) :
    (f.put place kind).enter start name = .ok next := by
  have hstart := at?_eq_directory_of_enter h
  have hne : place ≠ start := by
    rintro rfl
    exact hplace hstart
  rw [enter, at?_put_of_ne f kind hne]
  exact h

/-- Putting something where no directory is leaves all ways as they are. -/
theorem follow_put {f : Files} {place start target : Place} {names : List String} (kind : Kind)
    (hplace : f.at? place ≠ some .directory) (h : f.follow start names = .ok target) :
    (f.put place kind).follow start names = .ok target := by
  induction names generalizing start with
  | nil => exact h
  | cons name rest ih =>
      rw [follow] at h ⊢
      cases henter : f.enter start name with
      | error cause => simp [henter] at h
      | ok next =>
          rw [henter] at h
          rw [enter_put kind hplace henter]
          exact ih h

theorem resolve_eq_ok_iff {f : Files} {p : Path} {target : Place} :
    f.resolve p = .ok target ↔
      hasNul p = false ∧ isTooLong p.text = false ∧ f.follow (f.start p) p.names = .ok target := by
  unfold resolve
  by_cases hnul : hasNul p = true
  · simp [hnul]
  by_cases hlong : isTooLong p.text = true
  · simp [hnul, hlong]
  cases hfollow : f.follow (f.start p) p.names <;> simp [hnul, hlong]

theorem resolve_put {f : Files} {place target : Place} {p : Path} (kind : Kind)
    (hplace : f.at? place ≠ some .directory) (h : f.resolve p = .ok target) :
    (f.put place kind).resolve p = .ok target := by
  obtain ⟨hnul, hlong, hfollow⟩ := resolve_eq_ok_iff.1 h
  exact resolve_eq_ok_iff.2 ⟨hnul, hlong, follow_put kind hplace hfollow⟩

/-- What writing does: it puts a file where the path leads, unless a directory is there. -/
theorem write_eq_ok_iff {f after : Files} {p : Path} {content : List UInt8} :
    f.write p content = .ok after ↔
      ∃ place, f.resolve p = .ok place ∧ f.at? place ≠ some .directory ∧
        after = f.put place (.file content) := by
  unfold write modify
  cases hresolve : f.resolve p with
  | error e => simp
  | ok place =>
      cases hat : f.at? place with
      | none => simp [hat, eq_comm]
      | some kind => cases kind <;> simp [hat, eq_comm]

/-- What reading does: it gives the content of the file to which the path leads. -/
theorem read_eq_ok_iff {f : Files} {p : Path} {content : List UInt8} :
    f.read p = .ok content ↔
      ∃ place, f.resolve p = .ok place ∧ f.at? place = some (.file content) := by
  unfold read
  cases hresolve : f.resolve p with
  | error e => simp
  | ok place =>
      cases hat : f.at? place with
      | none => simp [hat]
      | some kind => cases kind <;> simp [hat]

theorem read_of_write {f after : Files} {p : Path} {content : List UInt8}
    (h : f.write p content = .ok after) : after.read p = .ok content := by
  obtain ⟨place, hresolve, hplace, rfl⟩ := write_eq_ok_iff.1 h
  have hbelow := not_isPrefixOf_of_at? hplace
  exact read_eq_ok_iff.2 ⟨place, resolve_put _ hplace hresolve, at?_put f place _ hbelow⟩

/-- What was stored is there, whatever was made on the way. -/
theorem read_of_store {f : Files} {dir p : Path} {content : List UInt8}
    (h : (f.store dir p content).1 = .ok ()) : (f.store dir p content).2.read p = .ok content := by
  unfold store at h ⊢
  cases hmade : f.makeDirectories dir with
  | mk made between =>
      cases made with
      | error e => simp [hmade] at h
      | ok made =>
          simp only [hmade] at h ⊢
          cases hwrite : between.write p content with
          | error e => simp [hwrite, settled] at h
          | ok after => exact read_of_write hwrite

end IndexedMail.Files
