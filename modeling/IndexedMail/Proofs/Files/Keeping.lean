import IndexedMail.Proofs.Files.Storage
import Mathlib.Data.List.Basic

/-!
# What changes of files leave alone

Making directories and writing a file leave all other files with their contents, and whatever path
led somewhere leads there still.
-/

namespace IndexedMail

namespace Files

/-- All files but the excepted ones are as before, and every path leads where it led. -/
structure Keeps (excepted : Place → Prop) (f g : Files) : Prop where
  base : g.base = f.base
  files : ∀ place, ¬ excepted place → ∀ content,
    g.at? place = some (.file content) ↔ f.at? place = some (.file content)
  ways : ∀ p place, f.resolve p = .ok place → g.resolve p = .ok place

variable {excepted : Place → Prop} {f g : Files}

namespace Keeps

theorem refl (excepted : Place → Prop) (f : Files) : Keeps excepted f f :=
  ⟨rfl, fun _ _ _ => Iff.rfl, fun _ _ h => h⟩

theorem trans {h : Files} (first : Keeps excepted f g) (second : Keeps excepted g h) :
    Keeps excepted f h :=
  { base := second.base.trans first.base
    files := fun place hplace content =>
      (second.files place hplace content).trans (first.files place hplace content)
    ways := fun p place hway => second.ways p place (first.ways p place hway) }

theorem mono {more : Place → Prop} (h : Keeps excepted f g)
    (hmore : ∀ place, excepted place → more place) : Keeps more f g :=
  { base := h.base
    files := fun place hplace => h.files place fun hexcepted => hplace (hmore place hexcepted)
    ways := h.ways }

/-- A file that is not excepted is read as before. -/
theorem read {p : Path} {place : Place} {content : List UInt8} (h : Keeps excepted f g)
    (hway : f.resolve p = .ok place) (hplace : ¬ excepted place)
    (hread : f.read p = .ok content) : g.read p = .ok content := by
  obtain ⟨place', hway', hfile⟩ := read_eq_ok_iff.1 hread
  obtain rfl : place = place' := by simpa [hway] using hway'
  exact read_eq_ok_iff.2 ⟨place, h.ways p place hway, (h.files place hplace content).2 hfile⟩

end Keeps

/-! ## One change -/

theorem keeps_put_file {place : Place} (content : List UInt8)
    (h : f.at? place ≠ some .directory) : Keeps (· = place) f (f.put place (.file content)) where
  base := rfl
  files := by
    intro other hother content'
    rw [at?_put_of_ne f _ (Ne.symm hother)]
  ways := fun _ _ hway => resolve_put _ h hway

theorem keeps_put_directory {place : Place} (h : f.at? place = none) :
    Keeps excepted f (f.put place .directory) where
  base := rfl
  files := by
    intro other _ content
    by_cases hsame : place = other
    · subst hsame
      have hnot : f.at? place ≠ some .directory := by simp [h]
      have hbelow := not_isPrefixOf_of_at? hnot
      simp [at?_put f place .directory hbelow, h]
    · rw [at?_put_of_ne f _ hsame]
  ways := fun _ _ hway => resolve_put _ (by simp [h]) hway

theorem keeps_of_modify {p : Path} {change : List UInt8 → List UInt8}
    (h : f.modify p change = .ok g) : ∃ place, f.resolve p = .ok place ∧ Keeps (· = place) f g := by
  unfold modify at h
  split at h
  · cases h
  · rename_i place hway
    split at h
    · cases h
    · rename_i content hat
      cases h
      exact ⟨place, hway, keeps_put_file _ (by simp [hat])⟩
    · rename_i hat
      cases h
      exact ⟨place, hway, keeps_put_file _ (by simp [hat])⟩

/-! ## Contents -/

/-- The content of the file at a place, if there is a file. -/
def content? (f : Files) (place : Place) : Option (List UInt8) :=
  match f.at? place with
  | some (.file content) => some content
  | _ => none

theorem content?_eq_some_iff {place : Place} {content : List UInt8} :
    f.content? place = some content ↔ f.at? place = some (.file content) := by
  unfold content?
  split <;> simp_all

theorem at?_ne_directory_of_content? {place : Place} (h : (f.content? place).isSome) :
    f.at? place ≠ some .directory := by
  intro hdirectory
  simp [content?, hdirectory] at h

theorem Keeps.content? {place : Place} (h : Keeps excepted f g) (hplace : ¬ excepted place) :
    g.content? place = f.content? place := by
  apply Option.ext
  intro content
  rw [content?_eq_some_iff, content?_eq_some_iff]
  exact h.files place hplace content

theorem content?_put_file {place : Place} (content : List UInt8)
    (h : f.at? place ≠ some .directory) :
    (f.put place (.file content)).content? place = some content := by
  rw [content?_eq_some_iff]
  exact at?_put f place _ (not_isPrefixOf_of_at? h)

/-- Appending puts the longer file where the path leads, unless a directory is there. -/
theorem append_eq_ok_iff {p : Path} {bytes : List UInt8} :
    f.append p bytes = .ok g ↔
      ∃ place, f.resolve p = .ok place ∧ f.at? place ≠ some .directory ∧
        g = f.put place (.file ((f.content? place).getD [] ++ bytes)) := by
  unfold append modify
  cases hresolve : f.resolve p with
  | error e => simp
  | ok place =>
      cases hat : f.at? place with
      | none => simp [hat, content?, eq_comm]
      | some kind => cases kind <;> simp [hat, content?, eq_comm]

theorem content?_of_append {p : Path} {place : Place} {bytes : List UInt8}
    (hway : f.resolve p = .ok place) (h : f.append p bytes = .ok g) :
    g.content? place = some ((f.content? place).getD [] ++ bytes) := by
  obtain ⟨place', hway', hplace, rfl⟩ := append_eq_ok_iff.1 h
  obtain rfl : place = place' := by simpa [hway] using hway'
  exact content?_put_file _ hplace

/-! ## Directories -/

theorem keeps_of_makeDirectory {p : Path} (h : f.makeDirectory p = .ok g) :
    Keeps excepted f g := by
  unfold makeDirectory at h
  split at h
  · cases h
  · split at h
    · cases h
    · rename_i hnone
      cases h
      exact keeps_put_directory hnone

theorem keeps_of_ensureDirectory {p : Path} (h : f.ensureDirectory p = .ok g) :
    Keeps excepted f g := by
  unfold ensureDirectory at h
  split at h
  · rename_i hmade
    cases h
    exact keeps_of_makeDirectory hmade
  · cases h
  · split at h
    · cases h
      exact Keeps.refl _ _
    · cases h

theorem keeps_settled {r : Except Error Files} (h : ∀ g, r = .ok g → Keeps excepted f g) :
    Keeps excepted f (settled f r).2 := by
  cases r with
  | ok g => exact h g rfl
  | error e => exact Keeps.refl _ _

/-- Directories are made from the first one that is missing, and each is a change of its own. -/
theorem keeps_makeDirectoriesFuel (fuel : Nat) (p : Path) (f : Files) :
    Keeps excepted f (makeDirectoriesFuel fuel p f).2 := by
  induction fuel generalizing p f with
  | zero => exact keeps_settled fun g hmade => keeps_of_ensureDirectory hmade
  | succ fuel ih =>
      unfold makeDirectoriesFuel
      split
      · have hparent := ih p.parent f
        split
        · rename_i between hmade
          rw [hmade] at hparent
          exact hparent.trans (keeps_settled fun g hg => keeps_of_ensureDirectory hg)
        · exact hparent
      · exact keeps_settled fun g hmade => keeps_of_ensureDirectory hmade

theorem keeps_makeDirectories (excepted : Place → Prop) (p : Path) (f : Files) :
    Keeps excepted f (f.makeDirectories p).2 :=
  keeps_makeDirectoriesFuel _ p f

/-! ## Storing -/

/-- A file can be written in a directory that can be made. -/
def Storable (dir p : Path) (f : Files) : Prop :=
  ∃ between, f.makeDirectories dir = (.ok (), between) ∧
    ∃ place, between.resolve p = .ok place ∧ between.at? place ≠ some .directory

/-- Whether a file can be stored is no question of its content. -/
theorem store_eq_ok_iff {dir p : Path} (content : List UInt8) :
    (f.store dir p content).1 = .ok () ↔ Storable dir p f := by
  unfold store Storable
  cases hmade : f.makeDirectories dir with
  | mk made between =>
      cases made with
      | error e => simp
      | ok made =>
          have hwrite := @write_eq_ok_iff between
          simp only [Prod.mk.injEq, true_and]
          constructor
          · intro h
            cases hwritten : between.write p content with
            | error e => simp [hwritten, settled] at h
            | ok after =>
                obtain ⟨place, hway, hplace, -⟩ := hwrite.1 hwritten
                exact ⟨between, rfl, place, hway, hplace⟩
          · rintro ⟨_, rfl, place, hway, hplace⟩
            rw [hwrite.2 ⟨place, hway, hplace, rfl⟩]
            rfl

/-- The one file that storing changes is that to which the path leads. -/
theorem keeps_of_store {dir p : Path} {content : List UInt8}
    (h : (f.store dir p content).1 = .ok ()) :
    ∃ place, (f.store dir p content).2.resolve p = .ok place ∧
      Keeps (· = place) f (f.store dir p content).2 := by
  obtain ⟨between, hmade, place, hway, hplace⟩ := (store_eq_ok_iff content).1 h
  have hdirectories : Keeps (· = place) f (f.makeDirectories dir).2 :=
    keeps_makeDirectories _ dir f
  have hwritten : between.write p content = .ok (between.put place (.file content)) :=
    write_eq_ok_iff.2 ⟨place, hway, hplace, rfl⟩
  have hstored : f.store dir p content = (.ok (), between.put place (.file content)) := by
    simp only [store, hmade, hwritten, settled]
  have hkeeps := keeps_put_file content hplace
  rw [hmade] at hdirectories
  rw [hstored]
  exact ⟨place, hkeeps.ways p place hway, hdirectories.trans hkeeps⟩

theorem keeps_of_store_error (excepted : Place → Prop) {dir p : Path} {content : List UInt8}
    {e : Error} (h : (f.store dir p content).1 = .error e) :
    Keeps excepted f (f.store dir p content).2 := by
  have hdirectories : Keeps excepted f (f.makeDirectories dir).2 :=
    keeps_makeDirectories _ dir f
  unfold store at h ⊢
  cases hmade : f.makeDirectories dir with
  | mk made between =>
      rw [hmade] at hdirectories
      cases made with
      | error e => exact hdirectories
      | ok made =>
          simp only [hmade] at h ⊢
          cases hwritten : between.write p content with
          | error e => exact hdirectories
          | ok after => simp [hwritten, settled] at h

end Files

/-! ## The end of a path -/

namespace Path

theorem pieces_of_not_mem {cs : List Char} (h : '/' ∉ cs) : pieces cs = [cs] := by
  induction cs with
  | nil => rfl
  | cons c rest ih =>
      rw [List.mem_cons, not_or] at h
      have hc : (c == '/') = false := by simpa using Ne.symm h.1
      simp [pieces, hc, ih h.2]

theorem rootOf_of_not_mem {cs : List Char} (h : '/' ∉ cs) : rootOf cs = "" := by
  cases cs with
  | nil => rfl
  | cons c rest =>
      have hc : c ≠ '/' := fun hc => h (by simp [hc])
      unfold rootOf
      split <;> simp_all

theorem isName_of_two_le {cs : List Char} (h : 2 ≤ cs.length) : isName cs = true := by
  have hempty : cs ≠ [] := by
    rintro rfl
    simp at h
  have hdot : cs ≠ ['.'] := by
    rintro rfl
    simp at h
  simp [isName, hempty, hdot]

/-- A path goes on by a whole name. -/
theorem getLast?_child {piece : String} (hslash : '/' ∉ piece.toList)
    (hlength : 2 ≤ piece.toList.length) (p : Path) :
    (p.child piece).names.getLast? = some piece := by
  have hname := isName_of_two_le hlength
  have hspelled : ofString piece = ⟨"", [piece]⟩ := by
    simp [ofString, pieces_of_not_mem hslash, rootOf_of_not_mem hslash, hname]
  simp [child, join, hspelled]

theorem getLast?_child_append {stem ending : String} (hstem : '/' ∉ stem.toList)
    (hending : '/' ∉ ending.toList) (hlength : 2 ≤ ending.toList.length) (p : Path) :
    (p.child (stem ++ ending)).names.getLast? = some (stem ++ ending) := by
  apply getLast?_child
  · simp [hstem, hending]
  · simp only [String.toList_append, List.length_append]
    omega

/-- Leaving out detours does not change where a path ends. -/
theorem getLast?_straight {p : Path} {name : String} (hlast : p.names.getLast? = some name)
    (hname : name ≠ "..") (base : List String) :
    (p.straight base).names.getLast? = some name := by
  obtain ⟨before, hnames⟩ := List.getLast?_eq_some_iff.1 hlast
  have hdots : (name == "..") = false := by simpa using hname
  unfold straight
  split <;> simp [hnames, List.foldl_append, goneBy, hdots]

end Path

namespace Files

variable {f : Files}

theorem eq_append_of_enter {place next : Place} {name : String} (hname : name ≠ "..")
    (h : f.enter place name = .ok next) : next = place ++ [name] := by
  unfold enter at h
  split at h
  · cases h
  · cases h
  · split at h
    · cases h
    · rw [if_neg (by simpa using hname)] at h
      cases h
      rfl

theorem getLast?_of_follow {start place : Place} {names : List String} {name : String}
    (hlast : names.getLast? = some name) (hname : name ≠ "..")
    (h : f.follow start names = .ok place) : place.getLast? = some name := by
  induction names generalizing start with
  | nil => cases hlast
  | cons first rest ih =>
      rw [follow] at h
      cases henter : f.enter start first with
      | error cause => simp [henter] at h
      | ok next =>
          rw [henter] at h
          -- Only the last step matters: what comes before it is where that step starts.
          cases rest with
          | nil =>
              obtain rfl : first = name := by simpa using hlast
              obtain rfl : next = place := by simpa [follow] using h
              simp [eq_append_of_enter hname henter]
          | cons second rest => exact ih (by simpa using hlast) h

/-- A path leads to a place of the name in which it ends. -/
theorem getLast?_of_resolve {p : Path} {place : Place} {name : String}
    (hlast : p.names.getLast? = some name) (hname : name ≠ "..")
    (h : f.resolve p = .ok place) : place.getLast? = some name :=
  getLast?_of_follow hlast hname (resolve_eq_ok_iff.1 h).2.2

end Files

end IndexedMail
