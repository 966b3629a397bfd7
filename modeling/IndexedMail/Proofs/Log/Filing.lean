import IndexedMail.Log.Logger
import IndexedMail.Proofs.Files.Keeping
import IndexedMail.Proofs.Text.Numeral

/-!
# The file of a log

Configuring a log and writing records to it change no file but that of the log.
-/

namespace IndexedMail

namespace Calendar

theorem isDigit_of_mem_padded {width n : Nat} {c : Char} (h : c ∈ (padded width n).toList) :
    Text.isDigit c = true := by
  simp only [padded, String.toList_ofList, List.mem_append] at h
  rcases h with h | h
  · rw [(List.mem_replicate.1 h).2]
    decide
  · exact Text.Numeral.isDigit_of_mem_ofNat h

theorem not_mem_padded {c : Char} (hc : Text.isDigit c = false) (width n : Nat) :
    c ∉ (padded width n).toList :=
  Text.not_mem_of_isDigit hc fun _ => isDigit_of_mem_padded

end Calendar

namespace Log

open Files (Keeps)

/-- A log writes to the file at a place. -/
def Sink.WritesTo (s : Sink) (f : Files) (place : Files.Place) : Prop :=
  ∃ path, s.file = some path ∧ f.resolve (path.straight f.base) = .ok place

variable {now : Calendar.Moment} {s : Sink} {f : Files} {excepted : Files.Place → Prop}

/-! ## Records -/

/-- A line changes no file but the one at whose end it is written. -/
theorem keeps_appendLine {path : Path} {place : Files.Place} (line : Text.Wide)
    (hway : f.resolve path = .ok place) (hexcepted : excepted place) :
    Keeps excepted f (appendLine path line f) := by
  unfold appendLine
  split
  · exact Keeps.refl _ _
  · split
    · rename_i g happended
      obtain ⟨place', hway', hkeeps⟩ := Files.keeps_of_modify happended
      obtain rfl : place = place' := by simpa [hway] using hway'
      exact hkeeps.mono fun q hq => hq ▸ hexcepted
    · exact Keeps.refl _ _

theorem keeps_filed (now : Calendar.Moment) (r : Record)
    (h : ∀ path, s.file = some path →
      ∃ place, f.resolve (path.straight f.base) = .ok place ∧ excepted place) :
    Keeps excepted f (filed now (some s) r f) := by
  unfold filed
  split
  · rename_i path sink hfile hsink
    cases hsink
    split
    · obtain ⟨place, hway, hexcepted⟩ := h path hfile
      exact keeps_appendLine _ hway hexcepted
    · exact Keeps.refl _ _
  · exact Keeps.refl _ _

theorem keeps_foldl_filed (records : List Record)
    (h : ∀ path, s.file = some path →
      ∃ place, f.resolve (path.straight f.base) = .ok place ∧ excepted place) :
    Keeps excepted f (records.foldl (fun f r => filed now (some s) r f) f) := by
  -- The path of the log leads to one place throughout, since every step keeps the ways.
  induction records generalizing f with
  | nil => exact Keeps.refl _ _
  | cons r rest ih =>
      have hstep := keeps_filed now r h
      refine hstep.trans (ih ?_)
      intro path hpath
      obtain ⟨place, hway, hexcepted⟩ := h path hpath
      rw [hstep.base]
      exact ⟨place, hstep.ways _ place hway, hexcepted⟩

theorem keeps_write (now : Calendar.Moment) (records : List Record)
    (h : ∀ path, s.file = some path →
      ∃ place, f.resolve (path.straight f.base) = .ok place ∧ excepted place) :
    Keeps excepted f (write now (some s) records f).2 :=
  keeps_foldl_filed records h

/-! ## Opening -/

/-- The file of a log that has been opened is the one that its requests ask for. -/
theorem keeps_openFile {r : Request} {file : Option Path} {g : Files}
    (h : openFile now r f = (.ok file, g)) :
    (file = none ∧ g = f) ∨
      ∃ place, file = some (filePath now r.dir (r.action.getD "")) ∧
        g.resolve ((filePath now r.dir (r.action.getD "")).straight g.base) = .ok place ∧
        g.content? place = some ((f.content? place).getD []) ∧ Keeps (· = place) f g := by
  unfold openFile at h
  simp only at h
  split at h
  · cases h
    exact .inl ⟨rfl, rfl⟩
  · have hmade := fun excepted =>
      Files.keeps_makeDirectories excepted (actionDir r.dir (r.action.getD "")) f
    split at h
    · cases h
    · rename_i between hmake
      rw [hmake] at hmade
      split at h
      · cases h
      · rename_i after happended
        cases h
        obtain ⟨place, hway, hkeeps⟩ := Files.keeps_of_modify happended
        have hbefore : between.content? place = f.content? place :=
          (hmade fun _ => False).content? id
        have hcontent := Files.content?_of_append hway happended
        rw [hbefore, List.append_nil] at hcontent
        have hopened := hkeeps.ways _ place hway
        rw [← hkeeps.base] at hopened
        exact .inr ⟨place, rfl, hopened, hcontent, (hmade _).trans hkeeps⟩

/-- The directories that were made on the way are all that is left of a file that was refused. -/
theorem keeps_openFile_error {r : Request} {e : Error} {g : Files}
    (h : openFile now r f = (.error e, g)) : Keeps excepted f g := by
  unfold openFile at h
  simp only at h
  split at h
  · cases h
  · have hmade := Files.keeps_makeDirectories excepted (actionDir r.dir (r.action.getD "")) f
    split at h
    · rename_i e between hmake
      cases h
      rw [hmake] at hmade
      exact hmade
    · rename_i between hmake
      rw [hmake] at hmade
      split at h
      · cases h
        exact hmade
      · cases h

theorem keeps_configure {r : Request} {g : Files} (h : configure now r f = (.ok s, g)) :
    Keeps (s.WritesTo g) f g ∧
      ∀ path, s.file = some path → path = filePath now r.dir (r.action.getD "") ∧
        ∃ place, g.resolve (path.straight g.base) = .ok place := by
  unfold configure at h
  split at h
  · cases h
  · split at h
    · cases h
    · rename_i file after hopened
      cases h
      rcases keeps_openFile hopened with ⟨rfl, rfl⟩ | ⟨place, rfl, hway, -, hkeeps⟩
      · exact ⟨Keeps.refl _ _, fun path hpath => by cases hpath⟩
      · refine ⟨hkeeps.mono fun q hq => ⟨_, rfl, hq ▸ hway⟩, ?_⟩
        intro path hpath
        cases hpath
        exact ⟨rfl, place, hway⟩

/-- A log file is named for its action and the time. -/
theorem getLast?_filePath (now : Calendar.Moment) (dir : String) {action : String}
    (haction : '/' ∉ action.toList) :
    (filePath now dir action).names.getLast? = some (action ++ "_" ++ fileStamp now ++ ".log") := by
  have hstamp : ∀ width n, '/' ∉ (Calendar.padded width n).toList :=
    Calendar.not_mem_padded (by decide)
  exact Path.getLast?_child_append (by simp [fileStamp, haction, hstamp]) (by decide) (by decide) _

end Log

end IndexedMail
