import IndexedMail.Proofs.Log.Filing

/-!
# Histories of a log

A record goes where the last successful configuration says, once to the console, once to the
file and nowhere else.  What a log file holds in the end are therefore the lines that were
recorded while it was the file of the log, except those that cannot be encoded: of these the file
has nothing.
-/

namespace IndexedMail.Log

/-- The place of the file to which a log writes. -/
def Sink.place? (s : Sink) (f : Files) : Option Files.Place :=
  s.file.bind fun path => (f.resolve (path.straight f.base)).toOption

/-- The bytes by which a record is filed: those of its line, or none if that cannot be encoded. -/
def lineBytes (now : Calendar.Moment) (r : Record) : List UInt8 :=
  match (r.line now).encode with
  | .ok bytes => bytes
  | .error _ => []

/-- What is done with a log, each thing at its own time. -/
inductive Step where
  | configure (now : Calendar.Moment) (r : Request)
  | record (now : Calendar.Moment) (r : Record)
  deriving DecidableEq, Repr

/-- A log with the console and the files that it writes to. -/
structure State where
  sink : Option Sink
  console : Text.Wide
  files : Files

namespace State

/-- A log that has not been configured, among some files. -/
def start (f : Files) : State :=
  { sink := none, console := [], files := f }

/-- Do one step; a configuration that fails leaves the log as it is. -/
def step (st : State) : Step → State
  | .configure now r =>
      match Log.configure now r st.files with
      | (.error _, f) => { st with files := f }
      | (.ok sink, f) => { st with sink := some sink, files := f }
  | .record now r =>
      let written := write now st.sink [r] st.files
      { st with console := st.console ++ written.1, files := written.2 }

def run (st : State) (steps : List Step) : State :=
  steps.foldl step st

/-- The place of the file of the log. -/
def file? (st : State) : Option Files.Place :=
  st.sink.bind fun s => s.place? st.files

/-- The bytes that one step adds to the file at a place. -/
def added (st : State) (place : Files.Place) : Step → List UInt8
  | .configure _ _ => []
  | .record now r =>
      if st.file? = some place ∧ debugLevel ≤ r.level then lineBytes now r else []

/-- The lines that are recorded in steps while the file at a place is that of the log. -/
def recorded (place : Files.Place) (st : State) : List Step → List UInt8
  | [] => []
  | s :: rest => st.added place s ++ recorded place (st.step s) rest

end State

variable {now : Calendar.Moment} {r : Request} {s : Sink} {f g : Files} {place : Files.Place}

/-! ## The file of a log stays where it is -/

theorem Sink.place?_eq_some_iff : s.place? f = some place ↔ s.WritesTo f place := by
  unfold place? WritesTo
  cases s.file with
  | none => simp
  | some path => cases hway : f.resolve (path.straight f.base) <;> simp [hway, Except.toOption]

/-- The file of a log, if it has one, is there. -/
def Sink.Anchored (s : Sink) (f : Files) : Prop :=
  ∀ path, s.file = some path → ∃ place, s.place? f = some place ∧ (f.content? place).isSome

/-- Paths lead where they led, and no file is gone. -/
structure Grows (f g : Files) : Prop where
  base : g.base = f.base
  ways : ∀ p place, f.resolve p = .ok place → g.resolve p = .ok place
  files : ∀ place, (f.content? place).isSome → (g.content? place).isSome

theorem Grows.place? (h : Grows f g) (hs : s.Anchored f) : s.place? g = s.place? f := by
  cases hfile : s.file with
  | none => simp [Sink.place?, hfile]
  | some path =>
      obtain ⟨place, hplace, -⟩ := hs path hfile
      rw [hplace, Sink.place?_eq_some_iff]
      obtain ⟨path', hfile', hway⟩ := Sink.place?_eq_some_iff.1 hplace
      refine ⟨path', hfile', ?_⟩
      rw [h.base]
      exact h.ways _ place hway

theorem Sink.Anchored.grows (hs : s.Anchored f) (h : Grows f g) : s.Anchored g := by
  intro path hfile
  obtain ⟨place, hplace, hthere⟩ := hs path hfile
  exact ⟨place, by rw [h.place? hs, hplace], h.files place hthere⟩

theorem Sink.Anchored.content? (hs : s.Anchored f) (hplace : s.place? f = some place) :
    (f.content? place).isSome := by
  obtain ⟨path, hfile, -⟩ := Sink.place?_eq_some_iff.1 hplace
  obtain ⟨place', hplace', hthere⟩ := hs path hfile
  rw [hplace] at hplace'
  cases hplace'
  exact hthere

theorem Sink.Anchored.isSome_place? (hs : s.Anchored f) :
    (s.place? f).isSome = s.file.isSome := by
  cases hfile : s.file with
  | none => simp [Sink.place?, hfile]
  | some path =>
      obtain ⟨place, hplace, -⟩ := hs path hfile
      rw [hplace]
      rfl

/-! ## One record -/

theorem takes_of_file {path : Path} (hfile : s.file = some path) (r : Record) :
    s.takes r = true ↔ debugLevel ≤ r.level := by
  simp [Sink.takes, Sink.threshold, hfile]

theorem filed_of_place? {r : Record} {bytes : List UInt8} (hs : s.Anchored f)
    (hplace : s.place? f = some place) (hlevel : debugLevel ≤ r.level)
    (hbytes : (r.line now).encode = .ok bytes) :
    filed now (some s) r f = f.put place (.file ((f.content? place).getD [] ++ bytes)) := by
  obtain ⟨path, hfile, hway⟩ := Sink.place?_eq_some_iff.1 hplace
  have happended : f.append (path.straight f.base) bytes =
      .ok (f.put place (.file ((f.content? place).getD [] ++ bytes))) :=
    Files.append_eq_ok_iff.2
      ⟨place, hway, Files.at?_ne_directory_of_content? (hs.content? hplace), rfl⟩
  simp [filed, hfile, (takes_of_file hfile r).2 hlevel, appendLine, hbytes, happended]

/-- A line that cannot be encoded is lost. -/
theorem filed_of_encode_error {r : Record} {e : Text.Wide.EncodeError}
    (h : (r.line now).encode = .error e) : filed now (some s) r f = f := by
  cases hfile : s.file with
  | none => simp [filed, hfile]
  | some path => simp [filed, hfile, appendLine, h]

theorem filed_of_not_le {r : Record} (hlevel : ¬ debugLevel ≤ r.level) :
    filed now (some s) r f = f := by
  cases hfile : s.file with
  | none => simp [filed, hfile]
  | some path =>
      have hnot : s.takes r = false := by
        rw [← Bool.not_eq_true, takes_of_file hfile]
        exact hlevel
      simp [filed, hfile, hnot]

/-- A record changes the file of the log, and no other. -/
theorem content?_filed (hs : s.Anchored f) (now : Calendar.Moment) (r : Record)
    (place : Files.Place) :
    (filed now (some s) r f).content? place =
      if s.place? f = some place ∧ debugLevel ≤ r.level then
        (f.content? place).map (· ++ lineBytes now r)
      else f.content? place := by
  by_cases hlevel : debugLevel ≤ r.level
  · cases htarget : s.place? f with
    | none =>
        have hfile : s.file = none := by simpa [htarget] using hs.isSome_place?
        simp [filed, hfile]
    | some target =>
        have hthere := hs.content? htarget
        have hdirectory := Files.at?_ne_directory_of_content? hthere
        cases hencoded : (r.line now).encode with
        | error e =>
            rw [filed_of_encode_error hencoded]
            simp [lineBytes, hencoded]
        | ok bytes =>
            rw [filed_of_place? hs htarget hlevel hencoded]
            by_cases hplace : target = place
            · subst hplace
              obtain ⟨content, hcontent⟩ := Option.isSome_iff_exists.1 hthere
              rw [Files.content?_put_file _ hdirectory]
              simp [hcontent, hlevel, lineBytes, hencoded]
            · rw [(Files.keeps_put_file _ hdirectory).content? (Ne.symm hplace)]
              simp [hplace]
  · rw [filed_of_not_le hlevel, if_neg fun h => hlevel h.2]

theorem grows_filed (hs : s.Anchored f) (now : Calendar.Moment) (r : Record) :
    Grows f (filed now (some s) r f) := by
  have hkeeps : Files.Keeps (fun _ => True) f (filed now (some s) r f) := by
    apply keeps_filed
    intro path hfile
    obtain ⟨place, hplace, -⟩ := hs path hfile
    obtain ⟨path', hfile', hway⟩ := Sink.place?_eq_some_iff.1 hplace
    obtain rfl : path = path' := Option.some.inj (hfile.symm.trans hfile')
    exact ⟨place, hway, trivial⟩
  refine ⟨hkeeps.base, hkeeps.ways, ?_⟩
  intro place hthere
  rw [content?_filed hs]
  split
  · rw [Option.isSome_map]
    exact hthere
  · exact hthere

/-! ## One configuration -/

theorem configure_eq_ok (h : Log.configure now r f = (.ok s, g)) :
    level r.level = .ok s.level ∧ openFile now r f = (.ok s.file, g) := by
  unfold Log.configure at h
  split at h
  · cases h
  · rename_i hlevel
    split at h
    · cases h
    · rename_i hopened
      cases h
      exact ⟨hlevel, hopened⟩

/-- A configuration that succeeds makes the file of the log, unless it is there, and no other. -/
theorem content?_configure (h : Log.configure now r f = (.ok s, g)) (place : Files.Place) :
    g.content? place =
      if s.place? g = some place then some ((f.content? place).getD []) else f.content? place := by
  obtain ⟨-, hopened⟩ := configure_eq_ok h
  rcases keeps_openFile hopened with ⟨hfile, rfl⟩ | ⟨target, hfile, hway, hcontent, hkeeps⟩
  · simp [Sink.place?, hfile]
  · rw [Sink.place?_eq_some_iff.2 ⟨_, hfile, hway⟩]
    by_cases hplace : target = place
    · subst hplace
      rw [if_pos rfl, hcontent]
    · rw [if_neg (by simpa using hplace), hkeeps.content? (Ne.symm hplace)]

/-- A file is read as before once a log has been opened, even if it is the file of the log. -/
theorem read_of_configure {p : Path} {content : List UInt8}
    (h : Log.configure now r f = (.ok s, g)) (hread : f.read p = .ok content) :
    g.read p = .ok content := by
  obtain ⟨place, hway, hfile⟩ := Files.read_eq_ok_iff.1 hread
  obtain ⟨hkeeps, -⟩ := keeps_configure h
  have hcontent : g.content? place = some content := by
    rw [content?_configure h, Files.content?_eq_some_iff.2 hfile]
    simp
  exact Files.read_eq_ok_iff.2
    ⟨place, hkeeps.ways p place hway, Files.content?_eq_some_iff.1 hcontent⟩

theorem keeps_configure_error {e : Error} {excepted : Files.Place → Prop}
    (h : Log.configure now r f = (.error e, g)) : Files.Keeps excepted f g := by
  unfold Log.configure at h
  split at h
  · cases h
    exact Files.Keeps.refl _ _
  · split at h
    · rename_i e after hopened
      cases h
      exact keeps_openFile_error hopened
    · cases h

theorem grows_of_keeps (h : Files.Keeps (fun _ => False) f g) : Grows f g where
  base := h.base
  ways := h.ways
  files := fun place hthere => by
    rw [h.content? id]
    exact hthere

theorem anchored_configure (h : Log.configure now r f = (.ok s, g)) : s.Anchored g := by
  intro path hfile
  obtain ⟨-, hpath⟩ := keeps_configure h
  obtain ⟨-, place, hway⟩ := hpath path hfile
  have hplace := Sink.place?_eq_some_iff.2 ⟨path, hfile, hway⟩
  refine ⟨place, hplace, ?_⟩
  rw [content?_configure h, if_pos hplace]
  rfl

namespace State

/-! ## Steps -/

variable {st : State}

/-- The file of the log, if it has one, is there. -/
def Sound (st : State) : Prop :=
  ∀ s, st.sink = some s → s.Anchored st.files

theorem sound_start (f : Files) : (start f).Sound := by
  intro s hs
  cases hs

theorem Sound.content?_file? (h : st.Sound) (hplace : st.file? = some place) :
    (st.files.content? place).isSome := by
  obtain ⟨s, hs, hfile⟩ := Option.bind_eq_some_iff.1 hplace
  exact (h s hs).content? hfile

theorem step_configure_ok (h : Log.configure now r st.files = (.ok s, g)) :
    st.step (.configure now r) = { st with sink := some s, files := g } := by
  simp only [step, h]

theorem step_configure_error {e : Error} (h : Log.configure now r st.files = (.error e, g)) :
    st.step (.configure now r) = { st with files := g } := by
  simp only [step, h]

theorem step_record (now : Calendar.Moment) (r : Record) :
    st.step (.record now r) =
      { st with
        console := st.console ++ consoleText now st.sink r
        files := filed now st.sink r st.files } := by
  simp [step, write]

theorem Sound.grows {after : State} (h : st.Sound) (hsink : after.sink = st.sink)
    (hgrows : Grows st.files after.files) : after.Sound := by
  intro s hs
  rw [hsink] at hs
  exact (h s hs).grows hgrows

/-- Without a new configuration the file of the log stays where it is. -/
theorem Sound.file?_eq {after : State} (h : st.Sound) (hsink : after.sink = st.sink)
    (hgrows : Grows st.files after.files) : after.file? = st.file? := by
  unfold file?
  rw [hsink]
  cases hs : st.sink with
  | none => rfl
  | some s => exact hgrows.place? (h s hs)

theorem grows_record (h : st.Sound) (now : Calendar.Moment) (r : Record) :
    Grows st.files (st.step (.record now r)).files := by
  rw [step_record]
  cases hs : st.sink with
  | none => exact ⟨rfl, fun _ _ hway => hway, fun _ hthere => hthere⟩
  | some s => exact grows_filed (h s hs) now r

theorem Sound.file?_record (h : st.Sound) (now : Calendar.Moment) (r : Record) :
    (st.step (.record now r)).file? = st.file? :=
  h.file?_eq (by rw [step_record]) (grows_record h now r)

theorem Sound.file?_refused {e : Error} (h : st.Sound)
    (hrefused : Log.configure now r st.files = (.error e, g)) :
    (st.step (.configure now r)).file? = st.file? := by
  rw [step_configure_error hrefused]
  exact h.file?_eq rfl (grows_of_keeps (keeps_configure_error hrefused))

theorem Sound.step (h : st.Sound) (s : Step) : (st.step s).Sound := by
  cases s with
  | record now r => exact h.grows (by rw [step_record]) (grows_record h now r)
  | configure now r =>
      rcases hconfigured : Log.configure now r st.files with ⟨e | sink, g⟩
      · rw [step_configure_error hconfigured]
        exact h.grows rfl (grows_of_keeps (keeps_configure_error hconfigured))
      · rw [step_configure_ok hconfigured]
        intro s hs
        cases hs
        exact anchored_configure hconfigured

theorem Sound.run (h : st.Sound) (steps : List Step) : (st.run steps).Sound := by
  induction steps generalizing st with
  | nil => exact h
  | cons s rest ih => exact ih (h.step s)

theorem content?_step_record (h : st.Sound) (now : Calendar.Moment) (r : Record)
    (place : Files.Place) :
    ((st.step (.record now r)).files.content? place).getD [] =
        (st.files.content? place).getD [] ++ st.added place (.record now r) ∧
      ((st.step (.record now r)).files.content? place).isSome =
        (st.files.content? place).isSome := by
  rw [step_record]
  cases hs : st.sink with
  | none =>
      have hnone : st.file? = none := by simp [file?, hs]
      simp [filed, added, hnone]
  | some s =>
      have hplace : st.file? = s.place? st.files := by simp [file?, hs]
      rw [content?_filed (h s hs), ← hplace]
      by_cases hgoes : st.file? = some place ∧ debugLevel ≤ r.level
      · obtain ⟨content, hcontent⟩ := Option.isSome_iff_exists.1 (h.content?_file? hgoes.1)
        simp [added, hgoes, hcontent]
      · simp [added, hgoes]

theorem content?_step_configure (h : st.Sound) (now : Calendar.Moment) (r : Request)
    (place : Files.Place) :
    ((st.step (.configure now r)).files.content? place).getD [] =
        (st.files.content? place).getD [] ∧
      (((st.step (.configure now r)).files.content? place).isSome ↔
        (st.files.content? place).isSome ∨ (st.step (.configure now r)).file? = some place) := by
  rcases hconfigured : Log.configure now r st.files with ⟨e | sink, g⟩
  · have hkeeps : Files.Keeps (fun _ => False) st.files g := keeps_configure_error hconfigured
    rw [h.file?_refused hconfigured, step_configure_error hconfigured, hkeeps.content? id]
    exact ⟨rfl, .inl, fun hor => hor.elim id h.content?_file?⟩
  · rw [step_configure_ok hconfigured]
    have hfile : State.file? { st with sink := some sink, files := g } = sink.place? g := rfl
    rw [hfile, content?_configure hconfigured]
    by_cases hplace : sink.place? g = some place <;> simp [hplace]

/-- One step adds to the file of the log what it records; a file that is new was empty before. -/
theorem content?_step (h : st.Sound) (s : Step) (place : Files.Place) :
    ((st.step s).files.content? place).getD [] =
        (st.files.content? place).getD [] ++ st.added place s ∧
      (((st.step s).files.content? place).isSome ↔
        (st.files.content? place).isSome ∨ (st.step s).file? = some place) := by
  cases s with
  | record now r =>
      obtain ⟨hcontent, hthere⟩ := content?_step_record h now r place
      rw [h.file?_record, hthere]
      exact ⟨hcontent, .inl, fun hor => hor.elim id h.content?_file?⟩
  | configure now r =>
      obtain ⟨hcontent, hthere⟩ := content?_step_configure h now r place
      rw [hcontent, added, List.append_nil]
      exact ⟨rfl, hthere⟩

/-! ## Runs -/

theorem run_cons (st : State) (s : Step) (rest : List Step) :
    st.run (s :: rest) = (st.step s).run rest := rfl

theorem run_append (st : State) (steps more : List Step) :
    st.run (steps ++ more) = (st.run steps).run more :=
  List.foldl_append

/-- In a run nothing is lost from a file, and only what belongs there is added. -/
theorem content?_run (h : st.Sound) (steps : List Step) (place : Files.Place) :
    ((st.run steps).files.content? place).getD [] =
        (st.files.content? place).getD [] ++ recorded place st steps ∧
      (((st.run steps).files.content? place).isSome ↔
        (st.files.content? place).isSome ∨
          ∃ before, before <+: steps ∧ (st.run before).file? = some place) := by
  -- From the front, since what a step adds depends on the log that the steps before it have left.
  induction steps generalizing st with
  | nil =>
      refine ⟨(List.append_nil _).symm, .inl, ?_⟩
      rintro (hthere | ⟨before, hbefore, hfile⟩)
      · exact hthere
      · rw [List.prefix_nil.1 hbefore] at hfile
        exact h.content?_file? hfile
  | cons s rest ih =>
      obtain ⟨hadded, hstep⟩ := content?_step h s place
      obtain ⟨hrest, hrun⟩ := ih (h.step s)
      rw [run_cons]
      refine ⟨by rw [hrest, hadded, recorded, List.append_assoc], ?_⟩
      rw [hrun, hstep]
      constructor
      · rintro ((hthere | hfile) | ⟨before, hbefore, hfile⟩)
        · exact .inl hthere
        · exact .inr ⟨[s], by simp, hfile⟩
        · exact .inr ⟨s :: before, by simpa using hbefore, hfile⟩
      · rintro (hthere | ⟨before, hbefore, hfile⟩)
        · exact .inl (.inl hthere)
        · cases before with
          | nil => exact .inl (.inl (h.content?_file? hfile))
          | cons first before =>
              obtain ⟨hfirst, hbefore⟩ := List.cons_prefix_cons.1 hbefore
              rw [hfirst] at hfile
              exact .inr ⟨before, hbefore, hfile⟩

end State

/-! ## The configuration in force -/

/-- The level and the file that the last successful configuration in some steps has chosen. -/
inductive InForce (start : Files) : List Step → Int → Option Files.Place → Prop where
  | chosen {before : List Step} {now : Calendar.Moment} {r : Request} {s : Sink} {g : Files}
      (h : Log.configure now r ((State.start start).run before).files = (.ok s, g)) :
      InForce start (before ++ [.configure now r]) s.level (s.place? g)
  | refused {before : List Step} {level : Int} {file : Option Files.Place} {now : Calendar.Moment}
      {r : Request} {e : Error} {g : Files} (h : InForce start before level file)
      (hrefused : Log.configure now r ((State.start start).run before).files = (.error e, g)) :
      InForce start (before ++ [.configure now r]) level file
  | recorded {before : List Step} {level : Int} {file : Option Files.Place} (now : Calendar.Moment)
      (r : Record) (h : InForce start before level file) :
      InForce start (before ++ [.record now r]) level file

variable {start : Files} {steps : List Step} {level : Int} {file : Option Files.Place}

theorem State.sound_run_start (start : Files) (steps : List Step) :
    ((State.start start).run steps).Sound :=
  (State.sound_start start).run steps

theorem State.run_concat (st : State) (before : List Step) (s : Step) :
    st.run (before ++ [s]) = (st.run before).step s := by
  rw [State.run_append]
  rfl

theorem InForce.sink (h : InForce start steps level file) :
    ∃ s, ((State.start start).run steps).sink = some s ∧ s.level = level ∧
      ((State.start start).run steps).file? = file := by
  induction h with
  | chosen h =>
      rw [State.run_concat, State.step_configure_ok h]
      exact ⟨_, rfl, rfl, rfl⟩
  | refused h hrefused ih =>
      obtain ⟨s, hs, hlevel, hfile⟩ := ih
      refine ⟨s, ?_, hlevel, ?_⟩
      · rw [State.run_concat, State.step_configure_error hrefused]
        exact hs
      · rw [State.run_concat, (State.sound_run_start start _).file?_refused hrefused]
        exact hfile
  | recorded now r h ih =>
      obtain ⟨s, hs, hlevel, hfile⟩ := ih
      refine ⟨s, ?_, hlevel, ?_⟩
      · rw [State.run_concat, State.step_record]
        exact hs
      · rw [State.run_concat, (State.sound_run_start start _).file?_record]
        exact hfile

/-- What is in force is what the log has at the end of the steps. -/
theorem inForce_of_sink (hs : ((State.start start).run steps).sink = some s) :
    InForce start steps s.level ((State.start start).run steps).file? := by
  -- From the end, since the last configuration that succeeded decides.
  induction steps using List.reverseRecOn generalizing s with
  | nil => cases hs
  | append_singleton before last ih =>
      have hsound := State.sound_run_start start before
      rw [State.run_concat] at hs ⊢
      cases last with
      | record now r =>
          rw [hsound.file?_record]
          rw [State.step_record] at hs
          exact .recorded now r (ih hs)
      | configure now r =>
          rcases hconfigured :
            Log.configure now r ((State.start start).run before).files with ⟨e | sink, g⟩
          · rw [hsound.file?_refused hconfigured]
            rw [State.step_configure_error hconfigured] at hs
            exact .refused (ih hs) hconfigured
          · rw [State.step_configure_ok hconfigured] at hs ⊢
            cases hs
            exact .chosen hconfigured

theorem exists_inForce_iff {place : Files.Place} :
    ((State.start start).run steps).file? = some place ↔
      ∃ level, InForce start steps level (some place) := by
  constructor
  · intro hfile
    obtain ⟨s, hs, -⟩ := Option.bind_eq_some_iff.1 hfile
    have hforce := inForce_of_sink hs
    rw [hfile] at hforce
    exact ⟨s.level, hforce⟩
  · rintro ⟨level, h⟩
    obtain ⟨s, -, -, hfile⟩ := h.sink
    exact hfile

/-! ## Where records go -/

/--
A record is put once on the console if it reaches the level and the threshold of the log, once at
the end of the file if there is one, the record reaches the level of diagnosis and its line can be
encoded, and nowhere else.
-/
structure Routed (level : Int) (file : Option Files.Place) (now : Calendar.Moment) (r : Record)
    (before after : State) : Prop where
  console : after.console = before.console ++
    if level ≤ r.level ∧
        (if file.isSome then debugLevel
          else if level = unchosenLevel then warningLevel else level) ≤ r.level then r.line now
    else []
  filed : ∀ place, file = some place → debugLevel ≤ r.level →
    ∀ bytes, (r.line now).encode = .ok bytes →
      ∃ content, before.files.content? place = some content ∧
        after.files.content? place = some (content ++ bytes)
  lost : ∀ e, (r.line now).encode = .error e →
    ∀ place, after.files.content? place = before.files.content? place
  elsewhere : ∀ place, ¬ (file = some place ∧ debugLevel ≤ r.level) →
    after.files.content? place = before.files.content? place

theorem State.Sound.routed {st : State} (h : st.Sound) (hs : st.sink = some s)
    (now : Calendar.Moment) (r : Record) :
    Routed s.level st.file? now r st (st.step (.record now r)) := by
  have hplace : st.file? = s.place? st.files := by simp [State.file?, hs]
  rw [State.step_record, hs, hplace]
  have hfiled := content?_filed (h s hs) now r
  refine ⟨?_, ?_, ?_, ?_⟩
  · unfold consoleText Sink.takes Sink.threshold
    rw [(h s hs).isSome_place?]
    simp only [Bool.and_eq_true, decide_eq_true_eq, and_comm]
  · intro place hfile hlevel bytes hbytes
    obtain ⟨content, hcontent⟩ := Option.isSome_iff_exists.1 ((h s hs).content? hfile)
    refine ⟨content, hcontent, ?_⟩
    rw [hfiled, if_pos ⟨hfile, hlevel⟩, hcontent, lineBytes, hbytes]
    rfl
  · intro e herror place
    rw [filed_of_encode_error herror]
  · intro place hnot
    rw [hfiled, if_neg hnot]

/-- The line of a record can be encoded exactly if no half of a pair stands alone in its text. -/
theorem exists_encode_line_iff (now : Calendar.Moment) (r : Record) :
    (∃ bytes, (r.line now).encode = .ok bytes) ↔ ∃ text : String, r.text = text := by
  have hwide : (∃ bytes, (r.line now).encode = .ok bytes) ↔ ∃ s, r.line now = Text.wide s := by
    simp only [Text.Wide.encode_eq_ok_iff]
    exact ⟨fun ⟨_, s, hs, _⟩ => ⟨s, hs⟩, fun ⟨s, hs⟩ => ⟨_, s, hs, rfl⟩⟩
  rw [hwide, Record.line, Text.exists_wide_append_iff, Text.exists_wide_append_iff]
  exact ⟨fun h => h.1.2, fun h => ⟨⟨⟨_, rfl⟩, h⟩, ⟨_, rfl⟩⟩⟩

/--
Where records go, whatever has been done with a log before.

Under a level and a file that are in force a record goes where they say, and they stay in force
when a configuration fails, which changes neither the console nor the content of any file.  A
place holds a file exactly if it did at the start or was at some time that of the log, and its
content is what it held at the start, followed by the lines that were recorded meanwhile.  Lines
that cannot be encoded, which are those of texts with halves of pairs, are lost from the file.
-/
theorem records_routed (start : Files) (steps : List Step) :
    let st := (State.start start).run steps
    (∀ level file, InForce start steps level file →
      (∀ now r, Routed level file now r st (st.step (.record now r))) ∧
      ∀ now r e g, Log.configure now r st.files = (.error e, g) →
        InForce start (steps ++ [.configure now r]) level file ∧
          (st.step (.configure now r)).console = st.console ∧
          ∀ place, (st.step (.configure now r)).files.content? place = st.files.content? place) ∧
    (∀ place, st.file? = some place ↔ ∃ level, InForce start steps level (some place)) ∧
    (∀ place content, st.files.content? place = some content ↔
      ((start.content? place).isSome ∨
        ∃ before, before <+: steps ∧ ∃ level, InForce start before level (some place)) ∧
      content = (start.content? place).getD [] ++
        State.recorded place (State.start start) steps) ∧
    ∀ now r, (∃ bytes, Text.Wide.encode (Record.line now r) = .ok bytes) ↔
      ∃ text : String, r.text = text := by
  intro st
  have hsound : st.Sound := State.sound_run_start start steps
  refine ⟨?_, fun place => exists_inForce_iff, ?_, exists_encode_line_iff⟩
  · intro level file hforce
    obtain ⟨s, hs, rfl, rfl⟩ := hforce.sink
    refine ⟨fun now r => hsound.routed hs now r, ?_⟩
    intro now r e g hrefused
    have hkeeps : Files.Keeps (fun _ => False) st.files g := keeps_configure_error hrefused
    refine ⟨hforce.refused hrefused, ?_, ?_⟩
    · rw [State.step_configure_error hrefused]
    · intro place
      rw [State.step_configure_error hrefused, hkeeps.content? id]
  · intro place content
    have hrun := State.content?_run (State.sound_start start) steps place
    simp only [exists_inForce_iff] at hrun
    obtain ⟨hcontent, hthere⟩ := hrun
    have hfiles : (State.start start).files = start := rfl
    rw [hfiles] at hcontent hthere
    rw [← hcontent, ← hthere]
    cases st.files.content? place <;> simp [eq_comm]

/-! ## A file that is opened twice -/

def logTime : Calendar.Moment :=
  ⟨⟨2024, 1, 2⟩, 3, 4, 5, 0, none⟩

def filedRequest : Request :=
  { level := "ERROR", action := some "show", toFile := true, dir := "log" }

def logPlace : Files.Place :=
  ["log", "show", "show_0102030405.log"]

/-- A log with a file, then one without, then one with the same file, and one that fails. -/
def reopening : List Step :=
  [.configure logTime filedRequest, .record logTime ⟨debugLevel, "a"⟩,
    .configure logTime { filedRequest with level := "notset", toFile := false },
    .record logTime ⟨warningLevel, "b"⟩, .configure logTime filedRequest,
    .configure logTime { filedRequest with level := "BASIC_FORMAT" }]

theorem records_routed_reopened :
    let st := (State.start Files.empty).run reopening
    InForce Files.empty reopening errorLevel (some logPlace) ∧
    Routed errorLevel (some logPlace) logTime ⟨errorLevel, "c"⟩ st
      (st.step (.record logTime ⟨errorLevel, "c"⟩)) ∧
    st.console = "01-02 03:04:05 [WARN] b\n" ∧
    st.files.content? logPlace =
      some (Text.Utf8.encode "01-02 03:04:05 [DEBG] a\n".toList) := by
  intro st
  have hsink : st.sink = some ⟨errorLevel, some (filePath logTime "log" "show")⟩ := by decide
  have hfile : st.file? = some logPlace := by decide
  have hforce := inForce_of_sink hsink
  rw [hfile] at hforce
  obtain ⟨hrouted, -, hcontent, -⟩ := records_routed Files.empty reopening
  refine ⟨hforce, (hrouted _ _ hforce).1 _ _, by decide, ?_⟩
  refine (hcontent _ _).2 ⟨.inr ⟨reopening, List.prefix_rfl, _, hforce⟩, by decide⟩

/-! ## Files that are not what was recorded -/

/-- A file stands where that of the log will be. -/
def fileBefore : Files :=
  ⟨[], [(["log"], .directory), (["log", "show"], .directory),
    (logPlace, .file (Text.Utf8.encode "[]".toList))]⟩

/-- A log with a file. -/
def filedOnly : List Step :=
  [.configure logTime filedRequest]

/-- A half of a pair, without the other. -/
def loneHalf : Text.Wide :=
  [.half ⟨0, Nat.succ_pos 2047⟩]

/-- A log with a file, and a record of one half of a pair. -/
def halfRecorded : List Step :=
  filedOnly ++ [.record logTime ⟨errorLevel, loneHalf⟩]

/--
The file of a log can hold more than was recorded, from before the log was configured, and less,
where only the console shows a record.
-/
theorem file_not_recorded :
    (InForce fileBefore filedOnly errorLevel (some logPlace) ∧
      State.recorded logPlace (State.start fileBefore) filedOnly = [] ∧
      ((State.start fileBefore).run filedOnly).files.content? logPlace =
        some (Text.Utf8.encode "[]".toList)) ∧
    let st := (State.start Files.empty).run halfRecorded
    InForce Files.empty halfRecorded errorLevel (some logPlace) ∧
    debugLevel ≤ errorLevel ∧
    st.console = Text.wide "01-02 03:04:05 [ERRO] " ++ loneHalf ++ Text.wide "\n" ∧
    st.files.content? logPlace = some [] := by
  have hforce : ∀ (start : Files) (steps : List Step),
      ((State.start start).run steps).sink =
        some ⟨errorLevel, some (filePath logTime "log" "show")⟩ →
      ((State.start start).run steps).file? = some logPlace →
      InForce start steps errorLevel (some logPlace) := by
    intro start steps hsink hfile
    have hforce := inForce_of_sink hsink
    rwa [hfile] at hforce
  refine ⟨⟨hforce _ _ (by decide) (by decide), by decide, by decide⟩, ?_⟩
  exact ⟨hforce _ _ (by decide) (by decide), by decide, by decide, by decide⟩

end IndexedMail.Log
