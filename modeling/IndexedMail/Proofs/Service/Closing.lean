import IndexedMail.Service
import Mathlib.Data.List.Basic

/-!
# Closing the sources

Closing goes through the sources in order.  A source whose close fails is logged by its name and
the next one follows, so all are closed, each once, whichever of them fail.  A source that fails
and has no name ends the closing with an error instead, and the sources behind it stay open.
-/

namespace IndexedMail

/-- The source in a place, in a world that keeps a list of the places that were closed. -/
def Source.watched {σ : Type} (place : Nat) (s : Source σ) : Source (σ × List Nat) :=
  { name? := s.name?
    search := fun query group world =>
      let (response, after) := s.search query group world.1
      (response, after, world.2)
    close? := s.close?.map fun close world =>
      let (failure, after) := close world.1
      (failure, after, world.2 ++ [place]) }

namespace Service

variable {σ : Type}

/-- The service in a world that keeps a list of the places of closed sources. -/
def watched (svc : Service σ) : Service (σ × List Nat) :=
  { sources := svc.sources.zipIdx.map fun s => s.1.watched s.2
    pending := svc.pending }

/-- The places of the sources that closing the service closes, in the order of the calls. -/
def closed (svc : Service σ) (world : σ) : List Nat :=
  (svc.watched.close (world, [])).2.2.2

/-- The places of the sources that have something to close. -/
def closable (svc : Service σ) : List Nat :=
  (svc.sources.zipIdx.filter fun s => s.1.close?.isSome).map (·.2)

/-- Closing ends without an error, and has closed everything, each once and in order. -/
structure ClosesAll (svc : Service σ) (world : σ) : Prop where
  ends : (svc.close world).1 = .done
  closed : svc.closed world = svc.closable
  once : (svc.closed world).Nodup

/-! ## Attempts to close -/

/-- An attempt to close the source in a place, with the error if it fails. -/
structure Attempt (σ : Type) where
  source : Source σ
  place : Nat
  failure : Option String

namespace Attempt

/-- A failure of a source without a name. -/
def breaks (a : Attempt σ) : Bool :=
  a.failure.isSome && a.source.name?.isNone

def warnings (a : Attempt σ) : List Log.Record :=
  match a.failure, a.source.name? with
  | some error, some name =>
      [.warning s!"Search server close failed: server={name} error={error}"]
  | _, _ => []

end Attempt

/-- The attempts to close all that can be closed, each in the world that the last one left. -/
def attempts : List (Source σ × Nat) → σ → List (Attempt σ)
  | [], _ => []
  | (s, place) :: rest, world =>
      match s.close? with
      | none => attempts rest world
      | some close => ⟨s, place, (close world).1⟩ :: attempts rest (close world).2

/-- The attempts up to the first that breaks, which is the last one made. -/
def carriedOut : List (Attempt σ) → List (Attempt σ)
  | [] => []
  | a :: rest => if a.breaks then [a] else a :: carriedOut rest

theorem places_attempts (sources : List (Source σ × Nat)) (world : σ) :
    (attempts sources world).map Attempt.place =
      (sources.filter fun s => s.1.close?.isSome).map (·.2) := by
  induction sources generalizing world with
  | nil => rfl
  | cons s rest ih =>
      obtain ⟨s, place⟩ := s
      cases hclose : s.close? with
      | none => simp [attempts, hclose, ih]
      | some close => simp [attempts, hclose, ih]

theorem carriedOut_of_forall {tried : List (Attempt σ)} (h : ∀ a ∈ tried, a.breaks = false) :
    carriedOut tried = tried := by
  induction tried with
  | nil => rfl
  | cons a rest ih =>
      rw [List.forall_mem_cons] at h
      simp [carriedOut, h.1, ih h.2]

theorem exists_of_breaks {tried : List (Attempt σ)} (h : ∃ a ∈ tried, a.breaks = true) :
    ∃ before a after, tried = before ++ a :: after ∧ carriedOut tried = before ++ [a] ∧
      (∀ b ∈ before, b.breaks = false) ∧ a.breaks = true := by
  -- The first attempt that breaks is found along the recursion of what is carried out.
  induction tried with
  | nil => simp at h
  | cons a rest ih =>
      cases hbreaks : a.breaks with
      | true => exact ⟨[], a, rest, rfl, by simp [carriedOut, hbreaks], by simp, hbreaks⟩
      | false =>
          have hrest : ∃ b ∈ rest, b.breaks = true := by simpa [hbreaks] using h
          obtain ⟨before, b, after, htried, hcarried, hbefore, hb⟩ := ih hrest
          refine ⟨a :: before, b, after, by simp [htried], ?_, ?_, hb⟩
          · simp [carriedOut, hbreaks, hcarried]
          · exact List.forall_mem_cons.2 ⟨hbreaks, hbefore⟩

/-! ## Closing by attempts -/

theorem closeSources_of_none {s : Source σ} (h : s.close? = none) (rest : List (Source σ))
    (world : σ) : closeSources (s :: rest) world = closeSources rest world := by
  simp [closeSources, h]

/-- One attempt: if it breaks it is the last, and else it is logged and the rest follows. -/
theorem closeSources_of_some {s : Source σ} {close : σ → Option String × σ}
    (h : s.close? = some close) (place : Nat) (rest : List (Source σ)) (world : σ) :
    let a : Attempt σ := ⟨s, place, (close world).1⟩
    let ending := closeSources rest (close world).2
    closeSources (s :: rest) world =
      if a.breaks then (.unnamed, [], (close world).2)
      else (ending.1, a.warnings ++ ending.2.1, ending.2.2) := by
  cases hfailure : (close world).1 <;> cases hname : s.name? <;>
    simp [closeSources, h, hfailure, hname, Attempt.breaks, Attempt.warnings]

theorem warnings_of_breaks {a : Attempt σ} (h : a.breaks = true) : a.warnings = [] := by
  have hname : a.source.name? = none := by
    simpa using (Bool.and_eq_true_iff.1 h).2
  simp [Attempt.warnings, hname]

/-- Closing ends with an error if an attempt breaks, and logs the attempts that are made. -/
theorem closeSources_eq (sources : List (Source σ × Nat)) (world : σ) :
    let tried := attempts sources world
    let ending := closeSources (sources.map (·.1)) world
    ending.1 = (if tried.any Attempt.breaks then .unnamed else .done) ∧
      ending.2.1 = (carriedOut tried).flatMap Attempt.warnings := by
  induction sources generalizing world with
  | nil => exact ⟨rfl, rfl⟩
  | cons s rest ih =>
      obtain ⟨s, place⟩ := s
      rw [List.map_cons]
      cases hclose : s.close? with
      | none =>
          simp only [closeSources_of_none hclose, attempts, hclose]
          exact ih world
      | some close =>
          obtain ⟨hending, hrecords⟩ := ih (close world).2
          simp only [closeSources_of_some hclose place, attempts, hclose, carriedOut,
            List.any_cons]
          cases hbreaks : Attempt.breaks ⟨s, place, (close world).1⟩ with
          | true => simp [warnings_of_breaks hbreaks]
          | false => simp [hending, hrecords]

theorem close?_watched {s : Source σ} {close : σ → Option String × σ} (h : s.close? = some close)
    (place : Nat) :
    (s.watched place).close? =
      some fun world => ((close world.1).1, (close world.1).2, world.2 ++ [place]) := by
  simp [Source.watched, h]

/-- Watching adds the places of the attempts that are made, and changes nothing else. -/
theorem closeSources_watched (sources : List (Source σ × Nat)) (world : σ) (made : List Nat) :
    let ending := closeSources (sources.map (·.1)) world
    closeSources (sources.map fun s => s.1.watched s.2) (world, made) =
      (ending.1, ending.2.1, ending.2.2,
        made ++ (carriedOut (attempts sources world)).map Attempt.place) := by
  -- The places that were closed before are left open, for the induction on the sources.
  induction sources generalizing world made with
  | nil => simp [closeSources, attempts, carriedOut]
  | cons s rest ih =>
      obtain ⟨s, place⟩ := s
      rw [List.map_cons, List.map_cons]
      cases hclose : s.close? with
      | none =>
          have hwatched : (s.watched place).close? = none := by simp [Source.watched, hclose]
          simp only [closeSources_of_none hclose, closeSources_of_none hwatched, attempts, hclose]
          exact ih world made
      | some close =>
          have hrest := ih (close world).2 (made ++ [place])
          have hbreaks : Attempt.breaks ⟨s.watched place, place, (close world).1⟩ =
              Attempt.breaks ⟨s, place, (close world).1⟩ := rfl
          have hwarnings : Attempt.warnings ⟨s.watched place, place, (close world).1⟩ =
              Attempt.warnings ⟨s, place, (close world).1⟩ := rfl
          simp only [closeSources_of_some hclose place,
            closeSources_of_some (close?_watched hclose place) place, attempts, hclose, carriedOut,
            hbreaks, hwarnings, hrest]
          split
          · rfl
          · simp

theorem closed_eq (svc : Service σ) (world : σ) :
    svc.closed world = (carriedOut (attempts svc.sources.zipIdx world)).map Attempt.place := by
  unfold closed close watched
  rw [closeSources_watched]
  exact List.nil_append _

theorem close_eq (svc : Service σ) (world : σ) :
    let tried := attempts svc.sources.zipIdx world
    (svc.close world).1 = (if tried.any Attempt.breaks then .unnamed else .done) ∧
      (svc.close world).2.1 = (carriedOut tried).flatMap Attempt.warnings := by
  have h := closeSources_eq svc.sources.zipIdx world
  rwa [List.zipIdx_map_fst] at h

theorem nodup_closable (svc : Service σ) : svc.closable.Nodup := by
  have hplaces : (svc.sources.zipIdx.map (·.2)).Nodup := by
    rw [List.zipIdx_map_snd]
    exact List.nodup_range' 
  exact hplaces.sublist (List.filter_sublist.map _)

theorem closesAll_of_forall {svc : Service σ} {world : σ}
    (h : ∀ a ∈ attempts svc.sources.zipIdx world, a.breaks = false) : svc.ClosesAll world := by
  have hclosed : svc.closed world = svc.closable := by
    rw [closed_eq, carriedOut_of_forall h]
    exact places_attempts _ _
  refine ⟨?_, hclosed, hclosed ▸ nodup_closable svc⟩
  rw [(close_eq svc world).1, if_neg]
  simpa using h

theorem breaks_eq_false_iff {a : Attempt σ} :
    a.breaks = false ↔ (a.failure.isSome → a.source.name?.isSome) := by
  unfold Attempt.breaks
  cases a.failure <;> cases a.source.name? <;> simp

/--
Closing a service closes all its sources, whichever of them fail, exactly if each one that fails
has a name to be logged by.

In any case the attempts that are made are those up to the first that fails without a name.  The
failures before it are logged, and that one is the error in which closing ends.
-/
theorem closesAll_iff (svc : Service σ) (world : σ) :
    let tried := attempts svc.sources.zipIdx world
    tried.map Attempt.place = svc.closable ∧
    (svc.ClosesAll world ↔ ∀ a ∈ tried, a.failure.isSome → a.source.name?.isSome) ∧
    ∃ made left, tried = made ++ left ∧
      svc.closed world = made.map Attempt.place ∧
      (svc.close world).2.1 = made.flatMap Attempt.warnings ∧
      (((svc.close world).1 = .done ∧ left = [] ∧ ∀ a ∈ made, a.breaks = false) ∨
        ((svc.close world).1 = .unnamed ∧ ∃ before last, made = before ++ [last] ∧
          (∀ a ∈ before, a.breaks = false) ∧ last.breaks = true)) := by
  intro tried
  obtain ⟨hending, hrecords⟩ := close_eq svc world
  have hclosed := closed_eq svc world
  refine ⟨places_attempts _ _, ?_⟩
  by_cases h : ∃ a ∈ tried, a.breaks = true
  · obtain ⟨before, last, left, htried, hcarried, hbefore, hlast⟩ := exists_of_breaks h
    have hunnamed : (svc.close world).1 = .unnamed := by
      rw [hending, if_pos (List.any_eq_true.2 h)]
    refine ⟨?_, before ++ [last], left, by simp [htried], by rw [hclosed, hcarried],
      by rw [hrecords, hcarried], Or.inr ⟨hunnamed, before, last, rfl, hbefore, hlast⟩⟩
    constructor
    · intro hall
      cases hunnamed.symm.trans hall.ends
    · intro hnamed
      obtain ⟨a, ha, hbreaks⟩ := h
      rw [breaks_eq_false_iff.2 (hnamed a ha)] at hbreaks
      cases hbreaks
  · have hnone : ∀ a ∈ tried, a.breaks = false := by simpa using h
    have hall := closesAll_of_forall hnone
    have hcarried := carriedOut_of_forall hnone
    refine ⟨iff_of_true hall fun a ha => breaks_eq_false_iff.1 (hnone a ha), tried, [],
      (List.append_nil _).symm, by rw [hclosed, hcarried], by rw [hrecords, hcarried],
      Or.inl ⟨hall.ends, rfl, hnone⟩⟩

/-- A source that finds nothing, and whose close fails or does not. -/
def closingSource (name? failure : Option String) : Source Unit :=
  { name? := name?
    search := fun _ _ world => (⟨[], .ok []⟩, world)
    close? := some fun world => (failure, world) }

/-- A source without a name whose close fails, before one whose close does not. -/
def brokenOff : Service Unit :=
  { sources := [closingSource none (some "late"), closingSource (some "b") none], pending := none }

theorem close_not_isolated :
    (brokenOff.close ()).1 = .unnamed ∧ brokenOff.closable = [0, 1] ∧ brokenOff.closed () = [0] ∧
      ¬ brokenOff.ClosesAll () :=
  ⟨rfl, rfl, rfl, fun h => nomatch h.ends⟩

end Service

end IndexedMail
