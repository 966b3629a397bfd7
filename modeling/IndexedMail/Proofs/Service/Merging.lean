import IndexedMail.Proofs.Service.Replies
import IndexedMail.Proofs.Text.Numeral

/-!
# Calls of the selected sources, and their merged items

A source can note in the world that it is searched, and nothing else comes of a search by that.
So the calls of a search can be told: one for each selected source, in order, whichever of them
fail.  What comes of the search is then decided by the replies: it fails as a whole if all of them
are failures, and merges their items if every score can be read.
-/

namespace IndexedMail

open Text.Numeral (maxDigits)

namespace Item

def Scored (i : Item) : Prop :=
  ∃ digits : List Char, digits ≠ [] ∧ (∀ c ∈ digits, Text.isDigit c = true) ∧
    i.score = .string (String.ofList digits)

def Readable (i : Item) : Prop :=
  i.score.text.length ≤ maxDigits

/-- The number that the score spells, however long it is. -/
def value (i : Item) : Int :=
  Int.ofNat (Text.Numeral.ofDigits (i.score.text.filterMap Text.Point.char?))

theorem text_of_score {i : Item} {digits : List Char}
    (h : i.score = .string (String.ofList digits)) : i.score.text = digits.map .char := by
  rw [h, Json.text, Text.wide, String.toList_ofList]

theorem rank_of_readable {i : Item} (h : i.Scored) (hread : i.Readable) : i.rank = .ok i.value := by
  obtain ⟨digits, hne, hdigits, hscore⟩ := h
  have hlength : digits.length ≤ maxDigits := by
    simpa [Readable, text_of_score hscore] using hread
  have hnumeral : Text.Numeral.read digits = .ok (Int.ofNat (Text.Numeral.ofDigits digits)) := by
    rw [Text.Numeral.read_of_forall hne hdigits, Text.Numeral.readDigits_of_le hlength]
    rfl
  rw [rank, value, text_of_score hscore, Text.filterMap_char?_map, hscore, Json.whole_string,
    String.toList_ofList, hnumeral]
  rfl

theorem rank_of_not_readable {i : Item} (h : i.Scored) (hread : ¬ i.Readable) :
    ∃ count, maxDigits < count ∧ i.rank = .error (.numeral (.tooLong count)) := by
  obtain ⟨digits, hne, hdigits, hscore⟩ := h
  have hlength : maxDigits < digits.length := by
    simpa [Readable, text_of_score hscore] using hread
  have hnumeral : Text.Numeral.read digits = .error (.tooLong digits.length) := by
    rw [Text.Numeral.read_of_forall hne hdigits, Text.Numeral.readDigits, if_pos hlength]
    rfl
  refine ⟨digits.length, hlength, ?_⟩
  rw [rank, hscore, Json.whole_string, String.toList_ofList, hnumeral]
  rfl

end Item

namespace Service

variable {σ τ : Type}

/-! ## Noting calls -/

structure Call where
  place : Nat
  query : String
  group : Option String
  deriving DecidableEq, Repr

end Service

/-- The source in a place, in a world that keeps a list of all searches. -/
def Source.noting {σ : Type} (place : Nat) (s : Source σ) : Source (σ × List Service.Call) :=
  { name? := s.name?
    search := fun query group world =>
      let (response, after) := s.search query group world.1
      (response, after, world.2 ++ [⟨place, query, group⟩])
    close? := s.close?.map fun close world =>
      let (failure, after) := close world.1
      (failure, after, world.2) }

namespace Service

/-- The service in a world that keeps a list of all searches of its sources. -/
def noting (svc : Service σ) : Service (σ × List Call) :=
  { sources := svc.sources.zipIdx.map fun s => s.1.noting s.2
    pending := svc.pending }

/-- The searches of sources that a search of the service makes. -/
def calls (svc : Service σ) (query : String) (servers : List String) (group : Option String)
    (world : σ) : List Call :=
  (svc.noting.search query servers group (world, [])).world.2

/-- The sources that are searched, with their places: all, or those of the names, each once. -/
def chosen (svc : Service σ) (servers : List String) : List (Source σ × Nat) :=
  if servers.isEmpty then svc.sources.zipIdx
  else servers.eraseDups.filterMap fun name =>
    svc.sources.zipIdx.reverse.find? fun s => s.1.selector == name

/-- Services whose sources correspond select corresponding sources. -/
theorem select_of_map {svc : Service σ} {other : Service τ} {f : Source σ × Nat → Source τ}
    (hsources : other.sources = svc.sources.zipIdx.map f)
    (hselector : ∀ s, (f s).selector = s.1.selector) (hne : svc.sources ≠ [])
    {servers : List String} (hvalid : ∀ name ∈ servers, ∃ s ∈ svc.sources, s.selector = name) :
    other.select servers = .ok ((svc.chosen servers).map f) := by
  have hfind : ∀ name, other.source? name =
      (svc.sources.zipIdx.reverse.find? fun s => s.1.selector == name).map f := by
    intro name
    rw [source?, hsources, ← List.map_reverse, List.find?_map]
    simp only [Function.comp_def, hselector]
  have hnonempty : other.sources.isEmpty = false := by
    simpa [hsources] using hne
  have hunknown : (servers.filter fun name => (other.source? name).isNone) = [] := by
    rw [List.filter_eq_nil_iff]
    intro name hname hnone
    obtain ⟨s, hs, hselected⟩ := hvalid name hname
    rw [← List.zipIdx_map_fst 0 svc.sources] at hs
    obtain ⟨⟨s, n⟩, hn, rfl⟩ := List.mem_map.1 hs
    rw [hfind, Option.isNone_map, Option.isNone_iff_eq_none, List.find?_eq_none] at hnone
    exact hnone (s, n) (by simpa using hn) (by simpa using hselected)
  unfold select chosen
  rw [if_neg (by simp [hnonempty])]
  split
  · rw [hsources]
  · rw [hunknown]
    simp only [List.map_filterMap]
    have hsource : other.source? = fun name =>
        (svc.sources.zipIdx.reverse.find? fun s => s.1.selector == name).map f := funext hfind
    rw [hsource]

namespace Progress

def noting (p : Progress σ) (made : List Call) : Progress (σ × List Call) :=
  { items := p.items
    failed := p.failed
    failures := p.failures
    pending := p.pending
    records := p.records
    world := (p.world, made) }

theorem event_noting (p : Progress σ) (made : List Call) (e : Event) :
    (p.noting made).event e = (p.event e).noting made := by
  cases e with
  | record r => rfl
  | report message =>
      cases hpending : p.pending <;> simp [event, report, noting, hpending, log]

theorem foldl_event_noting (events : List Event) (p : Progress σ) (made : List Call) :
    events.foldl event (p.noting made) = (events.foldl event p).noting made := by
  induction events generalizing p with
  | nil => rfl
  | cons e rest ih => rw [List.foldl_cons, event_noting, ih, List.foldl_cons]

theorem fail_noting (p : Progress σ) (made : List Call) (name error : String) :
    (p.noting made).fail name error = (p.fail name error).noting made := by
  cases hpending : p.pending <;> simp [fail, report, noting, hpending, log]

/-- Searching a source that notes it adds one call, and does otherwise what the source does. -/
theorem search_noting (query : String) (group : Option String) (p : Progress σ)
    (made : List Call) (s : Source σ) (place : Nat) :
    (p.noting made).search query group (s.noting place) =
      (p.search query group s).noting (made ++ [⟨place, query, group⟩]) := by
  have hresponse : ((s.noting place).search query group (p.noting made).world).1 =
      (s.search query group p.world).1 := rfl
  have hstart : { p.noting made with
      world := ((s.noting place).search query group (p.noting made).world).2 } =
        noting { p with world := (s.search query group p.world).2 }
          (made ++ [⟨place, query, group⟩]) := rfl
  rw [search_eq, search_eq, hresponse, hstart]
  dsimp only
  rw [foldl_event_noting]
  cases (s.search query group p.world).1.result with
  | error e => exact fail_noting _ _ _ _
  | ok items => rfl

theorem foldl_search_noting (query : String) (group : Option String)
    (sources : List (Source σ × Nat)) (p : Progress σ) (made : List Call) :
    (sources.map fun s => s.1.noting s.2).foldl (search query group) (p.noting made) =
      ((sources.map (·.1)).foldl (search query group) p).noting
        (made ++ sources.map fun s => ⟨s.2, query, group⟩) := by
  -- Noting commutes with one step, with the calls that were made before left open.
  induction sources generalizing p made with
  | nil => simp
  | cons s rest ih =>
      rw [List.map_cons, List.foldl_cons, search_noting, ih]
      simp

end Progress

theorem select_eq_ok {svc : Service σ} (hne : svc.sources ≠ []) {servers : List String}
    (hvalid : ∀ name ∈ servers, ∃ s ∈ svc.sources, s.selector = name) :
    svc.select servers = .ok ((svc.chosen servers).map (·.1)) :=
  select_of_map (List.zipIdx_map_fst 0 svc.sources).symm (fun _ => rfl) hne hvalid

theorem select_noting {svc : Service σ} (hne : svc.sources ≠ []) {servers : List String}
    (hvalid : ∀ name ∈ servers, ∃ s ∈ svc.sources, s.selector = name) :
    svc.noting.select servers = .ok ((svc.chosen servers).map fun s => s.1.noting s.2) :=
  select_of_map (f := fun s => s.1.noting s.2) rfl (fun _ => rfl) hne hvalid

/-- A name without a source fails the selection of all. -/
theorem select_of_isNone {svc : Service σ} (hne : svc.sources ≠ []) {servers : List String}
    (h : ∃ name ∈ servers, (svc.source? name).isNone = true) :
    svc.select servers =
      .error (.unknownServers (servers.filter fun name => (svc.source? name).isNone)) := by
  obtain ⟨name, hname, hnone⟩ := h
  have hunknown : (servers.filter fun name => (svc.source? name).isNone) ≠ [] :=
    List.ne_nil_of_mem (List.mem_filter.2 ⟨hname, hnone⟩)
  unfold select
  rw [if_neg (by simpa using hne), if_neg (by simpa using List.ne_nil_of_mem hname)]
  split
  · rename_i hnil
    exact absurd hnil hunknown
  · rfl

/-- Noting the calls makes no difference to what a search answers. -/
theorem search_service_noting {svc : Service σ} (hne : svc.sources ≠ []) {servers : List String}
    (hvalid : ∀ name ∈ servers, ∃ s ∈ svc.sources, s.selector = name) (query : String)
    (group : Option String) (world : σ) (made : List Call) :
    let answer := svc.search query servers group world
    svc.noting.search query servers group (world, made) =
      { outcome := answer.outcome
        pending := answer.pending
        records := answer.records
        world := (answer.world,
          made ++ (svc.chosen servers).map fun s => ⟨s.2, query, group⟩) } := by
  intro answer
  have hanswer : answer = _ := search_eq_conclude (select_eq_ok hne hvalid) query group world
  rw [hanswer, search_eq_conclude (select_noting hne hvalid)]
  have hstart : Progress.start svc.noting.pending (world, made) =
      (Progress.start svc.pending world).noting made := rfl
  rw [hstart, Progress.foldl_search_noting]
  unfold conclude
  simp only [Progress.noting, List.length_map]
  split <;> rfl

theorem calls_eq {svc : Service σ} (hne : svc.sources ≠ []) {servers : List String}
    (hvalid : ∀ name ∈ servers, ∃ s ∈ svc.sources, s.selector = name) (query : String)
    (group : Option String) (world : σ) :
    svc.calls query servers group world =
      (svc.chosen servers).map fun s => ⟨s.2, query, group⟩ := by
  rw [calls, search_service_noting hne hvalid]
  exact List.nil_append _

/-! ## Failures and successes -/

namespace Reply

def Failed (r : Reply σ) : Prop :=
  ∃ e, r.response.result = .error e

theorem length_failed_le (r : Reply σ) : r.failed.length ≤ 1 := by
  unfold failed
  split <;> simp

theorem length_failed_eq_one_iff {r : Reply σ} : r.failed.length = 1 ↔ r.Failed := by
  unfold failed Failed
  cases r.response.result <;> simp

end Reply

theorem length_flatMap_failed_le (given : List (Reply σ)) :
    (given.flatMap Reply.failed).length ≤ given.length := by
  induction given with
  | nil => exact Nat.le_refl _
  | cons r rest ih =>
      have hr := r.length_failed_le
      rw [List.flatMap_cons, List.length_append, List.length_cons]
      omega

theorem length_flatMap_failed_eq_iff {given : List (Reply σ)} :
    (given.flatMap Reply.failed).length = given.length ↔ ∀ r ∈ given, r.Failed := by
  induction given with
  | nil => simp
  | cons r rest ih =>
      have hr := r.length_failed_le
      have hrest := length_flatMap_failed_le rest
      rw [List.flatMap_cons, List.length_append, List.length_cons, List.forall_mem_cons, ← ih,
        ← Reply.length_failed_eq_one_iff]
      omega

theorem length_replies (query : String) (group : Option String) (sources : List (Source σ))
    (world : σ) : (replies query group sources world).length = sources.length := by
  induction sources generalizing world with
  | nil => rfl
  | cons s rest ih => simp [replies, ih]

theorem outcome_eq {svc : Service σ} (hne : svc.sources ≠ []) {servers : List String}
    (hvalid : ∀ name ∈ servers, ∃ s ∈ svc.sources, s.selector = name) (query : String)
    (group : Option String) (world : σ) :
    let given := replies query group ((svc.chosen servers).map (·.1)) world
    let outcome := (svc.search query servers group world).outcome
    ((∀ r ∈ given, r.Failed) → outcome = .error (.allFailed (given.flatMap Reply.failed))) ∧
      ((¬ ∀ r ∈ given, r.Failed) → outcome = reportOn svc.pending.isSome given) := by
  intro given outcome
  obtain ⟨-, hsearch⟩ := search_of_select (select_eq_ok hne hvalid) query group world
  rw [← length_replies query group _ world] at hsearch
  constructor
  · intro hall
    rw [if_pos (length_flatMap_failed_eq_iff.2 hall)] at hsearch
    exact hsearch.1
  · intro hsome
    rw [if_neg fun hlength => hsome (length_flatMap_failed_eq_iff.1 hlength)] at hsearch
    exact hsearch.1

/-! ## Merged items -/

theorem sortByScore_eq_ok_iff {items sorted : List Item} (hscored : ∀ i ∈ items, i.Scored) :
    Item.sortByScore items = .ok sorted ↔
      (∀ i ∈ items, i.Readable) ∧ Ranking.StablyRanked Item.value items sorted := by
  have hsort : (∀ i ∈ items, i.Readable) → (Item.sortByScore items = .ok sorted ↔
      Ranking.StablyRanked Item.value items sorted) := by
    intro hreadable
    exact Ranking.sort_eq_ok_iff_of_forall fun i hi =>
      Item.rank_of_readable (hscored i hi) (hreadable i hi)
  constructor
  · intro h
    have hreadable : ∀ i ∈ items, i.Readable := by
      intro i hi
      by_contra hnot
      obtain ⟨k, hk⟩ := (Ranking.sort_eq_ok_iff.1 h).1 i hi
      obtain ⟨count, -, hfails⟩ := Item.rank_of_not_readable (hscored i hi) hnot
      simp [hk] at hfails
    exact ⟨hreadable, (hsort hreadable).1 h⟩
  · rintro ⟨hreadable, hstable⟩
    exact (hsort hreadable).2 hstable

theorem sortByScore_of_not_readable {items : List Item} (hscored : ∀ i ∈ items, i.Scored)
    (hnot : ¬ ∀ i ∈ items, i.Readable) :
    ∃ count, maxDigits < count ∧ Item.sortByScore items = .error (.numeral (.tooLong count)) := by
  cases hsort : Item.sortByScore items with
  | ok sorted => exact absurd ((sortByScore_eq_ok_iff hscored).1 hsort).1 hnot
  | error e =>
      obtain ⟨i, hi, hfails⟩ := Ranking.exists_of_sort_eq_error hsort
      by_cases hread : i.Readable
      · simp [Item.rank_of_readable (hscored i hi) hread] at hfails
      · obtain ⟨count, hcount, hrank⟩ := Item.rank_of_not_readable (hscored i hi) hread
        rw [hrank, Except.error.injEq] at hfails
        exact ⟨count, hcount, hfails ▸ rfl⟩

/-- The items of the replies, by falling score, and those of one score as they were given. -/
structure Merged (given : List (Reply σ)) (items : List Item) : Prop where
  perm : items.Perm (given.flatMap Reply.items)
  ranked : Ranking.StablyRanked Item.value (given.flatMap Reply.items) items

theorem reportOn_eq_ok_iff {collected : Bool} {given : List (Reply σ)} :
    (∃ report, reportOn collected given = .ok report ∧ Merged given report.items) ↔
      ∃ items, Item.sortByScore (given.flatMap Reply.items) = .ok items ∧ Merged given items := by
  unfold reportOn
  cases Item.sortByScore (given.flatMap Reply.items) <;> simp

theorem reportOn_eq_error_iff {collected : Bool} {given : List (Reply σ)} {e : Error} :
    reportOn collected given = .error e ↔
      ∃ cause, Item.sortByScore (given.flatMap Reply.items) = .error cause ∧ .rank cause = e := by
  unfold reportOn
  cases Item.sortByScore (given.flatMap Reply.items) <;> simp

section Search

variable {svc : Service σ} {servers : List String} {query : String} {group : Option String}
  {world : σ}

theorem outcome_eq_allFailed_iff (hne : svc.sources ≠ [])
    (hvalid : ∀ name ∈ servers, ∃ s ∈ svc.sources, s.selector = name) :
    (∃ names, (svc.search query servers group world).outcome = .error (.allFailed names)) ↔
      ∀ r ∈ replies query group ((svc.chosen servers).map (·.1)) world, r.Failed := by
  obtain ⟨hfails, hsucceeds⟩ := outcome_eq hne hvalid query group world
  constructor
  · rintro ⟨names, hnames⟩
    by_contra hnot
    rw [hsucceeds hnot, reportOn_eq_error_iff] at hnames
    obtain ⟨cause, -, hcause⟩ := hnames
    cases hcause
  · intro hall
    exact ⟨_, hfails hall⟩

theorem exists_merged_iff (hne : svc.sources ≠ [])
    (hvalid : ∀ name ∈ servers, ∃ s ∈ svc.sources, s.selector = name) :
    let given := replies query group ((svc.chosen servers).map (·.1)) world
    (∀ i ∈ given.flatMap Reply.items, i.Scored) →
    ((∃ report, (svc.search query servers group world).outcome = .ok report ∧
        Merged given report.items) ↔
      (∃ r ∈ given, ¬ r.Failed) ∧ ∀ i ∈ given.flatMap Reply.items, i.Readable) := by
  intro given hscored
  obtain ⟨hfails, hsucceeds⟩ := outcome_eq hne hvalid query group world
  constructor
  · rintro ⟨report, hreport, hmerged⟩
    have hsome : ¬ ∀ r ∈ given, r.Failed := by
      intro hall
      rw [hfails hall] at hreport
      cases hreport
    rw [hsucceeds hsome] at hreport
    obtain ⟨items, hsort, -⟩ := reportOn_eq_ok_iff.1 ⟨report, hreport, hmerged⟩
    exact ⟨by simpa using hsome, ((sortByScore_eq_ok_iff hscored).1 hsort).1⟩
  · rintro ⟨hsome, hreadable⟩
    have hranks : ∀ i ∈ given.flatMap Reply.items, ∃ k, i.rank = .ok k := fun i hi =>
      ⟨i.value, Item.rank_of_readable (hscored i hi) (hreadable i hi)⟩
    obtain ⟨items, hsort, -⟩ := Ranking.sort_of_forall hranks
    have hranked := ((sortByScore_eq_ok_iff hscored).1 hsort).2
    rw [hsucceeds (by simpa using hsome)]
    exact reportOn_eq_ok_iff.2 ⟨items, hsort, Item.sortByScore_perm hsort, hranked⟩

theorem outcome_eq_tooLong_iff (hne : svc.sources ≠ [])
    (hvalid : ∀ name ∈ servers, ∃ s ∈ svc.sources, s.selector = name) :
    let given := replies query group ((svc.chosen servers).map (·.1)) world
    (∀ i ∈ given.flatMap Reply.items, i.Scored) →
    ((∃ count, maxDigits < count ∧
        (svc.search query servers group world).outcome =
          .error (.rank (.numeral (.tooLong count)))) ↔
      (∃ r ∈ given, ¬ r.Failed) ∧ ∃ i ∈ given.flatMap Reply.items, ¬ i.Readable) := by
  intro given hscored
  obtain ⟨hfails, hsucceeds⟩ := outcome_eq hne hvalid query group world
  constructor
  · rintro ⟨count, -, hcount⟩
    have hsome : ¬ ∀ r ∈ given, r.Failed := by
      intro hall
      rw [hfails hall] at hcount
      cases hcount
    rw [hsucceeds hsome, reportOn_eq_error_iff] at hcount
    obtain ⟨cause, hsort, -⟩ := hcount
    refine ⟨by simpa using hsome, ?_⟩
    by_contra hnone
    have hreadable : ∀ i ∈ given.flatMap Reply.items, i.Readable := by
      intro i hi
      by_contra hnot
      exact hnone ⟨i, hi, hnot⟩
    obtain ⟨report, hreport, -⟩ :=
      (exists_merged_iff hne hvalid hscored).2 ⟨by simpa using hsome, hreadable⟩
    rw [hsucceeds hsome, reportOn, hsort] at hreport
    cases hreport
  · rintro ⟨hsome, i, hi, hnot⟩
    obtain ⟨count, hcount, hsort⟩ :=
      sortByScore_of_not_readable hscored fun hreadable => hnot (hreadable i hi)
    rw [hsucceeds (by simpa using hsome)]
    exact ⟨count, hcount, reportOn_eq_error_iff.2 ⟨_, hsort, rfl⟩⟩

/--
A search asks each selected source once, in order, whatever the others reply.  It fails as a whole
if and only if all of them fail; else it merges their items, unless a score is too long to be
read.
-/
theorem search_merges_replies (hne : svc.sources ≠ [])
    (hvalid : ∀ name ∈ servers, ∃ s ∈ svc.sources, s.selector = name)
    (hscored : ∀ i ∈ (replies query group ((svc.chosen servers).map (·.1)) world).flatMap
      Reply.items, i.Scored) :
    let given := replies query group ((svc.chosen servers).map (·.1)) world
    let outcome := (svc.search query servers group world).outcome
    svc.calls query servers group world =
        ((svc.chosen servers).map fun s => ⟨s.2, query, group⟩) ∧
      ((∃ names, outcome = .error (.allFailed names)) ↔ ∀ r ∈ given, r.Failed) ∧
      ((∃ report, outcome = .ok report ∧ Merged given report.items) ↔
        (∃ r ∈ given, ¬ r.Failed) ∧ ∀ i ∈ given.flatMap Reply.items, i.Readable) ∧
      ((∃ count, maxDigits < count ∧ outcome = .error (.rank (.numeral (.tooLong count)))) ↔
        (∃ r ∈ given, ¬ r.Failed) ∧ ∃ i ∈ given.flatMap Reply.items, ¬ i.Readable) :=
  ⟨calls_eq hne hvalid query group world, outcome_eq_allFailed_iff hne hvalid,
    exists_merged_iff hne hvalid hscored, outcome_eq_tooLong_iff hne hvalid hscored⟩

end Search

/-! ## Services of steady sources -/

def steady (name : String) (result : Except String (List Item)) : Source Unit :=
  { name? := some name
    search := fun _ _ world => (⟨[], result⟩, world)
    close? := none }

/-- An item whose score is one digit over and over. -/
def scoredItem (server : String) (count : Nat) (digit : Char) : Item :=
  (Hit.mk server "g" 1 (String.ofList (List.replicate count digit))).item

theorem scored_scoredItem (server : String) (count : Nat) {digit : Char}
    (h : Text.isDigit digit = true) : (scoredItem server (count + 1) digit).Scored := by
  refine ⟨List.replicate (count + 1) digit, List.cons_ne_nil _ _, ?_, rfl⟩
  intro c hc
  rwa [List.eq_of_mem_replicate hc]

theorem readable_scoredItem_iff {server : String} {count : Nat} {digit : Char} :
    (scoredItem server count digit).Readable ↔ count ≤ maxDigits := by
  simp [scoredItem, Item.Readable, Hit.item, Json.text, Text.wide]

/-- Two sources that list scores of one value, and one between them that fails. -/
def tiedService : Service Unit :=
  { sources :=
      [steady "a" (.ok [scoredItem "a" 2 '0']), steady "b" (.error "down"),
        steady "c" (.ok [scoredItem "c" 1 '0'])]
    pending := some [] }

theorem search_merges_replies_tied :
    let given := replies "x" none ((tiedService.chosen ["c", "b", "a"]).map (·.1)) ()
    tiedService.sources ≠ [] ∧
    (∀ name ∈ ["c", "b", "a"], ∃ s ∈ tiedService.sources, s.selector = name) ∧
    (∀ i ∈ given.flatMap Reply.items, i.Scored) ∧
    tiedService.calls "x" ["c", "b", "a"] none () =
      [⟨2, "x", none⟩, ⟨1, "x", none⟩, ⟨0, "x", none⟩] ∧
    ∃ report, (tiedService.search "x" ["c", "b", "a"] none ()).outcome = .ok report ∧
      Merged given report.items := by
  intro given
  have hne : tiedService.sources ≠ [] := by simp [tiedService]
  have hvalid : ∀ name ∈ ["c", "b", "a"], ∃ s ∈ tiedService.sources, s.selector = name := by
    simp [tiedService, steady, Source.selector]
  have hitems : given.flatMap Reply.items = [scoredItem "c" 1 '0', scoredItem "a" 2 '0'] := rfl
  have hscored : ∀ i ∈ given.flatMap Reply.items, i.Scored := by
    rw [hitems]
    intro i hi
    rcases List.mem_pair.1 hi with rfl | rfl
    · exact scored_scoredItem "c" 0 (by decide)
    · exact scored_scoredItem "a" 1 (by decide)
  have hreadable : ∀ i ∈ given.flatMap Reply.items, i.Readable := by
    rw [hitems]
    intro i hi
    rcases List.mem_pair.1 hi with rfl | rfl
    · exact readable_scoredItem_iff.2 (by decide)
    · exact readable_scoredItem_iff.2 (by decide)
  have hsucceeded : ∃ r ∈ given, ¬ r.Failed := by
    refine ⟨_, List.mem_cons_self, ?_⟩
    rintro ⟨e, he⟩
    cases he
  obtain ⟨hcalls, -, hmerged, -⟩ := search_merges_replies hne hvalid hscored
  exact ⟨hne, hvalid, hscored, hcalls, hmerged.2 ⟨hsucceeded, hreadable⟩⟩

/-- A source beside one whose score is too long to be read; both succeed. -/
def overlongService : Service Unit :=
  { sources :=
      [steady "a" (.ok [scoredItem "a" 1 '5']),
        steady "b" (.ok [scoredItem "b" (maxDigits + 1) '1'])]
    pending := some [] }

theorem search_not_merged :
    let given := replies "x" none ((overlongService.chosen []).map (·.1)) ()
    overlongService.sources ≠ [] ∧ (∀ i ∈ given.flatMap Reply.items, i.Scored) ∧
    (∀ r ∈ given, ¬ r.Failed) ∧
    ∀ report, (overlongService.search "x" [] none ()).outcome ≠ .ok report := by
  intro given
  have hne : overlongService.sources ≠ [] := by simp [overlongService]
  have hvalid : ∀ name ∈ ([] : List String), ∃ s ∈ overlongService.sources, s.selector = name :=
    fun _ h => absurd h List.not_mem_nil
  have hitems : given.flatMap Reply.items =
      [scoredItem "a" 1 '5', scoredItem "b" (maxDigits + 1) '1'] := rfl
  have hscored : ∀ i ∈ given.flatMap Reply.items, i.Scored := by
    rw [hitems]
    intro i hi
    rcases List.mem_pair.1 hi with rfl | rfl
    · exact scored_scoredItem "a" 0 (by decide)
    · exact scored_scoredItem "b" maxDigits (by decide)
  have hsucceeded : ∀ r ∈ given, ¬ r.Failed := by
    intro r hr
    rcases List.mem_pair.1 hr with rfl | rfl
    · rintro ⟨e, he⟩
      cases he
    · rintro ⟨e, he⟩
      cases he
  have hoverlong : ∃ i ∈ given.flatMap Reply.items, ¬ i.Readable := by
    refine ⟨scoredItem "b" (maxDigits + 1) '1', by simp [hitems], ?_⟩
    rw [readable_scoredItem_iff]
    omega
  obtain ⟨count, -, hcount⟩ := (outcome_eq_tooLong_iff hne hvalid hscored).2
    ⟨⟨_, List.mem_cons_self, hsucceeded _ List.mem_cons_self⟩, hoverlong⟩
  refine ⟨hne, hscored, hsucceeded, ?_⟩
  intro report hreport
  rw [hcount] at hreport
  cases hreport

end Service

end IndexedMail
