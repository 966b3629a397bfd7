import IndexedMail.Proofs.Service.Scripted

/-!
# Servers do not interfere

A service over servers in a scripted world.  As long as every limit can be written and every
numeral that is printed can be read, the items of a server in a report are those of its own
listing, and the errors are those of its own children.
-/

namespace IndexedMail

/-- Hits that can be ranked are ranked as items by what their scores spell. -/
theorem Hit.rank_item {h : Hit} {k : Int} (hk : h.rank = .ok k) : h.item.rank = .ok k := by
  unfold Hit.rank at hk
  rw [Item.rank, Hit.item, Json.whole_string, hk]
  rfl

/-- The item is one of the named server. -/
def Item.isFrom (name : String) (i : Item) : Bool :=
  match i.server with
  | .string server => server == Text.wide name
  | _ => false

theorem Hit.isFrom_item (name : String) (h : Hit) : h.item.isFrom name = (h.server == name) := by
  rw [Bool.eq_iff_iff]
  simp [Item.isFrom, Hit.item, Text.wide_injective.eq_iff]

namespace Listing

open Ranking

/-- The hits of a listing are of its server, have ranks, and stand by falling rank. -/
theorem of_parse {m : Mailbox} {b : Backend} (hb : m.backend = b.name) {text : List Char}
    {hits : List Hit} (h : parse m text = .ok hits) :
    (∀ x ∈ hits, x.server = m.server ∧ ∃ k, x.rank = .ok k) ∧
      hits.Pairwise fun x y => keyOf Hit.rank y ≤ keyOf Hit.rank x := by
  have hservers : ∀ x ∈ hits, x.server = m.server := by
    intro x hx
    obtain ⟨n, -, -, rfl⟩ := exists_notice_of_mem hb h hx
    rfl
  unfold parse at h
  split at h
  · cases h
  · split at h
    · rename_i found _ sorted hsort
      obtain rfl : sorted = hits := by simpa using h
      obtain ⟨hranks, hstable⟩ := sort_eq_ok_iff.1 hsort
      exact ⟨fun x hx => ⟨hservers x hx, hranks x ((hstable.mem_iff x).1 hx)⟩, hstable.falling⟩
    · cases h

end Listing

namespace Service

open Engine Ranking
open Settings (Server)
open Listing (Backend)

variable {parent : Environment} {query : String} {group : Option String}

/-! ## Items and messages of a server -/

/-- What is listed by the child of a server. -/
def listed (d : Server × Outcome) : List Hit :=
  match Listing.parse (mailbox d.1) (d.2.text .utf8) with
  | .error _ => []
  | .ok hits => hits

/-- The message on a child that failed. -/
def failure (parent : Environment) (words : List String) (d : Server × Outcome) : String :=
  let i := invocation parent d.1 (Query.Criteria.ofWords words)
  d.1.name ++ ": " ++ ProcessError.message ⟨i.argv, d.2.status?⟩

/-- The listing of a server's child can be read. -/
def Listed (d : Server × Outcome) : Prop :=
  Listing.parse (mailbox d.1) (d.2.text .utf8) = .ok (listed d)

theorem listed_of_parse {d : Server × Outcome} {hits : List Hit}
    (h : Listing.parse (mailbox d.1) (d.2.text .utf8) = .ok hits) : Listed d := by
  simp only [Listed, listed, h]

theorem reply_of_listed {d : Server × Outcome} (h : Listed d) (words : List String) :
    (replyOf parent words d).items = (listed d).map Hit.item ∧
      (replyOf parent words d).failed = [] ∧
      (replyOf parent words d).messages =
        if d.2.status? = some 0 then [] else [failure parent words d] := by
  have hresult : (replyOf parent words d).response.result = .ok ((listed d).map Hit.item) := by
    have hparse := h
    unfold Listed at hparse
    simp only [replyOf, result_conclusion]
    rw [hparse]
  refine ⟨?_, ?_, ?_⟩
  · simp only [Reply.items, hresult]
  · simp only [Reply.failed, hresult]
  · have hraised : (replyOf parent words d).raised = [] := by
      simp only [Reply.raised, hresult]
    rw [Reply.messages, hraised, List.append_nil]
    exact reports_conclusion _ _

/-! ## Merging -/

theorem filter_listed_of_ne {d : Server × Outcome} (hserver : ∀ x ∈ listed d, x.server = d.1.name)
    {name : String} (hne : d.1.name ≠ name) :
    (listed d).filter (fun x => x.server == name) = [] := by
  rw [List.filter_eq_nil_iff]
  intro x hx
  simpa [hserver x hx] using hne

/-- Of several listings, a server's name picks the one of its own child. -/
theorem filter_flatMap_listed {deals : List (Server × Outcome)}
    (hnames : (deals.map fun d => d.1.name).Nodup)
    (hserver : ∀ d ∈ deals, ∀ x ∈ listed d, x.server = d.1.name) {d : Server × Outcome}
    (hd : d ∈ deals) :
    (deals.flatMap listed).filter (fun x => x.server == d.1.name) = listed d := by
  induction deals with
  | nil => cases hd
  | cons first rest ih =>
      rw [List.map_cons, List.nodup_cons] at hnames
      have hrest : ∀ e ∈ rest, ∀ x ∈ listed e, x.server = e.1.name :=
        fun e he => hserver e (List.mem_cons_of_mem _ he)
      rw [List.flatMap_cons, List.filter_append]
      rcases List.mem_cons.1 hd with rfl | hd
      · have hown : (listed d).filter (fun x => x.server == d.1.name) = listed d := by
          rw [List.filter_eq_self]
          intro x hx
          simpa using hserver d List.mem_cons_self x hx
        have hothers : (rest.flatMap listed).filter (fun x => x.server == d.1.name) = [] := by
          rw [List.filter_flatMap, List.flatMap_eq_nil_iff]
          intro e he
          apply filter_listed_of_ne (hrest e he)
          exact fun heq => hnames.1 (List.mem_map.2 ⟨e, he, heq⟩)
        rw [hown, hothers, List.append_nil]
      · have hne : first.1.name ≠ d.1.name :=
          fun heq => hnames.1 (List.mem_map.2 ⟨d, hd, heq.symm⟩)
        rw [filter_listed_of_ne (hserver first List.mem_cons_self) hne, List.nil_append,
          ih hnames.2 hrest hd]

/-- Merged hits are ranked so that each server's are those of its listing, in its order. -/
theorem exists_sorted_of_listed {deals : List (Server × Outcome)}
    (hnames : (deals.map fun d => d.1.name).Nodup)
    (hbackend : ∀ d ∈ deals, ∃ b : Backend, d.1.backend = b.name)
    (hlisted : ∀ d ∈ deals, Listed d) :
    ∃ items, Item.sortByScore (deals.flatMap fun d => (listed d).map Hit.item) = .ok items ∧
      (∀ i ∈ items, ∃ d ∈ deals, i.isFrom d.1.name = true) ∧
      ∀ d ∈ deals, items.filter (Item.isFrom d.1.name) = (listed d).map Hit.item := by
  have hparsed : ∀ d ∈ deals, (∀ x ∈ listed d, x.server = d.1.name ∧ ∃ k, x.rank = .ok k) ∧
      (listed d).Pairwise fun x y => keyOf Hit.rank y ≤ keyOf Hit.rank x := by
    intro d hd
    obtain ⟨b, hb⟩ := hbackend d hd
    exact Listing.of_parse (m := mailbox d.1) hb (hlisted d hd)
  have hall : ∀ i ∈ deals.flatMap fun d => (listed d).map Hit.item,
      ∃ d ∈ deals, ∃ x ∈ listed d, x.item = i := by
    intro i hi
    obtain ⟨d, hd, hid⟩ := List.mem_flatMap.1 hi
    exact ⟨d, hd, List.mem_map.1 hid⟩
  have hranks : ∀ i ∈ deals.flatMap fun d => (listed d).map Hit.item, ∃ k, i.rank = .ok k := by
    intro i hi
    obtain ⟨d, hd, x, hx, rfl⟩ := hall i hi
    obtain ⟨k, hk⟩ := ((hparsed d hd).1 x hx).2
    exact ⟨k, Hit.rank_item hk⟩
  obtain ⟨items, hsort, hstable⟩ := sort_of_forall hranks
  refine ⟨items, hsort, ?_, ?_⟩
  · intro i hi
    obtain ⟨d, hd, x, hx, rfl⟩ := hall i ((hstable.mem_iff i).1 hi)
    exact ⟨d, hd, by simpa [Hit.isFrom_item] using ((hparsed d hd).1 x hx).1⟩
  · intro d hd
    have hfilter : (deals.flatMap fun d => (listed d).map Hit.item).filter
        (Item.isFrom d.1.name) = (listed d).map Hit.item := by
      rw [← filter_flatMap_listed hnames (fun e he x hx => ((hparsed e he).1 x hx).1) hd,
        ← List.map_flatMap, List.filter_map]
      exact congrArg _ (List.filter_congr fun x _ => Hit.isFrom_item d.1.name x)
    have hown : StablyRanked (keyOf Item.rank) ((listed d).map Hit.item)
        ((listed d).map Hit.item) := by
      refine StablyRanked.of_falling (List.pairwise_map.2 ?_)
      refine (hparsed d hd).2.imp_of_mem ?_
      intro x y hx hy hxy
      obtain ⟨k, hk⟩ := ((hparsed d hd).1 x hx).2
      obtain ⟨l, hl⟩ := ((hparsed d hd).1 y hy).2
      rw [keyOf_of_ok hk, keyOf_of_ok hl] at hxy
      rwa [keyOf_of_ok (Hit.rank_item hk), keyOf_of_ok (Hit.rank_item hl)]
    exact (hfilter ▸ hstable.filter (Item.isFrom d.1.name)).unique hown

/-! ## The contract -/

/-- What a search of selected servers promises, for the report that it makes. -/
structure Isolated (parent : Environment) (selected : List Server) (query : String)
    (script : Script) (answer : Answer Script) (report : Report) : Prop where
  returned : answer.outcome = .ok report
  rejected : ∀ e, Query.tokenize query = .error e →
    answer.world.started = script.started ∧ report.items = [] ∧
      report.errors = selected.map fun s => s.name ++ ": " ++ e.message
  started : ∀ words, Query.tokenize query = .ok words →
    answer.world.started =
      script.started ++ selected.map fun s => invocation parent s (Query.Criteria.ofWords words)
  own : ∀ words, Query.tokenize query = .ok words →
    ∀ d ∈ dealt selected script.outcomes,
      ∃ hits, Listing.parse (mailbox d.1) (d.2.text .utf8) = .ok hits ∧
        report.items.filter (Item.isFrom d.1.name) = hits.map Hit.item
  foreign : ∀ i ∈ report.items, ∃ s ∈ selected, i.isFrom s.name = true
  errors : ∀ words, Query.tokenize query = .ok words →
    report.errors =
      ((dealt selected script.outcomes).filter fun d => d.2.status? != some 0).map
        (failure parent words)

variable {selected : List Server} {script : Script}

theorem mem_of_mem_dealt {outcomes : List Outcome} {d : Server × Outcome}
    (h : d ∈ dealt selected outcomes) : d.1 ∈ selected := by
  rw [← map_fst_dealt selected outcomes]
  exact List.mem_map_of_mem h

theorem nodup_name_dealt (h : (selected.map Server.name).Nodup) (outcomes : List Outcome) :
    ((dealt selected outcomes).map fun d => d.1.name).Nodup := by
  rw [← map_fst_dealt selected outcomes, List.map_map] at h
  exact h

theorem flatMap_failure (words : List String) (deals : List (Server × Outcome)) :
    (deals.flatMap fun d => if d.2.status? = some 0 then [] else [failure parent words d]) =
      (deals.filter fun d => d.2.status? != some 0).map (failure parent words) := by
  induction deals with
  | nil => rfl
  | cons d rest ih =>
      rw [List.flatMap_cons, ih]
      by_cases hstatus : d.2.status? = some 0
      · simp [hstatus]
      · simp [hstatus]

theorem isolated_of_tokenize_error {e : Query.SyntaxError} (h : Query.tokenize query = .error e)
    {svc : Service Script} {names : List String} (hpending : svc.pending.isSome = true)
    (hselect : svc.select names = .ok (selected.map (source Script.run parent)))
    (hne : selected ≠ []) :
    ∃ report, Isolated parent selected query script (svc.search query names group script)
      report := by
  obtain ⟨hreplies, hworld⟩ := replies_of_tokenize_error parent group h selected script
  have hnone : (selected.flatMap fun _ => ([] : List Item)) = [] :=
    List.flatMap_eq_nil_iff.2 fun _ _ => rfl
  have hsort : Item.sortByScore (selected.flatMap fun _ => []) = .ok [] := by
    rw [hnone]
    exact sort_nil _
  obtain ⟨houtcome, hafter⟩ := search_of_succeeded hselect (by simpa using hne) hpending hreplies
    (fun s _ => ⟨rfl, rfl, rfl⟩) hsort
  refine ⟨_, ⟨houtcome, ?_, ?_, ?_, by simp, ?_⟩⟩
  · intro e' he'
    obtain rfl : e = e' := by simpa [h] using he'
    exact ⟨by rw [hafter, hworld], rfl, List.flatMap_pure_eq_map _ _⟩
  all_goals
    intro words hwords
    rw [h] at hwords
    cases hwords

theorem isolated_of_listed {words : List String} (h : Query.tokenize query = .ok words)
    {svc : Service Script} {names : List String} (hpending : svc.pending.isSome = true)
    (hselect : svc.select names = .ok (selected.map (source Script.run parent)))
    (hne : selected ≠ []) (hnames : (selected.map Server.name).Nodup)
    (hbackend : ∀ s ∈ selected, ∃ b : Backend, s.backend = b.name)
    (hwritable : ∀ s ∈ selected, Writable s)
    (hlisted : ∀ d ∈ dealt selected script.outcomes, Listed d) :
    ∃ report, Isolated parent selected query script (svc.search query names group script)
      report := by
  obtain ⟨hreplies, hworld⟩ := replies_of_writable parent group h hwritable script
  obtain ⟨items, hsort, hforeign, hown⟩ := exists_sorted_of_listed
    (nodup_name_dealt hnames script.outcomes) (fun d hd => hbackend _ (mem_of_mem_dealt hd)) hlisted
  obtain ⟨houtcome, hafter⟩ := search_of_succeeded hselect (by simpa using hne) hpending hreplies
    (fun d hd => reply_of_listed (hlisted d hd) words) hsort
  refine ⟨_, ⟨houtcome, ?_, ?_, ?_, ?_, ?_⟩⟩
  · intro e he
    rw [h] at he
    cases he
  · intro words' hwords
    obtain rfl : words = words' := by simpa [h] using hwords
    rw [hafter, hworld]
  · intro words' hwords d hd
    exact ⟨listed d, hlisted d hd, hown d hd⟩
  · intro i hi
    obtain ⟨d, hd, hid⟩ := hforeign i hi
    exact ⟨d.1, mem_of_mem_dealt hd, hid⟩
  · intro words' hwords
    obtain rfl : words = words' := by simpa [h] using hwords
    exact flatMap_failure words _

/--
Servers of accepted settings do not interfere, whatever their children do.

The service for the settings exists, and a search of configured servers keeps its promise exactly
if the query cannot be cut into words, or the limit of every selected server can be written and
all numerals of its own listing can be read.
-/
theorem servers_isolated {e : Environment} {root : Settings.Section} {settings : Settings}
    (hread : Settings.read e root = .ok settings) (parent : Environment) {names : List String}
    (hnames : ∀ name ∈ names, ∃ s ∈ settings.servers, s.name = name) (query : String)
    (group : Option String) (script : Script) :
    ∃ svc, ofSettings Script.run parent settings = .ok svc ∧
      ((∃ report, Isolated parent (settings.chosen names) query script
          (svc.search query names group script) report) ↔
        ∀ words, Query.tokenize query = .ok words →
          ∀ d ∈ dealt (settings.chosen names) script.outcomes,
            Writable d.1 ∧ ∀ b : Backend, d.1.backend = b.name → Legible b d.1 d.2) := by
  have hwell := Settings.wellFormed_of_read hread
  have hselect := select_ofSettings parent hwell (some []) hnames
  have hbackend : ∀ s ∈ settings.chosen names, ∃ b : Backend, s.backend = b.name :=
    fun s hs => hwell.backend s (Settings.chosen_subset hs)
  have hne := Settings.chosen_ne_nil hwell hnames
  refine ⟨_, ofSettings_eq_ok hwell, ?_, ?_⟩
  · rintro ⟨report, hisolated⟩ words h d hd
    refine ⟨?_, ?_⟩
    · obtain ⟨hworld, -⟩ := search_of_select hselect query group script
      have hstarted := hisolated.started words h
      rw [hworld] at hstarted
      have hall : script.started.length + (settings.chosen names).length ≤
          (worldAfter query group ((settings.chosen names).map (source Script.run parent))
            script).started.length := by
        rw [hstarted, List.length_append, List.length_map]
      exact writable_of_started h hall d.1 (mem_of_mem_dealt hd)
    · intro b hb
      obtain ⟨hits, hparse, -⟩ := hisolated.own words h d hd
      exact (legible_iff hb d.2).2 ⟨hits, hparse⟩
  · intro hall
    cases h : Query.tokenize query with
    | error err => exact isolated_of_tokenize_error h rfl hselect hne
    | ok words =>
        have hfair := hall words h
        have hwritable : ∀ s ∈ settings.chosen names, Writable s := by
          intro s hs
          rw [← map_fst_dealt (settings.chosen names) script.outcomes] at hs
          obtain ⟨d, hd, rfl⟩ := List.mem_map.1 hs
          exact (hfair d hd).1
        have hlisted : ∀ d ∈ dealt (settings.chosen names) script.outcomes, Listed d := by
          intro d hd
          obtain ⟨b, hb⟩ := hbackend d.1 (mem_of_mem_dealt hd)
          obtain ⟨hits, hparse⟩ := (legible_iff hb d.2).1 ((hfair d hd).2 b hb)
          exact listed_of_parse hparse
        exact isolated_of_listed h rfl hselect hne (Settings.nodup_name_chosen hwell hnames)
          hbackend hwritable hlisted

/-! ## A service of two servers -/

/-- A settings file with two servers below one mail directory. -/
def pairSection : Settings.Section :=
  [(.string "servers", .sequence
    [.mapping
      [(.string "name", .string "s"), (.string "index_dir", .string "/i"),
        (.string "remove_prefix", .string "/m/")],
    .mapping
      [(.string "name", .string "t"), (.string "index_dir", .string "/i"),
        (.string "remove_prefix", .string "/m/")]])]

/-- The settings in the file. -/
def pairSettings : Settings :=
  { log := Settings.Log.default
    servers := [plainServer "s", plainServer "t"]
    output := Settings.Output.default }

theorem read_pairSection : Settings.read ⟨[]⟩ pairSection = .ok pairSettings := by
  have hsections : Settings.readSections ⟨[]⟩ pairSection = .ok pairSettings := rfl
  have hunknown : pairSettings.output.unknownFormats = [] := by
    simp [pairSettings, Settings.Output.unknownFormats, Settings.Output.default,
      Settings.Output.knownFormats]
  have houtput : Settings.checkOutput pairSettings.output = .ok () := by
    rw [Settings.checkOutput, hunknown]
    rfl
  have hcheck : pairSettings.check = .ok () := by
    rw [Settings.check, houtput]
    rfl
  rw [Settings.read, hsections]
  simp only [hcheck]

/-- The output of a child that lists one message. -/
def printedOutcome : Outcome :=
  .exited 0 (Text.Utf8.encode "5\tfile:///m/g/7\n".toList)

/-- One child does not start, and the other lists a message. -/
def pairScript : Script :=
  ⟨[.notStarted "gone", printedOutcome], []⟩

theorem eq_nnml_of_plainServer {name : String} {b : Backend}
    (h : (plainServer name).backend = b.name) : b = .nnml := by
  cases b with
  | nnml => rfl
  | nnmaildir => exact absurd h (show ("nnml" : String) ≠ "nnmaildir" by decide)

theorem servers_isolated_pair :
    Settings.read ⟨[]⟩ pairSection = .ok pairSettings ∧
    (∀ name ∈ ["t", "s"], ∃ s ∈ pairSettings.servers, s.name = name) ∧
    ∃ svc, ofSettings Script.run ⟨[]⟩ pairSettings = .ok svc ∧
      ∃ report, Isolated ⟨[]⟩ (pairSettings.chosen ["t", "s"]) "x" pairScript
        (svc.search "x" ["t", "s"] none pairScript) report := by
  have hnames : ∀ name ∈ ["t", "s"], ∃ s ∈ pairSettings.servers, s.name = name := by
    simp [pairSettings, plainServer]
  obtain ⟨svc, hsvc, hisolated⟩ :=
    servers_isolated read_pairSection ⟨[]⟩ hnames "x" none pairScript
  refine ⟨read_pairSection, hnames, svc, hsvc, hisolated.2 ?_⟩
  have hdealt : dealt (pairSettings.chosen ["t", "s"]) pairScript.outcomes =
      [(plainServer "t", .notStarted "gone"), (plainServer "s", printedOutcome)] := rfl
  have hnone : Listing.notices .nnml (plainServer "t").removePrefix.toList
      ((Outcome.notStarted "gone").text .utf8) = [] := rfl
  have hone : Listing.notices .nnml (plainServer "s").removePrefix.toList
      (printedOutcome.text .utf8) = [⟨['5'], ['g'], ['7']⟩] := rfl
  intro words _ d hd
  rw [hdealt, List.mem_pair] at hd
  rcases hd with rfl | rfl
  · refine ⟨writable_plainServer "t", ?_⟩
    intro b hb n hn
    obtain rfl := eq_nnml_of_plainServer hb
    rw [hnone] at hn
    cases hn
  · refine ⟨writable_plainServer "s", ?_⟩
    intro b hb n hn
    obtain rfl := eq_nnml_of_plainServer hb
    rw [hone, List.mem_singleton] at hn
    subst hn
    exact ⟨by decide, by decide⟩

theorem outcome_of_not_legible {o : Outcome} (ho : ¬ Legible .nnml (plainServer "t") o)
    {svc : Service Script}
    (hselect : svc.select ["t"] = .ok ([plainServer "t"].map (source Script.run ⟨[]⟩))) :
    (svc.search "x" ["t"] none ⟨[o], []⟩).outcome = .error (.allFailed ["t"]) := by
  have hwords : Query.tokenize "x" = .ok ["x"] := by decide
  have hwritable : ∀ s ∈ [plainServer "t"], Writable s := by
    simp [writable_plainServer]
  obtain ⟨hreplies, -⟩ := replies_of_writable ⟨[]⟩ none hwords hwritable ⟨[o], []⟩
  obtain ⟨message, hmessage⟩ : ∃ message,
      (replyOf ⟨[]⟩ ["x"] (plainServer "t", o)).response.result = .error message :=
    result_eq_error_of_not_legible rfl ho _
  have hfailed : (replies "x" none ([plainServer "t"].map (source Script.run ⟨[]⟩))
      ⟨[o], []⟩).flatMap Reply.failed = ["t"] := by
    rw [hreplies]
    simp only [dealt, List.headD_cons, List.map_cons, List.map_nil, List.flatMap_cons,
      List.flatMap_nil, Reply.failed, hmessage]
    rfl
  exact search_of_failed hselect hfailed rfl

/-- A service does not report if the only child that it starts prints a score that is too long. -/
theorem service_not_isolated :
    Settings.read ⟨[]⟩ pairSection = .ok pairSettings ∧
    (∀ name ∈ ["t"], ∃ s ∈ pairSettings.servers, s.name = name) ∧
    ∃ svc, ofSettings Script.run ⟨[]⟩ pairSettings = .ok svc ∧
      (svc.search "x" ["t"] none ⟨[overlongOutcome], []⟩).outcome = .error (.allFailed ["t"]) ∧
      ∀ report, ¬ Isolated ⟨[]⟩ (pairSettings.chosen ["t"]) "x" ⟨[overlongOutcome], []⟩
        (svc.search "x" ["t"] none ⟨[overlongOutcome], []⟩) report := by
  have hnames : ∀ name ∈ ["t"], ∃ s ∈ pairSettings.servers, s.name = name := by
    simp [pairSettings, plainServer]
  have hwell := Settings.wellFormed_of_read read_pairSection
  have hfails := outcome_of_not_legible (not_legible_overlongOutcome "t")
    (select_ofSettings ⟨[]⟩ hwell (some []) hnames)
  refine ⟨read_pairSection, hnames, _, ofSettings_eq_ok hwell, hfails, ?_⟩
  intro report hisolated
  have hreturned := hisolated.returned
  rw [hfails] at hreturned
  cases hreturned

end Service

end IndexedMail
