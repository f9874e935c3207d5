import LuaSymbols.Lua.Grammar
import LuaSymbols.Proofs.Batches
import LuaSymbols.Proofs.Transcripts
import LuaSymbols.Proofs.Visits
import Mathlib.Algebra.GroupWithZero.Nat
import Mathlib.Data.List.Forall2

namespace LuaSymbols

theorem length_sub_countP {α : Type} (p : α → Bool) (l : List α) :
    l.length - l.countP p = l.countP fun a => !p a := by
  have hall := List.length_eq_countP_add_countP p (l := l)
  simp only [Bool.not_eq_true, Bool.decide_eq_false] at hall
  omega

namespace ReportRow

def ofShown (uri : String) (shown : Option Contents) : ReportRow :=
  ⟨uri, (shown.elim [] (·.symbols)).length, (shown.elim [] (·.problems)).head?⟩

/-- No problem is worded like the status of a document without one. -/
theorem status_eq_fine (row : ReportRow) : row.status = fine ↔ row.problem = none := by
  unfold status
  cases row.problem with
  | none => simp
  | some p =>
    constructor
    · intro h
      -- The status of a problem is red and not green.
      have htext : "[red]" ++ p.message ++ " (" ++ toString p.range.start.line ++ ")[/red]" =
          "[green]ok[/green]" := h
      have hcolour := congrArg (fun s : String => s.toList.drop 1 |>.head?) htext
      simp at hcolour
    · intro h
      cases h

/-- What the row says is true of the text of a document. -/
structure About (parser : Parser) (d : String × Text) (row : ReportRow) : Prop where
  uri : row.uri = d.1
  /-- The count is that of the named functions which the walk over the text reaches. -/
  functions : ∀ tree, parser d.2 = .ok tree →
    row.functions = tree.visible.countP Node.isNamedFunction
  unparsed : ∀ why, parser d.2 = .error why → row.functions = 0
  status : row.status = fine ↔ (parser d.2).isOk = true

end ReportRow

/-- The functions of a row are the named functions of the tree, nested ones included. -/
theorem Node.length_symbols {node : Node} {container : String} {found : Findings}
    (h : node.walk container = .ok found) :
    found.symbols.toList.length = node.visible.countP isNamedFunction := by
  rw [(walk_findings h).2, List.length_filterMap_eq_countP]
  apply List.countP_congr
  intro n _
  rw [isSome_declaration?]

/-- A row is right about a document that was not known before. -/
theorem ReportRow.about_ofShown {parser : Parser} (hp : parser.Lawful) (uri : String) (text : Text) :
    About parser (uri, text)
      (ofShown uri (some (Contents.empty.reread parser (identityOf uri) text))) := by
  have hproblems := Contents.problems_reread hp .empty (identityOf uri) text
  refine ⟨rfl, ?_, ?_, ?_⟩
  · intro tree htree
    obtain ⟨found, hfound⟩ := hp.walks text tree htree (identityOf uri)
    rw [Contents.reread_of_found htree hfound]
    exact Node.length_symbols hfound
  · intro why hwhy
    rcases hp.cases text (identityOf uri) with ⟨failure, hf⟩ | ⟨tree, found, ht, _⟩
    · rw [Contents.reread_of_failure hf]
      rfl
    · rw [ht] at hwhy
      cases hwhy
  · rw [status_eq_fine, ← hproblems]
    exact List.head?_eq_none_iff

namespace Service

variable {tools : Tools} {s : Service}

theorem reportRow_follows (s : Service) (tools : Tools) (uri : String) :
    (s.reportRow tools.lenient uri).Follows tools.console (s.reportRow tools uri) :=
  (query_follows s tools uri [] _).andThen fun s _ => (query_follows s tools uri [] _).map _

theorem reportRows_follows (s : Service) (tools : Tools) (uris : List String) :
    (s.reportRows tools.lenient uris).Follows tools.console (s.reportRows tools uris) := by
  induction uris generalizing s with
  | nil => exact reply_follows s _ []
  | cons uri rest ih => exact (reportRow_follows s tools uri).andThen fun s _ => (ih s).map _

theorem report_follows (s : Service) (tools : Tools) (documents : List (String × Text)) :
    (s.report tools.lenient documents).Follows tools.console (s.report tools documents) :=
  (seedFrom_follows s tools 0 documents).andThen fun s _ => (reportRows_follows s tools _).map _

theorem reportRow_refreshes (s : Service) (tools : Tools) (uri : String) :
    Refreshes tools s (s.reportRow tools uri).service := by
  have hfirst : Refreshes tools s (s.listSymbols tools uri).service :=
    s.query_refreshes tools uri [] _
  refine Reply.andThen_service (P := Refreshes tools s) hfirst fun _ _ => ?_
  exact hfirst.trans (query_refreshes _ tools uri [] _)

/-- A row is read off what queries see, the symbols and the problem of one and the same refresh. -/
theorem reportRow_answer (ht : tools.Lawful) (hk : s.Keyed) (uri : String) :
    (s.reportRow tools uri).answer =
      .ok (.ofShown uri ((s.slot (identityOf uri)).shown tools.parser)) := by
  have hr : Refreshes tools s (s.listSymbols tools uri).service := s.query_refreshes tools uri [] _
  have hsymbols : (s.listSymbols tools uri).answer = _ :=
    query_of_shown ht hk uri [] (·.symbols) (·.symbols) fun _ => rfl
  have hproblems : ((s.listSymbols tools uri).service.diagnostics tools uri).answer = _ :=
    query_of_shown ht (hr.steps.keyed hk) uri [] problemsOf (·.problems) fun _ => rfl
  rw [← (hr.alike hk).shown] at hproblems
  rw [reportRow, Reply.andThen_of_ok hsymbols]
  simp only [Reply.map, hproblems]
  rfl

/-- Rows do not disturb each other, since refreshing shows in none of them. -/
theorem reportRows_answer (ht : tools.Lawful) (hk : s.Keyed) (uris : List String) :
    (s.reportRows tools uris).answer =
      .ok (uris.map fun uri => .ofShown uri ((s.slot (identityOf uri)).shown tools.parser)) := by
  induction uris generalizing s with
  | nil => rfl
  | cons uri rest ih =>
    have hr := s.reportRow_refreshes tools uri
    have hrest := ih (hr.steps.keyed hk)
    simp only [← (hr.alike hk).shown] at hrest
    rw [reportRows, Reply.andThen_of_ok (reportRow_answer ht hk uri)]
    simp only [Reply.map, hrest]
    rfl

theorem Refreshes.notices_subset {s' : Service} (h : Refreshes tools s s') (hk : s.Keyed)
    (identity : String) : (s'.slot identity).notices tools.parser s'.verbose identity ⊆
      (s.slot identity).notices tools.parser s.verbose identity := by
  rw [h.steps.options.2]
  rcases h.slot hk identity with he | he <;> rw [he]
  · exact List.Subset.refl _
  · exact fun n hn => Slot.notices_refreshed hn

/-- The rows of a report tell nothing but what refreshes of its documents tell. -/
theorem mem_notices_reportRows (hp : tools.parser.Lawful) (hk : s.Keyed) {uris : List String}
    {n : Notice} (hn : n ∈ (s.reportRows tools.lenient uris).notices) :
    ∃ uri ∈ uris,
      n ∈ (s.slot (identityOf uri)).notices tools.parser s.verbose (identityOf uri) := by
  induction uris generalizing s with
  | nil => cases hn
  | cons uri rest ih =>
    have hquery := s.query_refreshes tools.lenient uri [] (·.symbols)
    have hsymbols := query_answer hp.lenient hk uri [] (·.symbols)
    have hr := s.reportRow_refreshes tools.lenient uri
    rw [reportRows, Reply.andThen_of_ok (reportRow_answer hp.lenient hk uri)] at hn
    rcases List.mem_append.mp hn with hn | hn
    · refine ⟨uri, List.mem_cons_self, ?_⟩
      rw [reportRow, listSymbols, Reply.andThen_of_ok hsymbols] at hn
      rcases List.mem_append.mp hn with hn | hn
      · rwa [query_notices hk] at hn
      · change n ∈ (query _ tools.lenient uri [] problemsOf).notices at hn
        rw [query_notices (hquery.steps.keyed hk)] at hn
        exact hquery.notices_subset hk _ hn
    · obtain ⟨other, hother, hn⟩ := ih (hr.steps.keyed hk) hn
      exact ⟨other, List.mem_cons_of_mem _ hother, hr.notices_subset hk _ hn⟩

/-- A report tells of each document that does not parse, and of nothing else. -/
theorem report_heard_iff (hp : tools.parser.Lawful) (evictOnClose verbose : Bool)
    {documents : List (String × Text)} (hd : (documents.map fun d => identityOf d.1).Nodup) :
    tools.console.ShowsAll ((new evictOnClose verbose).report tools.lenient documents).notices ↔
      tools.Warns documents := by
  have hk := new_keyed evictOnClose verbose
  have hseed : ((new evictOnClose verbose).seed tools.lenient documents).answer = _ :=
    seedFrom_answer hp.lenient _ 0 documents
  rw [report, Reply.andThen_of_ok hseed]
  dsimp only [Reply.map]
  rw [Console.showsAll_append, seed_heard_iff hp]
  refine and_iff_left_of_imp fun hwarns => ?_
  rw [seed_service, taken_lawful hp.lenient, indexAll_lenient]
  intro n hn
  obtain ⟨uri, huri, hn⟩ := mem_notices_reportRows hp ((indexAll_steps _ tools documents).keyed hk) hn
  obtain ⟨d, hm, rfl⟩ := List.mem_map.mp huri
  rw [slot_indexAll_of_mem hd hm] at hn
  rcases hp.cases d.2 (identityOf d.1) with ⟨failure, hf⟩ | ⟨tree, found, ht, hw⟩
  · rw [Slot.mem_notices_of_failure rfl hf hn]
    exact hwarns d hm failure hf
  · rw [Slot.notices_of_clean rfl (by rw [FileIndex.reindexed_of_found ht hw]; rfl)] at hn
    cases hn

/-- The row that a batch of documents, each with one text, gives for one of them in a new service. -/
theorem shown_indexAll_new (evictOnClose verbose : Bool) {documents : List (String × Text)}
    (hd : (documents.map fun d => identityOf d.1).Nodup) {d : String × Text} (hm : d ∈ documents) :
    (((new evictOnClose verbose).indexAll tools documents).slot (identityOf d.1)).shown tools.parser =
      some (Contents.empty.reread tools.parser (identityOf d.1) d.2) := by
  rw [slot_indexAll_of_mem hd hm, Slot.shown_indexed (new_keyed evictOnClose verbose _)]
  rfl

def rowOf (parser : Parser) (d : String × Text) : ReportRow :=
  .ofShown d.1 (some (Contents.empty.reread parser (identityOf d.1) d.2))

/-- The whole report, row by row, in terms of the texts alone. -/
theorem report_answer (ht : tools.Lawful) (evictOnClose verbose : Bool)
    {documents : List (String × Text)} (hd : (documents.map fun d => identityOf d.1).Nodup) :
    ((new evictOnClose verbose).report tools documents).answer =
      .ok ⟨documents.map (rowOf tools.parser),
        ((documents.map (rowOf tools.parser)).map (·.functions)).sum,
        documents.length - documents.countP fun d => (tools.parser d.2).isOk⟩ := by
  let seeded := (new evictOnClose verbose).indexAll tools documents
  have hk : seeded.Keyed := (indexAll_steps _ tools documents).keyed (new_keyed _ _)
  have hservice : ((new evictOnClose verbose).seed tools documents).service = seeded := by
    rw [seed_service, taken_lawful ht]
  have hcount : ((new evictOnClose verbose).seed tools documents).answer =
      .ok (documents.countP fun d => (tools.parser d.2).isOk) := by
    rw [seed, seedFrom_answer ht, Nat.zero_add]
  have hrows : (seeded.reportRows tools (documents.map Prod.fst)).answer =
      .ok (documents.map (rowOf tools.parser)) := by
    rw [reportRows_answer ht hk, List.map_map]
    congr 1
    apply List.map_congr_left
    intro d hm
    exact congrArg (ReportRow.ofShown d.1) (shown_indexAll_new evictOnClose verbose hd hm)
  rw [report, Reply.andThen_of_ok hcount, hservice]
  simp only [Reply.map, hrows]
  rfl

/-- There is a report exactly if the console shows the warnings about the documents that do not parse. Its
last line counts the rows that are not in order, which are those of these documents, and adds up the
functions of the rows, each of which has those of its text. It is shown exactly if the console shows each
text of it. -/
theorem report_tallies (tools : Tools) (hp : tools.parser.Lawful) (evictOnClose verbose : Bool)
    (documents : List (String × Text)) (hd : (documents.map fun d => identityOf d.1).Nodup) :
    let given := ((new evictOnClose verbose).report tools documents).answer
    ((∃ report, given = .ok report) ↔ tools.Warns documents) ∧
    ∀ report, given = .ok report →
      List.Forall₂ (ReportRow.About tools.parser) documents report.rows ∧
      report.failures = report.rows.countP (fun row => row.status != ReportRow.fine) ∧
      report.failures = documents.countP (fun d => !(tools.parser d.2).isOk) ∧
      report.functions = (report.rows.map (·.functions)).sum ∧
      ∀ directory, (Command.showReport tools.console directory report).EndsIff
        (∀ markup ∈ Command.reportTexts directory report, (tools.console markup).isSome = true) := by
  intro given
  -- On the lenient console there is always this report; the real one gives it or nothing.
  have hgiven (report : Report) : given = .ok report ↔ tools.Warns documents ∧
      .ok ⟨documents.map (rowOf tools.parser),
        ((documents.map (rowOf tools.parser)).map (·.functions)).sum,
        documents.length - documents.countP fun d => (tools.parser d.2).isOk⟩ =
          (.ok report : Except Fault Report) := by
    rw [(report_follows (new evictOnClose verbose) tools documents).answer_ok_iff,
      report_heard_iff hp evictOnClose verbose hd, report_answer hp.lenient evictOnClose verbose hd]
    rfl
  have habout : ∀ d, ReportRow.About tools.parser d (rowOf tools.parser d) :=
    fun d => ReportRow.about_ofShown hp d.1 d.2
  have hbad := length_sub_countP (fun d : String × Text => (tools.parser d.2).isOk) documents
  refine ⟨?_, ?_⟩
  · constructor
    · rintro ⟨report, hreport⟩
      exact ((hgiven report).mp hreport).1
    · exact fun hwarns => ⟨_, (hgiven _).mpr ⟨hwarns, rfl⟩⟩
  · rintro report hreport
    cases ((hgiven report).mp hreport).2
    refine ⟨?_, ?_, hbad, rfl, fun directory => Command.endsIff_showReport _ directory _⟩
    · rw [List.forall₂_map_right_iff]
      exact List.forall₂_same.mpr fun d _ => habout d
    · change documents.length - _ = (documents.map (rowOf tools.parser)).countP _
      rw [hbad, List.countP_map]
      apply List.countP_congr
      intro d _
      have hstatus := (habout d).status
      cases hok : (tools.parser d.2).isOk <;> simp [hok] at hstatus ⊢ <;> exact hstatus

def mixedBatch : List (String × Text) :=
  [("C:\\a", Text.ofString "f"), ("file:///C:/a", Text.ofString "f("), ("b", Text.ofString "f")]

/-- A text that does not parse stands between two that do, and the documents are named in three ways. -/
theorem report_tallies_mixedBatch :
    (Tools.recursion "f").parser.Lawful ∧ (mixedBatch.map fun d => identityOf d.1).Nodup ∧
    ∃ report, ((new false false).report (.recursion "f") mixedBatch).answer = .ok report ∧
      report.failures = report.rows.countP (fun row => row.status != ReportRow.fine) ∧
      report.functions = (report.rows.map (·.functions)).sum ∧
      report.rows.map (·.functions) = [1, 0, 1] ∧
      Markup.console report.summary =
        some "Indexed 2 functions across 3 files (1 with parse errors)" := by
  have hp : (Tools.recursion "f").parser.Lawful := Parser.recursion_lawful "f"
  have hd : (mixedBatch.map fun d => identityOf d.1).Nodup := by decide +kernel
  have hwarns : (Tools.recursion "f").Warns mixedBatch :=
    (seed_heard_iff hp (new false false) mixedBatch).mp (by decide +kernel)
  obtain ⟨hgiven, htallies⟩ := report_tallies (.recursion "f") hp false false mixedBatch hd
  obtain ⟨report, hreport⟩ := hgiven.mpr hwarns
  obtain ⟨_, hfailures, _, hsum, _⟩ := htallies report hreport
  have hwritten : ((new false false).report (.recursion "f") mixedBatch).answer.toOption.map
      (fun r => (r.rows.map (·.functions), Markup.console r.summary)) =
        some ([1, 0, 1], some "Indexed 2 functions across 3 files (1 with parse errors)") := by
    decide +kernel
  rw [hreport] at hwritten
  obtain ⟨hrows, hsummary⟩ := Prod.mk.inj (Option.some.inj hwritten)
  exact ⟨hp, hd, report, hreport, hfailures, hsum, hrows, hsummary⟩

/-- The failure quotes the text, and what it quotes ends a style that nothing has begun. -/
theorem report_refused_jump :
    ((new false false).report ⟨fun text => text.parseWith "5.1" Lua.parseTree?, Markup.console⟩
      [("file:///w/a.lua", Text.ofString "goto--[[/x]]done\n::done::\n")]).answer.isOk = false := by
  decide +kernel

end Service

end LuaSymbols
