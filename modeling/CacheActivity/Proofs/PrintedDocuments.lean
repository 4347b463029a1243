import CacheActivity.Proofs.ExportPaths
import CacheActivity.Proofs.PrettyTexts

/-!
# Documents that runs print

Activity and facets are printed as one JSON document each, and warnings and logs go elsewhere. What
the document was made of can be taken out of it again: the points of the series, the summary, the
totals and the facets (`View.ofValue?_toValue`), so different views never look the same
(`document_of_jsonRun`).
-/

namespace CacheActivity

open Json (Value Members Plain)

namespace Json

def Value.asText? : Value → Option String
  | .text s => some s
  | _ => none

def Value.asCount? : Value → Option Count
  | .number (.whole z) =>
    if h : Count.least ≤ z ∧ z ≤ Count.greatest then some ⟨z, h.1, h.2⟩ else none
  | _ => none

/-- The items of an array, each taken for something. -/
def Value.asItems? {α : Type} (item : Value → Option α) : Value → Option (List α)
  | .array vs => vs.mapM item
  | _ => none

def Value.asMembers? : Value → Option Members
  | .object ms => some ms
  | _ => none

theorem Value.asCount?_whole (a : Count) : (whole a.toInt).asCount? = some a :=
  dif_pos ⟨a.least_le, a.le_greatest⟩

theorem Value.asItems?_map {α : Type} {item : Value → Option α} {value : α → Value}
    (h : ∀ a, item (value a) = some a) (as : List α) :
    (Value.array (as.map value)).asItems? item = some as := by
  rw [asItems?]
  induction as with
  | nil => rfl
  | cons a as ih => simp [h, ih]

theorem Value.asItems?_texts (ss : List String) :
    (Value.array (ss.map .text)).asItems? asText? = some ss :=
  asItems?_map (fun s => show (text s).asText? = some s from rfl) ss

end Json

namespace Usage

open Json.Value (asItems?_map asItems?_texts asCount?_whole)

def SeriesPoint.ofValue? (v : Value) : Option SeriesPoint := do
  let ms ← v.asMembers?
  return ⟨← (← ms.get? "name").asText?, ← (← ms.get? "LLM API requests").asCount?,
    ← (← ms.get? "Cache hit").asCount?, ← (← ms.get? "Cached Completion Tokens").asCount?,
    ← (← ms.get? "Generated Completion Tokens").asCount?⟩

def Summary.ofValue? (v : Value) : Option Summary := do
  let ms ← v.asMembers?
  return ⟨← (← ms.get? "cacheHits").asText?, ← (← ms.get? "cachedTokens").asText?,
    ← (← ms.get? "cacheHitRatio").asText?⟩

def Totals.ofValue? (v : Value) : Option Totals := do
  let ms ← v.asMembers?
  return ⟨← (← ms.get? "cacheHits").asCount?, ← (← ms.get? "cachedTokens").asCount?,
    ← (← ms.get? "llmApiRequests").asCount?⟩

def Facets.ofValue? (v : Value) : Option Facets := do
  let ms ← v.asMembers?
  return ⟨← (← ms.get? "apiKeys").asItems? Value.asText?,
    ← (← ms.get? "models").asItems? Value.asText?,
    ← (← ms.get? "callTypes").asItems? Value.asText?⟩

/-- The view of a document, and the summary that stands in it. -/
def View.ofValue? (v : Value) : Option (View × Summary) := do
  let ms ← v.asMembers?
  let series ← (← ms.get? "series").asItems? SeriesPoint.ofValue?
  let summary ← Summary.ofValue? (← ms.get? "summary")
  let totals ← Totals.ofValue? (← ms.get? "totals")
  let facets ← Facets.ofValue? (← ms.get? "facets")
  return (⟨⟨series, totals⟩, facets⟩, summary)

theorem SeriesPoint.ofValue?_toValue (p : SeriesPoint) : ofValue? p.toValue = some p := by
  simp [ofValue?, toValue, Value.asMembers?, Members.get?_cons, Value.asText?, asCount?_whole]

theorem Summary.ofValue?_toValue (s : Summary) : ofValue? s.toValue = some s := by
  simp [ofValue?, toValue, Value.asMembers?, Members.get?_cons, Value.asText?]

theorem Totals.ofValue?_toValue (t : Totals) : ofValue? t.toValue = some t := by
  simp [ofValue?, toValue, Value.asMembers?, Members.get?_cons, asCount?_whole]

theorem Facets.ofValue?_toValue (f : Facets) : ofValue? f.toValue = some f := by
  simp [ofValue?, toValue, Value.asMembers?, Members.get?_cons, asItems?_texts]

theorem View.ofValue?_toValue (v : View) : ofValue? v.toValue = some (v, v.report.summary) := by
  simp [ofValue?, toValue, Report.toMembers, Value.asMembers?, Members.get?_cons,
    asItems?_map SeriesPoint.ofValue?_toValue, Summary.ofValue?_toValue, Totals.ofValue?_toValue,
    Facets.ofValue?_toValue]

theorem plain_count (d : Nat) (a : Count) : Plain d (.whole a.toInt) :=
  .whole a.least_le (Int.le_trans a.le_greatest (by decide))

theorem plain_texts (d : Nat) (ss : List String) : Plain (d + 1) (.array (ss.map .text)) :=
  .array (List.forall_mem_map.2 fun s _ => .text s)

theorem SeriesPoint.plain_toValue (d : Nat) (p : SeriesPoint) : Plain (d + 1) p.toValue := by
  refine .object (by simp [Members.keys]) ?_
  simp [plain_count, Plain.text]

theorem Summary.plain_toValue (d : Nat) (s : Summary) : Plain (d + 1) s.toValue := by
  refine .object (by simp [Members.keys]) ?_
  simp [Plain.text]

theorem Totals.plain_toValue (d : Nat) (t : Totals) : Plain (d + 1) t.toValue := by
  refine .object (by simp [Members.keys]) ?_
  simp [plain_count]

theorem Facets.plain_toValue (d : Nat) (f : Facets) : Plain (d + 2) f.toValue := by
  refine .object (by simp [Members.keys]) ?_
  simp [plain_texts]

theorem View.plain_toValue (d : Nat) (v : View) : Plain (d + 3) v.toValue := by
  refine .object (by simp [Members.keys, Report.toMembers]) ?_
  simp [Report.toMembers, Plain.array, SeriesPoint.plain_toValue, Summary.plain_toValue,
    Totals.plain_toValue, Facets.plain_toValue]

end Usage

namespace Command

open Calendar (Window)
open Files (Disk)
open Usage (Row Selection View Facets)

theorem read_documentLines {v : Value} (h : Plain Json.depthLimit v) :
    Json.read (Display.text (documentLines v)) = .ok v := by
  have hafter : Json.Blanks ['\n'] := Json.blanks_newLine 0
  have hpretty : v.pretty.toList = v.prettyChars 0 := String.toList_ofList
  rw [documentLines, hpretty, Display.text, List.flatMap_singleton]
  exact Json.read_pretty h hafter

/-! ## Runs that print a document -/

def Scope.rows (c : Scope) (s : Settings) (today : Calendar.Date) (d : Disk) :
    Except Abort (List Row) := do
  let w ← c.window s today
  (Capture.fetch d (c.dataPath s) w).mapError .fault

/-- What is logged while the rows of a scope are fetched for the first time. -/
def Scope.fetchEvents (c : Scope) (s : Settings) (d : Disk) (w : Window) (rows : List Row) :
    List Log.Event :=
  Capture.fetchEvents d (c.dataPath s) w ++
    [⟨.info, "fetched cache activity",
      [("from", w.first.text), ("to", w.last.text), ("rows", toString rows.length)]⟩,
    ⟨.debug, "applying cache activity rows", [("ticket", "1"), ("rows", toString rows.length)]⟩]

theorem refreshEvents_start (w : Window) (selection : Selection) (rows : List Row) :
    (Dashboard.start w selection).refreshEvents (.ok rows) =
      [⟨.info, "fetched cache activity",
        [("from", w.first.text), ("to", w.last.text), ("rows", toString rows.length)]⟩,
      ⟨.debug, "applying cache activity rows",
        [("ticket", "1"), ("rows", toString rows.length)]⟩] := by
  have hone : toString (Ticket.first.next.number) = "1" := rfl
  simp [Dashboard.refreshEvents, Dashboard.arrival, Dashboard.request, Dashboard.start,
    Dashboard.Accepts, Ticket.le_def, Window.bounds, ← hone]

theorem refreshed_start {path : String} {d : Disk} {w : Window} {selection : Selection}
    {rows : List Row} (h : Capture.fetch d path w = .ok rows) :
    refreshed path d (.start w selection) = (.ok true,
      Capture.fetchEvents d path w ++ (Dashboard.start w selection).refreshEvents (.ok rows),
      { Dashboard.start w selection with latest := Ticket.first.next, rows }) := by
  simp only [refreshed, Dashboard.refresh_eq, captures, Dashboard.start, h, List.nil_append]

theorem exists_rows_of_withDashboard {o : Occasion} {s : Settings} {c : Scope} {d : Disk}
    {selection : Selection} {next : Dashboard → Outcome}
    (h : (run.withDashboard o s c d selection next).ending.code = 0) :
    ∃ w rows board, c.window s o.today = .ok w ∧ Capture.fetch d (c.dataPath s) w = .ok rows ∧
      board.view = .ofRows selection rows ∧
      run.withDashboard o s c d selection next =
        (next board).logged (c.fetchEvents s d w rows) := by
  unfold run.withDashboard Scope.dashboard at h ⊢
  cases hwindow : c.window s o.today with
  | error cause =>
    rw [hwindow] at h
    cases cause <;> cases h
  | ok w =>
    simp only [hwindow] at h ⊢
    cases hfetch : Capture.fetch d (c.dataPath s) w with
    | error cause =>
      have hfailed : ∃ log board, refreshed (c.dataPath s) d (.start w selection) =
          (.error cause, log, board) := by
        simp only [refreshed, Dashboard.refresh_eq, captures, Dashboard.start, hfetch]
        exact ⟨_, _, rfl⟩
      obtain ⟨log, board, hfailed⟩ := hfailed
      rw [hfailed] at h
      cases h
    | ok rows =>
      rw [refreshed_start hfetch]
      let board := { Dashboard.start w selection with latest := Ticket.first.next, rows }
      refine ⟨w, rows, board, rfl, hfetch, rfl, ?_⟩
      rw [refreshEvents_start]
      rfl

/-- A run of a command that shows JSON and ends well. -/
structure JsonRun (command : Command) where
  occasion : Occasion
  words : List String
  disk : Disk
  scope : Scope
  read : Invocation.read words = .ok ⟨scope, command⟩
  json : scope.json = true
  done : (runWords occasion words disk).ending.code = 0

namespace JsonRun

variable {command : Command} (x : JsonRun command)

def outcome : Outcome := runWords x.occasion x.words x.disk

/-- All that a run writes to the stream for output. -/
def output : String := textOfRun .output x.occasion x.words x.disk

def settings : Settings := (settingsOrDefault x.occasion.home x.disk).1

def warnings : List String := (settingsOrDefault x.occasion.home x.disk).2

def rows : Except Abort (List Row) := x.scope.rows x.settings x.occasion.today x.disk

/-- That a run says nothing but the warnings of its settings, what is logged while it fetches its
rows, and the text of a value. -/
def Says (rows : List Row) (v : Value) : Prop :=
  ∃ w, x.scope.window x.settings x.occasion.today = .ok w ∧
    x.outcome.said = x.warnings.map .warning ++
      ((x.scope.fetchEvents x.settings x.disk w rows).map .event ++ [.line v.pretty.toList])

theorem outcome_eq : x.outcome =
    (run x.occasion x.settings x.scope x.disk command).warned x.warnings := by
  simp only [outcome, runWords, x.read]
  rfl

end JsonRun

/-- What a run says beside a document does not get into its output. -/
theorem JsonRun.Says.output_eq {command : Command} {x : JsonRun command} {rows : List Row}
    {v : Value} (h : x.Says rows v) : x.output = Display.text (documentLines v) := by
  obtain ⟨w, -, hsaid⟩ := h
  have hwarnings (ws : List String) : (ws.map Said.warning).filterMap Said.line? = [] :=
    List.filterMap_eq_nil_iff.2 (List.forall_mem_map.2 fun _ _ => rfl)
  have hevents (es : List Log.Event) : (es.map Said.event).filterMap Said.line? = [] :=
    List.filterMap_eq_nil_iff.2 (List.forall_mem_map.2 fun _ _ => rfl)
  have hshown : x.outcome.shown = documentLines v := by
    rw [Outcome.shown, hsaid, List.filterMap_append, List.filterMap_append, hwarnings, hevents]
    rfl
  exact (Outcome.textOn_output _ x.outcome).trans (congrArg Display.text hshown)

/-- A run that shows a value of its dashboard's view shows the value of the view of its rows. -/
theorem says_of_withDashboard {command : Command} (x : JsonRun command) (selection : Selection)
    (value : View → Value) {next : Dashboard → Outcome}
    (hrun : run x.occasion x.settings x.scope x.disk command =
      run.withDashboard x.occasion x.settings x.scope x.disk selection next)
    (hnext : ∀ board, next board = .ofLines x.disk (documentLines (value board.view))) :
    ∃ rows, x.rows = .ok rows ∧ x.Says rows (value (.ofRows selection rows)) := by
  have hdone : (run.withDashboard x.occasion x.settings x.scope x.disk selection
      next).ending.code = 0 := by
    have h := x.done
    rw [← JsonRun.outcome, x.outcome_eq, hrun] at h
    exact h
  obtain ⟨w, rows, board, hwindow, hfetch, hview, hboard⟩ := exists_rows_of_withDashboard hdone
  refine ⟨rows, ?_, w, hwindow, ?_⟩
  · rw [JsonRun.rows, Scope.rows, hwindow]
    show (Capture.fetch x.disk (x.scope.dataPath x.settings) w).mapError Abort.fault = .ok rows
    rw [hfetch]
    rfl
  · rw [x.outcome_eq, hrun, hboard, hnext, hview]
    rfl

theorem says_activity {selection : Selection} {classic : Bool}
    (x : JsonRun (.activity selection classic)) :
    ∃ rows, x.rows = .ok rows ∧ x.Says rows (View.ofRows selection rows).toValue := by
  refine says_of_withDashboard x selection View.toValue rfl fun board => ?_
  rw [showActivity, x.json]
  rfl

theorem says_facets (x : JsonRun .facets) :
    ∃ rows, x.rows = .ok rows ∧ x.Says rows (Facets.ofRows rows).toValue := by
  refine says_of_withDashboard x .all (fun view => view.facets.toValue) rfl fun board => ?_
  rw [showFacets, x.json]
  rfl

theorem read_activity {selection : Selection} {classic : Bool} {rows : List Row}
    {x : JsonRun (.activity selection classic)}
    (h : x.Says rows (View.ofRows selection rows).toValue) :
    Json.read x.output = .ok (View.ofRows selection rows).toValue := by
  rw [h.output_eq]
  exact read_documentLines (View.plain_toValue 124 _)

theorem read_facets {rows : List Row} {x : JsonRun .facets}
    (h : x.Says rows (Facets.ofRows rows).toValue) :
    Json.read x.output = .ok (Facets.ofRows rows).toValue := by
  rw [h.output_eq]
  exact read_documentLines (Facets.plain_toValue 125 _)

def jsonScope (capture : String) : Scope := ⟨none, none, some capture, true, false⟩

/-- A library that writes the message of every event. -/
def talkativeLibrary : Log.Library where
  filter? := fun _ => none
  filter := fun _ _ => true
  text := fun _ e => e.message ++ "\n"

/-- A disk with a capture in which one line is no row, and without a file of settings. -/
def brokenCapture : Disk :=
  (Disk.blank []).put ["c.jsonl"]
    (.file (some "\x7b\"call_type\": \"b\", \"total_rows\": 1\x7d\n17\n"))

def talkativeOccasion : Occasion := ⟨"/home", runDay, "", ⟨talkativeLibrary, none⟩⟩

def activityRun : JsonRun (.activity .all false) where
  occasion := talkativeOccasion
  words := ["--json", "--path", "c.jsonl", "activity"]
  disk := brokenCapture
  scope := jsonScope "c.jsonl"
  read := rfl
  json := rfl
  done := by decide +kernel

def facetsRun : JsonRun .facets where
  occasion := talkativeOccasion
  words := ["--json", "--path", "c.jsonl", "facets"]
  disk := brokenCapture
  scope := jsonScope "c.jsonl"
  read := rfl
  json := rfl
  done := by decide +kernel

end Command

end CacheActivity
