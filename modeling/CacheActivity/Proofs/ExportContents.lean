import CacheActivity.Export
import CacheActivity.Proofs.CountTexts
import CacheActivity.Proofs.Writes
import CacheActivity.Usage.Selection

/-!
# What the files of an export hold

A reader of comma-separated values goes over a text character by character (`Csv.Reading.step`).
Over a written field it comes to just the characters of that field, whatever commas, quotes and line
breaks there are in it (`readAll_writeField`), so it gets all records back that were written
(`read_write`). For an export this means that no type of call splits or joins a record, and that
nothing of a series is lost (`export_reads_back`).
-/

namespace CacheActivity.Csv

/-- Where in a field a reader is. -/
inductive Spot where
  | start
  | bare
  | quoted
  /-- Behind a quote in a quoted field: the last one, or the first of two. -/
  | quoteSeen
  /-- Behind a carriage return, which a line feed has to follow. -/
  | returnSeen
  deriving DecidableEq

/-- What has been read: records, fields of the next one, and characters of the next field. -/
structure Reading where
  records : List Record
  fields : Record
  field : Field
  spot : Spot
  deriving DecidableEq

namespace Reading

def empty : Reading := ⟨[], [], [], .start⟩

def add (c : Char) (spot : Spot) (r : Reading) : Reading := { r with field := r.field ++ [c], spot }

def endField (r : Reading) : Reading := ⟨r.records, r.fields ++ [r.field], [], .start⟩

def endRecord (r : Reading) : Reading := ⟨r.records ++ [r.fields ++ [r.field]], [], [], .start⟩

/-- What ends a field that is not in quotes, or that is behind its quotes. Lines end with a carriage
return and a line feed, or with a line feed alone. -/
def stepBehind (r : Reading) (c : Char) : Option Reading :=
  if c = ',' then some r.endField
  else if c = '\n' then some r.endRecord
  else if c = '\r' then some { r with spot := .returnSeen }
  else none

/-- Goes over a character. A bare field has no quotes, and nothing follows the quotes of another. -/
def step (r : Reading) (c : Char) : Option Reading :=
  match r.spot with
  | .start =>
    if c = '"' then some { r with spot := .quoted }
    else if isSpecial c then r.stepBehind c
    else some (r.add c .bare)
  | .bare => if isSpecial c then r.stepBehind c else some (r.add c .bare)
  | .quoted => if c = '"' then some { r with spot := .quoteSeen } else some (r.add c .quoted)
  | .quoteSeen => if c = '"' then some (r.add c .quoted) else r.stepBehind c
  | .returnSeen => if c = '\n' then some r.endRecord else none

def readAll (r : Reading) (cs : List Char) : Option Reading := cs.foldlM step r

/-- All records of a text that ends here. The last line may lack its break. -/
def finish (r : Reading) : Option (List Record) :=
  match r.spot with
  | .start => some (if r.fields = [] then r.records else r.endRecord.records)
  | .bare | .quoteSeen => some r.endRecord.records
  | .quoted | .returnSeen => none

end Reading

def read (cs : List Char) : Option (List Record) := Reading.empty.readAll cs >>= Reading.finish

/-- Both line breaks, a break and a quote in quotes, and a last line without a break. -/
example : read "a,\"b\n\"\"\"\r\n\nc,".toList =
    some [["a".toList, "b\n\"".toList], [[]], ["c".toList, []]] := by decide

namespace Reading

variable {r r' : Reading} {cs ds : List Char}

theorem readAll_append (h : r.readAll cs = some r') : r.readAll (cs ++ ds) = r'.readAll ds := by
  rw [readAll, List.foldlM_append]
  exact congrArg (· >>= fun r => r.readAll ds) h

theorem readAll_cons {c : Char} (h : r.step c = some r') : r.readAll (c :: cs) = r'.readAll cs := by
  rw [readAll, List.foldlM_cons, h]
  rfl

theorem readAll_bare (h : cs.any isSpecial = false) (hr : r.spot = .bare) :
    r.readAll cs = some { r with field := r.field ++ cs } := by
  induction cs generalizing r with
  | nil => simp [readAll]
  | cons c cs ih =>
    rw [List.any_cons, Bool.or_eq_false_iff] at h
    have hstep : r.step c = some (r.add c .bare) := by simp [step, hr, h.1]
    rw [readAll_cons hstep, ih h.2 rfl]
    simp [add, hr]

theorem readAll_doubleQuotes (cs : Field) (hr : r.spot = .quoted) :
    r.readAll (doubleQuotes cs) = some { r with field := r.field ++ cs } := by
  induction cs generalizing r with
  | nil => simp [readAll, doubleQuotes]
  | cons c cs ih =>
    rw [doubleQuotes, List.flatMap_cons, ← doubleQuotes]
    by_cases hc : c = '"'
    · have hfirst : r.step '"' = some { r with spot := .quoteSeen } := by simp [step, hr]
      have hsecond : Reading.step { r with spot := .quoteSeen } '"' =
          some (r.add '"' .quoted) := rfl
      rw [if_pos hc, List.cons_append, List.cons_append, readAll_cons hfirst, readAll_cons hsecond,
        List.nil_append, ih rfl, hc]
      simp [add, hr]
    · have hstep : r.step c = some (r.add c .quoted) := by simp [step, hr, hc]
      rw [if_neg hc, List.singleton_append, readAll_cons hstep, ih rfl]
      simp [add, hr]

/-- That a field has been read, up to what comes behind it. -/
structure Holds (records : List Record) (fields : Record) (field : Field) (r : Reading) : Prop where
  records : r.records = records
  fields : r.fields = fields
  field : r.field = field
  spot : r.spot = .start ∨ r.spot = .bare ∨ r.spot = .quoteSeen

variable {records : List Record} {fields : Record} {field : Field}

theorem Holds.step_comma (h : Holds records fields field r) :
    r.step ',' = some ⟨records, fields ++ [field], [], .start⟩ := by
  obtain ⟨rfl, rfl, rfl, hspot | hspot | hspot⟩ := h <;>
    simp [step, hspot, isSpecial, stepBehind, endField]

theorem Holds.step_lineFeed (h : Holds records fields field r) :
    r.step '\n' = some ⟨records ++ [fields ++ [field]], [], [], .start⟩ := by
  obtain ⟨rfl, rfl, rfl, hspot | hspot | hspot⟩ := h <;>
    simp [step, hspot, isSpecial, stepBehind, endRecord]

theorem exists_readAll_quoted (records : List Record) (fields : Record) (f : Field) :
    ∃ r, readAll ⟨records, fields, [], .start⟩ (quoted f) = some r ∧ Holds records fields f r := by
  have hopen : step ⟨records, fields, [], .start⟩ '"' = some ⟨records, fields, [], .quoted⟩ := rfl
  have hinner := readAll_doubleQuotes (r := ⟨records, fields, [], .quoted⟩) f rfl
  refine ⟨⟨records, fields, f, .quoteSeen⟩, ?_, rfl, rfl, rfl, .inr (.inr rfl)⟩
  rw [quoted, List.cons_append, readAll_cons hopen, readAll_append hinner]
  rfl

theorem exists_readAll_writeField (records : List Record) (fields : Record) (f : Field) :
    ∃ r, readAll ⟨records, fields, [], .start⟩ (writeField f) = some r ∧
      Holds records fields f r := by
  unfold writeField
  split
  · exact exists_readAll_quoted records fields f
  · rename_i h
    rw [Bool.not_eq_true] at h
    cases f with
    | nil => exact ⟨_, rfl, rfl, rfl, rfl, .inl rfl⟩
    | cons c cs =>
      rw [List.any_cons, Bool.or_eq_false_iff] at h
      have hquote : c ≠ '"' := by
        rintro rfl
        cases h.1
      have hstep : step ⟨records, fields, [], .start⟩ c = some ⟨records, fields, [c], .bare⟩ := by
        simp [step, hquote, h.1, add]
      refine ⟨⟨records, fields, c :: cs, .bare⟩, ?_, rfl, rfl, rfl, .inr (.inl rfl)⟩
      rw [readAll_cons hstep, readAll_bare h.2 rfl]
      rfl

theorem exists_readAll_writeFields (records : List Record) (fields : Record) {fs : Record}
    (hne : fs ≠ []) :
    ∃ r, readAll ⟨records, fields, [], .start⟩ (writeFields fs) = some r ∧
      Holds records (fields ++ fs.dropLast) (fs.getLast hne) r := by
  induction fs generalizing fields with
  | nil => exact absurd rfl hne
  | cons f fs ih =>
    obtain ⟨r, hread, hr⟩ := exists_readAll_writeField records fields f
    cases fs with
    | nil =>
      rw [writeFields]
      exact ⟨r, hread, by simpa using hr⟩
    | cons g fs =>
      obtain ⟨r', hread', hr'⟩ := ih (fields ++ [f]) (List.cons_ne_nil g fs)
      refine ⟨r', ?_, by simpa using hr'⟩
      rw [writeFields, readAll_append hread, readAll_cons hr.step_comma, hread']
      exact List.cons_ne_nil g fs

theorem readAll_writeRecord (records : List Record) {x : Record} (hne : x ≠ []) :
    readAll ⟨records, [], [], .start⟩ (writeRecord x) = some ⟨records ++ [x], [], [], .start⟩ := by
  have hlast (r : Reading) (hr : Holds records x.dropLast (x.getLast hne) r) :
      r.readAll ['\n'] = some ⟨records ++ [x], [], [], .start⟩ := by
    rw [readAll_cons hr.step_lineFeed, List.dropLast_concat_getLast hne]
    rfl
  unfold writeRecord
  split
  · rename_i hx
    subst hx
    obtain ⟨r, hread, hr⟩ := exists_readAll_quoted records [] []
    rw [readAll_append hread, hlast r hr]
  · obtain ⟨r, hread, hr⟩ := exists_readAll_writeFields records [] hne
    rw [readAll_append hread, hlast r hr]

theorem readAll_write (records : List Record) {xs : List Record} (hne : [] ∉ xs) :
    readAll ⟨records, [], [], .start⟩ (write xs) = some ⟨records ++ xs, [], [], .start⟩ := by
  induction xs generalizing records with
  | nil => simp [readAll, write]
  | cons x xs ih =>
    rw [List.mem_cons, not_or] at hne
    rw [write, List.flatMap_cons, readAll_append (readAll_writeRecord records (Ne.symm hne.1)),
      ← write, ih _ hne.2, List.append_assoc, List.singleton_append]

end Reading

/-- Records that were written are read back. -/
theorem read_write {xs : List Record} (hne : [] ∉ xs) : read (write xs) = some xs := by
  rw [read, show Reading.empty = ⟨[], [], [], .start⟩ from rfl, Reading.readAll_write [] hne]
  rfl

end CacheActivity.Csv

namespace CacheActivity.Export

open Files (Disk)
open Usage (Report Selection Row)

/-- The value of a metric in a table with a metric and its value in each record. -/
def valueOf? (metric : String) (table : List Csv.Record) : Option Csv.Field :=
  table.findSome? fun
    | [name, value] => if name = metric.toList then some value else none
    | _ => none

theorem read_series (r : Report) :
    Csv.read (Part.series.text r).toList = some (seriesHeader :: r.series.map pointRecord) := by
  have hne : [] ∉ seriesRecords r := by
    simp [seriesRecords, seriesHeader, pointRecord]
  rw [Part.text, String.toList_ofList, Csv.read_write hne]
  rfl

theorem read_summary (r : Report) :
    Csv.read (Part.summary.text r).toList = some (summaryRecords r) := by
  have hne : [] ∉ summaryRecords r := by simp [summaryRecords]
  rw [Part.text, String.toList_ofList, Csv.read_write hne]

theorem pointRecord_injective : Function.Injective pointRecord := by
  rintro ⟨name, a, b, c, e⟩ ⟨name', a', b', c', e'⟩ h
  simp only [pointRecord, List.map_cons, List.map_nil, List.cons.injEq, String.toList_inj] at h
  obtain ⟨rfl, ha, hb, hc, he, -⟩ := h
  rw [Count.text_injective ha, Count.text_injective hb, Count.text_injective hc,
    Count.text_injective he]

/-- Parts that are saved one after the other at different places are both there in the end. -/
theorem read_of_saves {r : Report} {path path' : String} {d d₁ d₂ : Disk}
    (h : save r .series path d = .ok d₁) (h' : save r .summary path' d₁ = .ok d₂)
    (hne : d.locate path ≠ d.locate path') :
    d₂.read path = .ok (Part.series.text r) ∧ d₂.read path' = .ok (Part.summary.text r) := by
  have hwrite : d.writeAll [(path, Part.series.text r), (path', Part.summary.text r)] = .ok d₂ := by
    have hseries : d.write path (Part.series.text r) = .ok d₁ := h
    have hsummary : d₁.write path' (Part.summary.text r) = .ok d₂ := h'
    simp only [Disk.writeAll, List.foldlM_cons, hseries, hsummary, bind, Except.bind]
    rfl
  have hwrote := Disk.wrote_of_writeAll hwrite fun f hf g hg place hplace hplace' => by
    rcases List.mem_pair.1 hf with rfl | rfl <;> rcases List.mem_pair.1 hg with rfl | rfl
    · rfl
    · exact absurd (hplace.trans hplace'.symm) hne
    · exact absurd (hplace'.trans hplace.symm) hne
    · rfl
  obtain ⟨hfirst, hsecond⟩ := List.forall_mem_cons.1 hwrote.read
  exact ⟨hfirst, hsecond (path', Part.summary.text r) List.mem_cons_self⟩

/-- The series file of a report is read as its header and one record of five fields for each point,
with its type of call and the decimal texts of its counts, so that reports with the same series file
have the same series. The summary file counts these records, and has the decimal texts of the
totals. That is what a path holds once a part has been saved there, and what two paths hold once
both parts have. -/
theorem export_reads_back (s : Selection) (rows : List Row) :
    let r := s.report rows
    ∃ records table,
      Csv.read (Part.series.text r).toList = some (seriesHeader :: records) ∧
      records = r.series.map (fun p =>
        [p.name, toString p.apiRequests.toInt, toString p.cacheHits.toInt,
          toString p.cachedTokens.toInt, toString p.generatedTokens.toInt].map String.toList) ∧
      (∀ record ∈ seriesHeader :: records, record.length = 5) ∧
      (∀ r' : Report, Part.series.text r' = Part.series.text r → r'.series = r.series) ∧
      Csv.read (Part.summary.text r).toList = some table ∧
      valueOf? "Call Types" table = some (toString records.length).toList ∧
      valueOf? "Cache Hits" table = some (toString r.totals.cacheHits.toInt).toList ∧
      valueOf? "Cached Tokens" table = some (toString r.totals.cachedTokens.toInt).toList ∧
      valueOf? "LLM API Requests" table = some (toString r.totals.apiRequests.toInt).toList ∧
      (∀ (p : Part) (path : String) (d d' : Disk), save r p path d = .ok d' →
        d'.read path = .ok (p.text r)) ∧
      ∀ (path path' : String) (d d₁ d₂ : Disk), save r .series path d = .ok d₁ →
        save r .summary path' d₁ = .ok d₂ → d.locate path ≠ d.locate path' →
        d₂.read path = .ok (Part.series.text r) ∧ d₂.read path' = .ok (Part.summary.text r) := by
  intro r
  have hfive : ∀ record ∈ seriesHeader :: r.series.map pointRecord, record.length = 5 := by
    simp [seriesHeader, pointRecord]
  have hsame : ∀ r' : Report, Part.series.text r' = Part.series.text r → r'.series = r.series := by
    intro r' h
    have hread := (read_series r').symm.trans (h ▸ read_series r)
    exact pointRecord_injective.list_map (List.cons.inj (Option.some.inj hread)).2
  refine ⟨r.series.map pointRecord, summaryRecords r, read_series r, rfl, hfive, hsame,
    read_summary r, ?_, rfl, rfl, rfl, fun p path d d' h => Disk.read_of_write h,
    fun path path' d d₁ d₂ h h' hne => read_of_saves h h' hne⟩
  rw [List.length_map]
  rfl

/-- Rows of one type of call, whose name needs quotes for every reason there is. -/
def awkwardRows : List Row :=
  let row : Row := { Row.empty with callType := some "a,\"b\"\r\n", totalRows := .ofInt 3 }
  [row, row]

theorem export_reads_back_of_awkward_name :
    let r := Selection.all.report awkwardRows
    Csv.read (Part.series.text r).toList =
      some [seriesHeader, ["a,\"b\"\r\n", "6", "0", "0", "0"].map String.toList] ∧
    ∃ d₁ d₂, save r .series "s.csv" (Disk.blank []) = .ok d₁ ∧ save r .summary "t.csv" d₁ = .ok d₂ ∧
      d₁.read "s.csv" = .ok (Part.series.text r) ∧ d₂.read "s.csv" = .ok (Part.series.text r) ∧
      d₂.read "t.csv" = .ok (Part.summary.text r) := by
  obtain ⟨records, _, hread, rfl, -, -, -, -, -, -, -, hfile, hfiles⟩ :=
    export_reads_back .all awkwardRows
  have hsaves : ∃ d₁ d₂, save (Selection.all.report awkwardRows) .series "s.csv" (Disk.blank []) =
      .ok d₁ ∧ save (Selection.all.report awkwardRows) .summary "t.csv" d₁ = .ok d₂ :=
    ⟨_, _, rfl, rfl⟩
  obtain ⟨d₁, d₂, h, h'⟩ := hsaves
  have hne : (Disk.blank []).locate "s.csv" ≠ (Disk.blank []).locate "t.csv" := by decide
  exact ⟨hread, d₁, d₂, h, h', hfile _ _ _ _ h, hfiles _ _ _ _ _ h h' hne⟩

end CacheActivity.Export
