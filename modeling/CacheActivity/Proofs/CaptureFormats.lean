import CacheActivity.Capture.Archive
import CacheActivity.Proofs.DistinctKeys
import CacheActivity.Proofs.Nesting
import CacheActivity.Proofs.RowMembers
import Mathlib.Data.List.Basic
import Mathlib.Data.List.TakeWhile

/-!
# The formats of a capture

The same JSON texts can stand on the lines of a capture or make up the array of a document. Lines
may end in a carriage return, and between the texts there may be lines that hold nothing. Either way
the rows are those of the objects among the texts, in their order: `formats_agree`.
-/

namespace CacheActivity.Text

theorem isSpace_of_trim_eq_nil {cs : List Char} (h : trim cs = []) :
    ∀ c ∈ cs, isSpace c = true := by
  have hstart : ∀ c ∈ trimStart cs, isSpace c = true := fun c hc =>
    List.dropWhile_eq_nil_iff.1 (List.reverse_eq_nil_iff.1 h) c (List.mem_reverse.2 hc)
  cases hcs : trimStart cs with
  | nil => exact List.dropWhile_eq_nil_iff.1 hcs
  | cons d ds =>
    -- What is left behind the blanks at the start does not begin with one.
    have hd := List.head?_dropWhile_not isSpace cs
    rw [trimStart] at hcs
    rw [hcs] at hd
    simp only [trimStart, hcs, List.forall_mem_cons] at hstart
    simp [hstart.1] at hd

end CacheActivity.Text

namespace CacheActivity.Json

open Text (isSpace joinWith)

variable {cs : List Char} {v : Value}

/-- A text of white space holds no value. -/
theorem exists_not_isSpace_of_read (h : read (String.ofList cs) = .ok v) :
    ∃ c ∈ cs, isSpace c = false := by
  obtain ⟨x, hx, -, hspells⟩ := read_eq_ok_iff.1 h
  rw [String.toList_ofList] at hx
  obtain ⟨c, ds, ht, hc, -⟩ := hspells.head
  exact ⟨c, by simp [hx, Piece.chars, ht], hc⟩

theorem read_append_blank {b : Char} (hb : isBlank b = true) :
    read (String.ofList (cs ++ [b])) = .ok v ↔ read (String.ofList cs) = .ok v := by
  simp only [read_eq_ok_iff, String.toList_ofList]
  constructor
  · rintro ⟨x, hx, hv, hspells⟩
    rw [Piece.chars] at hx
    rcases List.eq_nil_or_concat x.after with hafter | ⟨after, a, hafter⟩
    · -- A value does not end in a blank.
      obtain ⟨ds, c, ht, hc⟩ := hspells.last
      rw [hafter, ht, List.append_nil, ← List.append_assoc] at hx
      obtain rfl : b = c := List.singleton_inj.1 (List.append_inj' hx rfl).2
      rw [hb] at hc
      cases hc
    · have hblanks := x.blanks_after
      rw [hafter, List.concat_eq_append] at hblanks
      rw [hafter, List.concat_eq_append, ← List.append_assoc] at hx
      exact ⟨{ x with after := after, blanks_after := (List.forall_mem_append.1 hblanks).1 },
        (List.append_inj' hx rfl).1, hv, hspells⟩
  · rintro ⟨x, rfl, hv, hspells⟩
    exact ⟨{ x with
      after := x.after ++ [b]
      blanks_after := x.blanks_after.append (List.forall_mem_singleton.2 hb) },
      List.append_assoc .., hv, hspells⟩

end CacheActivity.Json

namespace CacheActivity.Capture

open Files (Disk Path.extension?)
open Json (Value Members Piece Spells)
open Text (joinWith)
open Usage (Row)

def objectOf? (cs : List Char) : Option Members :=
  match Json.read (String.ofList cs) with
  | .ok (.object ms) => some ms
  | _ => none

def rowsOfTexts (ts : List (List Char)) : List Row := (ts.filterMap objectOf?).map Row.ofMembers

/-- No key comes twice in what was read, so an object among the values is a row. -/
theorem objectOf_of_read {cs : List Char} {v : Value} (h : Json.read (String.ofList cs) = .ok v) :
    (objectOf? cs).map Row.ofMembers = Row.ofValue? v := by
  rw [objectOf?, h]
  cases v with
  | object ms => exact (Row.ofValue?_object (Json.distinctKeys_of_read h).nodup).symm
  | _ => rfl

/-- The end of a line, with a carriage return or without one. -/
def lineEnd (withReturn : Bool) : List Char := if withReturn then ['\r', '\n'] else ['\n']

/-- That a line holds nothing that is read: nothing but white space, or no JSON that stands for a
value. -/
def Idle (l : List Char) : Prop :=
  '\n' ∉ l ∧ (Text.trim l = [] ∨ ¬Json.Decodable Json.depthLimit l)

/-- That a text holds other texts on its lines, in their order, and nothing else but idle lines. The
last line need not have an end. -/
inductive OnLines : List (List Char) → List Char → Prop
  | nil : OnLines [] []
  | last (t : List Char) : OnLines [t] t
  | lastIdle {l : List Char} : Idle l → OnLines [] l
  | line (t : List Char) (withReturn : Bool) {ts : List (List Char)} {cs : List Char} :
      OnLines ts cs → OnLines (t :: ts) (t ++ lineEnd withReturn ++ cs)
  | idle {l : List Char} (withReturn : Bool) {ts : List (List Char)} {cs : List Char} :
      Idle l → OnLines ts cs → OnLines ts (l ++ lineEnd withReturn ++ cs)

section Lines

variable {cs l : List Char} {ts : List (List Char)}

/-- A line gives the row of the object on it. That blank lines are passed over first makes no
difference. -/
theorem rowOfLine_eq (l : List Char) : rowOfLine? l = (objectOf? l).map Row.ofMembers := by
  unfold rowOfLine?
  cases hread : Json.read (String.ofList l) with
  | error cause => simp [objectOf?, hread]
  | ok v =>
    obtain ⟨c, hc, hspace⟩ := Json.exists_not_isSpace_of_read hread
    have hne : (Text.trim l).isEmpty = false := by
      rw [← Bool.not_eq_true, List.isEmpty_iff]
      exact fun h => Bool.false_ne_true (hspace.symm.trans (Text.isSpace_of_trim_eq_nil h c hc))
    rw [hne, if_neg Bool.false_ne_true]
    exact (objectOf_of_read hread).symm

theorem objectOf_append_return (l : List Char) : objectOf? (l ++ ['\r']) = objectOf? l := by
  have hiff : ∀ v, Json.read (String.ofList (l ++ ['\r'])) = .ok v ↔
      Json.read (String.ofList l) = .ok v := fun v => Json.read_append_blank (by decide)
  unfold objectOf?
  cases hread : Json.read (String.ofList l) with
  | ok v => rw [(hiff v).2 hread]
  | error cause =>
    cases hread' : Json.read (String.ofList (l ++ ['\r'])) with
    | error cause' => rfl
    | ok v => cases hread.symm.trans ((hiff v).1 hread')

theorem Idle.objectOf_eq (h : Idle l) : objectOf? l = none := by
  unfold objectOf?
  cases hread : Json.read (String.ofList l) with
  | error cause => rfl
  | ok v =>
    obtain ⟨-, hblank | hnone⟩ := h
    · obtain ⟨c, hc, hspace⟩ := Json.exists_not_isSpace_of_read hread
      cases hspace.symm.trans (Text.isSpace_of_trim_eq_nil hblank c hc)
    · have hdecodable := Json.exists_read_eq_ok_iff.1 ⟨v, hread⟩
      rw [String.toList_ofList] at hdecodable
      exact absurd hdecodable hnone

theorem rowsOfLines_eq (cs : List Char) : rowsOfLines (String.ofList cs) =
    ((Text.lines cs).filterMap objectOf?).map Row.ofMembers := by
  rw [rowsOfLines, String.toList_ofList, List.map_filterMap]
  exact congrArg (List.filterMap · _) (funext rowOfLine_eq)

theorem lines_append_lineEnd (hl : '\n' ∉ l) (withReturn : Bool) (cs : List Char) :
    Text.lines (l ++ lineEnd withReturn ++ cs) =
      (if withReturn then l ++ ['\r'] else l) :: Text.lines cs := by
  cases withReturn with
  | false =>
    rw [lineEnd, if_neg Bool.false_ne_true, List.append_assoc]
    exact (Text.splitAt_append_cons l cs).trans (by rw [Text.splitAt_of_not_mem hl]; rfl)
  | true =>
    have hl' : '\n' ∉ l ++ ['\r'] := by simp [hl]
    have hsplit : l ++ lineEnd true ++ cs = l ++ ['\r'] ++ '\n' :: cs := by simp [lineEnd]
    rw [hsplit]
    exact (Text.splitAt_append_cons _ cs).trans (by rw [Text.splitAt_of_not_mem hl']; rfl)

/-- How a line ends makes no difference. -/
theorem filterMap_lines_append (hl : '\n' ∉ l) (withReturn : Bool) (cs : List Char) :
    (Text.lines (l ++ lineEnd withReturn ++ cs)).filterMap objectOf? =
      (objectOf? l).toList ++ (Text.lines cs).filterMap objectOf? := by
  have hobject : objectOf? (if withReturn then l ++ ['\r'] else l) = objectOf? l := by
    cases withReturn with
    | false => rfl
    | true => exact objectOf_append_return l
  rw [lines_append_lineEnd hl, List.filterMap_cons, hobject]
  cases objectOf? l <;> rfl

theorem OnLines.filterMap_eq (h : OnLines ts cs) (hts : ∀ t ∈ ts, '\n' ∉ t) :
    (Text.lines cs).filterMap objectOf? = ts.filterMap objectOf? := by
  induction h with
  | nil => rfl
  | last t => rw [Text.lines, Text.splitAt_of_not_mem (hts t List.mem_cons_self)]
  | @lastIdle l hl =>
    rw [Text.lines, Text.splitAt_of_not_mem hl.1, List.filterMap_cons, hl.objectOf_eq]
  | line t withReturn _ ih =>
    obtain ⟨ht, hts⟩ := List.forall_mem_cons.1 hts
    rw [filterMap_lines_append ht, ih hts, List.filterMap_cons]
    cases objectOf? t <;> rfl
  | idle withReturn hl _ ih =>
    rw [filterMap_lines_append hl.1, ih hts, hl.objectOf_eq]
    rfl

end Lines

section Documents

variable {d : Nat} {ts : List (List Char)}

theorem exists_items (h : ∀ t ∈ ts, Json.Decodable d t) :
    ∃ items : List Piece, ts = items.map Piece.chars ∧ ∀ x ∈ items, Spells d x.text x.value := by
  induction ts with
  | nil => exact ⟨[], rfl, List.forall_mem_nil _⟩
  | cons t ts ih =>
    obtain ⟨⟨x, hx, hformed⟩, hts⟩ := List.forall_mem_cons.1 h
    obtain ⟨items, hitems, hall⟩ := ih hts
    obtain ⟨v, hspells⟩ := Json.exists_spells_iff.2 hformed
    refine ⟨⟨x, v⟩ :: items, ?_, List.forall_mem_cons.2 ⟨hspells, hall⟩⟩
    rw [hx, hitems]
    rfl

theorem objectOf_of_spells {x : Piece} (h : Spells Json.depthLimit x.text x.value) :
    (objectOf? x.chars).map Row.ofMembers = Row.ofValue? x.value :=
  objectOf_of_read (Json.read_eq_ok_iff.2 ⟨x, String.toList_ofList, rfl, h⟩)

theorem rowsOfTexts_eq_ofValues {items : List Piece}
    (h : ∀ x ∈ items, Spells Json.depthLimit x.text x.value) :
    rowsOfTexts (items.map Piece.chars) = Row.ofValues (items.map Piece.value) := by
  rw [rowsOfTexts, Row.ofValues, List.map_filterMap, List.filterMap_map, List.filterMap_map]
  exact List.filterMap_congr fun x hx => objectOf_of_spells (h x hx)

def arrayText (ts : List (List Char)) : List Char := '[' :: joinWith ',' ts ++ [']']

def envelopeText (ts : List (List Char)) : List Char :=
  '\x7b' :: Json.quote "data" ++ ':' :: arrayText ts ++ ['\x7d']

theorem read_arrayText {items : List Piece} (h : ∀ x ∈ items, Spells d x.text x.value)
    (hd : d + 1 ≤ Json.depthLimit) :
    Json.read (String.ofList (arrayText (items.map Piece.chars))) =
      .ok (.array (items.map Piece.value)) := by
  have hspells := (Json.spells_array h).mono hd
  exact Json.read_eq_ok_iff.2 ⟨.bare _ _, by simp [arrayText], rfl, hspells⟩

theorem read_envelopeText {items : List Piece} (h : ∀ x ∈ items, Spells d x.text x.value)
    (hd : d + 2 ≤ Json.depthLimit) :
    Json.read (String.ofList (envelopeText (items.map Piece.chars))) =
      .ok (.object [("data", .array (items.map Piece.value))]) := by
  let x : Piece := .bare (arrayText (items.map Piece.chars)) (.array (items.map Piece.value))
  have hspells := (Json.spells_object (x := x) "data" (Json.spells_array h)).mono hd
  refine Json.read_eq_ok_iff.2 ⟨.bare _ _, ?_, rfl, hspells⟩
  rw [Json.Member.chars_ofPiece]
  simp [envelopeText, x]

end Documents

theorem fetchFile_of_document {d : Disk} {path text : String} {v : Value} {vs : List Value}
    (hpath : Path.extension? path = some "json") (hd : d.read path = .ok text)
    (hread : Json.read text = .ok v) (hv : itemsOf? v = some vs) :
    fetchFile d path = .ok (Row.ofValues vs) := by
  have hformat : Format.ofPath path = .document := by
    rw [Format.ofPath, hpath, if_neg (by decide)]
  simp only [fetchFile, hd, rowsOf, hformat, rowsOfDocument, hread, hv]

theorem fetchFile_of_refused {d : Disk} {path text : String} {cause : Json.SyntaxError}
    (hpath : Path.extension? path = some "json") (hd : d.read path = .ok text)
    (hread : Json.read text = .error cause) :
    fetchFile d path = .error (.json path cause.position.line cause) := by
  have hformat : Format.ofPath path = .document := by
    rw [Format.ofPath, hpath, if_neg (by decide)]
  simp only [fetchFile, hd, rowsOf, hformat, rowsOfDocument, hread]

theorem fetchFile_of_onLines {d : Disk} {path : String} {ts : List (List Char)} {cs : List Char}
    (hpath : Path.extension? path = some "jsonl") (hd : d.read path = .ok (String.ofList cs))
    (hcs : OnLines ts cs) (hbreaks : ∀ t ∈ ts, '\n' ∉ t) :
    fetchFile d path = .ok (rowsOfTexts ts) := by
  have hformat : Format.ofPath path = .lines := by rw [Format.ofPath, if_pos hpath]
  simp only [fetchFile, hd, rowsOf, hformat, rowsOfLines_eq]
  rw [hcs.filterMap_eq hbreaks, rowsOfTexts]

/-- The rows of texts that stand for values, none of which breaks a line or is deeper than an array
in an object allows, do not depend on the format: on lines, in an array and in the data of an object
they are the rows of the objects among the texts, in their order. -/
theorem formats_agree (ts : List (List Char)) (hdecodable : ∀ t ∈ ts, Json.Decodable 125 t)
    (hbreaks : ∀ t ∈ ts, '\n' ∉ t) :
    (∀ (d : Disk) (path : String) (cs : List Char), Path.extension? path = some "jsonl" →
      d.read path = .ok (String.ofList cs) → OnLines ts cs →
      fetchFile d path = .ok (rowsOfTexts ts)) ∧
    (∀ (d : Disk) (path : String), Path.extension? path = some "json" →
      d.read path = .ok (String.ofList (arrayText ts)) →
      fetchFile d path = .ok (rowsOfTexts ts)) ∧
    ∀ (d : Disk) (path : String), Path.extension? path = some "json" →
      d.read path = .ok (String.ofList (envelopeText ts)) →
      fetchFile d path = .ok (rowsOfTexts ts) := by
  refine ⟨fun d path cs hpath hd hcs => fetchFile_of_onLines hpath hd hcs hbreaks, ?_⟩
  obtain ⟨items, rfl, hitems⟩ := exists_items hdecodable
  rw [rowsOfTexts_eq_ofValues fun x hx => (hitems x hx).mono (by decide)]
  exact ⟨fun d path hpath hd =>
      fetchFile_of_document hpath hd (read_arrayText hitems (by decide)) rfl,
    fun d path hpath hd =>
      fetchFile_of_document hpath hd (read_envelopeText hitems (by decide)) rfl⟩

/-- A row and a value that is none. -/
def sampleTexts : List (List Char) := ["\x7b\"model\":\"m\"\x7d".toList, "[7]".toList]

/-- The sample on lines, between an empty line and one that is no JSON, with both ends of lines. -/
def sampleLines : List Char :=
  "\n".toList ++ (sampleTexts.getD 0 [] ++ "\r\noops\n".toList ++ sampleTexts.getD 1 [])

/-- A disk with some lines, and with some texts in an array and in the data of an object. -/
def diskOfFormats (lines : List Char) (ts : List (List Char)) : Disk :=
  (((Disk.blank []).put ["l.jsonl"] (.file (some (String.ofList lines)))).put ["a.json"]
    (.file (some (String.ofList (arrayText ts))))).put ["e.json"]
    (.file (some (String.ofList (envelopeText ts))))

theorem formats_agree_of_sample :
    fetchFile (diskOfFormats sampleLines sampleTexts) "/l.jsonl" =
      .ok [Row.ofMembers [("model", .text "m")]] ∧
    fetchFile (diskOfFormats sampleLines sampleTexts) "/a.json" =
      .ok [Row.ofMembers [("model", .text "m")]] ∧
    fetchFile (diskOfFormats sampleLines sampleTexts) "/e.json" =
      .ok [Row.ofMembers [("model", .text "m")]] := by
  have htexts : ∀ t ∈ sampleTexts, Json.Decodable 125 t :=
    List.forall_mem_cons.2 ⟨Json.decodable_of_read (s := "\x7b\"model\":\"m\"\x7d") rfl (by decide),
      List.forall_mem_singleton.2 (Json.decodable_of_read (s := "[7]") rfl (by decide))⟩
  have hidle : Idle "oops".toList := by
    refine ⟨by decide, .inr fun h => ?_⟩
    obtain ⟨v, hv⟩ := (Json.exists_read_eq_ok_iff (s := "oops")).2 h
    cases hv
  have hlines : OnLines sampleTexts sampleLines :=
    .idle false ⟨List.not_mem_nil, .inl rfl⟩ (.line _ true (.idle false hidle (.last _)))
  obtain ⟨hjsonl, harray, henvelope⟩ := formats_agree sampleTexts htexts (by decide)
  exact ⟨hjsonl _ _ _ rfl rfl hlines, harray _ _ rfl rfl, henvelope _ _ rfl rfl⟩

/-- That a text is JSON on a line of its own, but the three formats differ on it: its line gives
nothing, and the documents with it are faults. -/
structure FormatsDiffer (t : List Char) : Prop where
  valid : Json.Valid 0 t
  onLine : '\n' ∉ t
  lines : fetchFile (diskOfFormats t [t]) "/l.jsonl" = .ok []
  array : ∃ cause, fetchFile (diskOfFormats t [t]) "/a.json" =
    .error (.json "/a.json" cause.position.line cause)
  envelope : ∃ cause, fetchFile (diskOfFormats t [t]) "/e.json" =
    .error (.json "/e.json" cause.position.line cause)

theorem exists_refusal {text : String} (h : (Json.read text).isOk = false) :
    ∃ cause, Json.read text = .error cause := by
  cases hread : Json.read text with
  | error cause => exact ⟨cause, rfl⟩
  | ok v => cases hread ▸ h

theorem formatsDiffer_of_refused {t : List Char} (hvalid : Json.Valid 0 t) (hline : '\n' ∉ t)
    (ht : (Json.read (String.ofList t)).isOk = false)
    (harray : (Json.read (String.ofList (arrayText [t]))).isOk = false)
    (henvelope : (Json.read (String.ofList (envelopeText [t]))).isOk = false) :
    FormatsDiffer t := by
  have hidle : Idle t := by
    refine ⟨hline, .inr fun hdecodable => ?_⟩
    rw [← String.toList_ofList (l := t), ← Json.exists_read_eq_ok_iff] at hdecodable
    obtain ⟨v, hv⟩ := hdecodable
    cases hv ▸ ht
  obtain ⟨cause, harray⟩ := exists_refusal harray
  obtain ⟨cause', henvelope⟩ := exists_refusal henvelope
  exact ⟨hvalid, hline, fetchFile_of_onLines rfl rfl (.lastIdle hidle) (List.forall_mem_nil _),
    ⟨cause, fetchFile_of_refused rfl rfl harray⟩,
    ⟨cause', fetchFile_of_refused rfl rfl henvelope⟩⟩

/-- A number beyond the doubles and half of a pair of units are JSON, and no value. -/
theorem formats_differ : FormatsDiffer "1e999".toList ∧ FormatsDiffer "\"\\udead\"".toList := by
  constructor
  · let power : Json.Power := ⟨'e', [], false,
      ⟨['9', '9', '9'], by decide, List.all_eq_true.1 rfl⟩, .inl rfl, by decide⟩
    let one : Json.Digits := ⟨['1'], by decide, List.all_eq_true.1 rfl⟩
    let numeral : Json.Numeral := ⟨false, one, none, some power, nofun⟩
    exact formatsDiffer_of_refused ⟨⟨[], _, [], .nil, .nil⟩, rfl, .number (x := numeral) trivial⟩
      (by decide) (by decide +kernel) (by decide +kernel) (by decide +kernel)
  · have hescape : Json.IsEscape ['u', 'd', 'e', 'a', 'd'] :=
      .unit (Json.hexUnit?_eq_some_iff.1 rfl)
    have hinside := Json.Inside.escape hescape .nil
    exact formatsDiffer_of_refused ⟨⟨[], _, [], .nil, .nil⟩, rfl, .text hinside⟩
      (by decide) (by decide +kernel) (by decide +kernel) (by decide +kernel)

end CacheActivity.Capture
