import CacheActivity.Proofs.CaptureFormats
import CacheActivity.Proofs.LineBytes
import CacheActivity.Proofs.RowDecoding

/-!
# What the bytes of a capture come to

A capture can hold any bytes. A document is a fault of its file where they are no text, a fault of
its JSON where the text stands for no value or goes deeper than the reader, and a fault of its data
where the value is no activity export (`Export`). Otherwise it gives the rows of the objects among
the items. Lines are never a fault but where the bytes are no text: each line gives its own row or
none, so that the rows of two contents, one behind the other, are those of the first and then those
of the second (`lineRows_append`).
-/

namespace CacheActivity.Json

variable {s : String} {v : Value} {key : String}

/-- That a text stands for a value, and goes no deeper than the reader. -/
def Decodes (s : String) (v : Value) : Prop :=
  ∃ x : Piece, s.toList = x.chars ∧ x.value = v ∧ Spells depthLimit x.text x.value

theorem read_eq_ok_iff_decodes : read s = .ok v ↔ Decodes s v := read_eq_ok_iff

theorem exists_read_eq_error_iff :
    (∃ cause, read s = .error cause) ↔ ¬Decodable depthLimit s.toList := by
  rw [← exists_read_eq_ok_iff]
  cases read s with
  | error cause => simp
  | ok v => simp

/-- The value of the last pair with a key. -/
def Members.last? (key : String) (pairs : Members) : Option Value := Members.get? key pairs.reverse

theorem Members.get?_ofPairs_eq_last? (key : String) (pairs : Members) :
    (ofPairs pairs).get? key = last? key pairs := by
  induction pairs using List.reverseRecOn with
  | nil => rfl
  | append_singleton pairs m ih =>
    have hlast : last? key (pairs ++ [m]) = if key = m.1 then some m.2 else last? key pairs := by
      rw [last?, List.reverse_append]
      exact get?_cons key m.1 m.2 pairs.reverse
    rw [hlast, ← ih, ofPairs, List.foldl_concat]
    exact get?_put key m.1 m.2 _

end CacheActivity.Json

namespace CacheActivity.Capture

open Files (Disk Path.extension?)
open Json (Decodable Decodes Members ObjectText Value)
open Usage (Row)

/-- That a text is an activity export with these items: an array of them, or an object whose last
member `data` is one. -/
inductive Export : String → List Value → Prop
  | array {text : String} {vs : List Value} : Decodes text (.array vs) → Export text vs
  | data {text : String} {pairs : Members} {vs : List Value} : ObjectText text pairs →
      Members.last? "data" pairs = some (.array vs) → Export text vs

def objectsOf (vs : List Value) : List Members :=
  vs.filterMap fun
    | .object ms => some ms
    | _ => none

section Documents

variable {path text : String} {v : Value} {vs : List Value} {rows : List Row}

theorem export_iff : Export text vs ↔ ∃ v, Json.read text = .ok v ∧ itemsOf? v = some vs := by
  have hdata : ∀ pairs, itemsOf? (.object (Members.ofPairs pairs)) = some vs ↔
      Members.last? "data" pairs = some (.array vs) := by
    intro pairs
    rw [itemsOf?, Members.get?_ofPairs_eq_last?]
    split <;> simp_all
  constructor
  · rintro (h | ⟨hobject, hlast⟩)
    · exact ⟨_, Json.read_eq_ok_iff_decodes.2 h, rfl⟩
    · exact ⟨_, Json.read_eq_object_iff.2 ⟨_, hobject, rfl⟩, (hdata _).2 hlast⟩
  · rintro ⟨v, hread, hitems⟩
    cases v with
    | array vs' =>
      cases hitems
      exact .array (Json.read_eq_ok_iff_decodes.1 hread)
    | object ms =>
      obtain ⟨pairs, hobject, rfl⟩ := Json.read_eq_object_iff.1 hread
      exact .data hobject ((hdata pairs).1 hitems)
    | _ => cases hitems

/-- No key comes twice in an item of what was read, so each object is a row. -/
theorem ofValues_of_read (hread : Json.read text = .ok v) (hitems : itemsOf? v = some vs) :
    Row.ofValues vs = (objectsOf vs).map Row.ofMembers := by
  have hdistinct : (Value.array vs).DistinctKeys := by
    have hv := Json.distinctKeys_of_read hread
    unfold itemsOf? at hitems
    split at hitems
    · cases hitems
      exact hv
    · split at hitems
      · rename_i hdata
        cases hitems
        exact hv.get? hdata
      · cases hitems
    · cases hitems
  cases hdistinct with
  | array hall =>
  rw [Row.ofValues, objectsOf, List.map_filterMap]
  refine List.filterMap_congr fun v hv => ?_
  cases v with
  | object ms => exact Row.ofValue?_object (hall _ hv).nodup
  | _ => rfl

theorem rowsOfDocument_ne_file (cause : FileFault) :
    rowsOfDocument path text ≠ .error (.file cause) := by
  unfold rowsOfDocument
  cases Json.read text with
  | error cause => simp
  | ok v => cases hitems : itemsOf? v <;> simp [hitems]

theorem rowsOfDocument_eq_json_iff :
    (∃ cause, rowsOfDocument path text = .error (.json path cause.position.line cause)) ↔
      ¬Decodable Json.depthLimit text.toList := by
  rw [← Json.exists_read_eq_error_iff]
  unfold rowsOfDocument
  cases Json.read text with
  | error cause => exact iff_of_true ⟨cause, rfl⟩ ⟨cause, rfl⟩
  | ok v => cases hitems : itemsOf? v <;> simp [hitems]

theorem rowsOfDocument_eq_invalid_iff :
    rowsOfDocument path text = .error (.invalid "data" (path ++ " is not an activity export")) ↔
      Decodable Json.depthLimit text.toList ∧ ∀ vs, ¬Export text vs := by
  simp only [export_iff, ← Json.exists_read_eq_ok_iff]
  unfold rowsOfDocument
  cases Json.read text with
  | error cause => simp
  | ok v => cases hitems : itemsOf? v <;> simp [hitems]

theorem rowsOfDocument_eq_ok_iff : rowsOfDocument path text = .ok rows ↔
    ∃ vs, Export text vs ∧ rows = (objectsOf vs).map Row.ofMembers := by
  simp only [export_iff]
  unfold rowsOfDocument
  cases hread : Json.read text with
  | error cause => simp
  | ok v =>
    cases hitems : itemsOf? v with
    | none => simp [hitems]
    | some vs =>
      have hrows := ofValues_of_read hread hitems
      simp [hitems, hrows, eq_comm]

end Documents

def lineRows (cs : List Char) : List Row := rowsOfTexts (Text.lines cs)

section Lines

variable {cs l : List Char}

theorem objectOf_eq_none_iff :
    objectOf? l = none ↔ ∀ ms, ¬Decodes (String.ofList l) (.object ms) := by
  simp only [← Json.read_eq_ok_iff_decodes, objectOf?]
  split <;> simp_all

theorem lineRows_of_line (h : '\n' ∉ l) :
    lineRows l = ((objectOf? l).map Row.ofMembers).toList := by
  rw [lineRows, Text.lines, Text.splitAt_of_not_mem h, rowsOfTexts, List.filterMap_cons]
  cases objectOf? l <;> rfl

theorem lineRows_nil : lineRows [] = [] := lineRows_of_line List.not_mem_nil

/-- The line break between two texts takes nothing from either. -/
theorem lineRows_append_cons (cs ds : List Char) :
    lineRows (cs ++ '\n' :: ds) = lineRows cs ++ lineRows ds := by
  simp only [lineRows, rowsOfTexts, Text.lines, Text.splitAt_append_cons, List.filterMap_append,
    List.map_append]

/-- Where one text ends with a line, the next one starts with one. -/
theorem lineRows_append (h : cs = [] ∨ cs.getLast? = some '\n') (ds : List Char) :
    lineRows (cs ++ ds) = lineRows cs ++ lineRows ds := by
  rcases h with rfl | h
  · rw [lineRows_nil, List.nil_append, List.nil_append]
  · obtain ⟨front, rfl⟩ := List.getLast?_eq_some_iff.1 h
    rw [List.append_assoc, List.singleton_append, lineRows_append_cons, lineRows_append_cons,
      lineRows_nil, List.append_nil]

/-- A line that is no object gives nothing, and takes nothing from the lines around it. -/
theorem lineRows_bad_line {stop ds : List Char} (hcs : cs = [] ∨ cs.getLast? = some '\n')
    (hl : '\n' ∉ l) (hbad : objectOf? l = none)
    (hstop : stop = ['\n'] ∨ stop = [] ∧ ds = []) :
    lineRows (cs ++ (l ++ (stop ++ ds))) = lineRows (cs ++ ds) := by
  have hnone : lineRows l = [] := by rw [lineRows_of_line hl, hbad]; rfl
  rw [lineRows_append hcs, lineRows_append hcs]
  rcases hstop with rfl | ⟨rfl, rfl⟩
  · rw [List.singleton_append, lineRows_append_cons, hnone, List.nil_append]
  · rw [List.append_nil, List.append_nil, hnone, lineRows_nil]

end Lines

def rowsOfBytes (path : String) (bytes : ByteArray) : Except Fault (List Row) :=
  match String.fromUTF8? bytes with
  | some text => rowsOf path text
  | none => .error (.file .notText)

section Bytes

variable {path : String} {bytes : ByteArray}

theorem fetchFile_of_bytes {d : Disk} (h : d.item path = .ok (.file (String.fromUTF8? bytes))) :
    fetchFile d path = rowsOfBytes path bytes := by
  unfold fetchFile Disk.read rowsOfBytes
  rw [h]
  cases String.fromUTF8? bytes <;> rfl

theorem rowsOfBytes_text (path text : String) :
    rowsOfBytes path text.toByteArray = rowsOf path text := by
  have htext : String.fromUTF8? text.toByteArray = some text := dif_pos text.isValidUTF8
  rw [rowsOfBytes, htext]

theorem rowsOfBytes_of_not_text (h : ¬bytes.IsValidUTF8) :
    rowsOfBytes path bytes = .error (.file .notText) := by
  have hnone : String.fromUTF8? bytes = none := dif_neg h
  rw [rowsOfBytes, hnone]

theorem rowsOf_document (h : Path.extension? path ≠ some "jsonl") (text : String) :
    rowsOf path text = rowsOfDocument path text := by
  rw [rowsOf, Format.ofPath, if_neg h]

theorem rowsOf_lines (h : Path.extension? path = some "jsonl") (text : String) :
    rowsOf path text = .ok (lineRows text.toList) := by
  have hrows := rowsOfLines_eq text.toList
  rw [String.ofList_toList] at hrows
  rw [rowsOf, Format.ofPath, if_pos h, hrows]
  rfl

/-- Bytes are those of one text at most. -/
theorem exists_text_iff (text : String) (P : String → Prop) :
    (∃ text', text.toByteArray = text'.toByteArray ∧ P text') ↔ P text := by
  simp only [String.toByteArray_inj, exists_eq_left']

end Bytes

/-- What reading the bytes of a document at a path comes to. -/
structure DocumentOutcome (path : String) (bytes : ByteArray) (read : Except Fault (List Row)) :
    Prop where
  notText : ∀ cause, read = .error (.file cause) ↔ ¬bytes.IsValidUTF8 ∧ cause = .notText
  notJson : (∃ cause, read = .error (.json path cause.position.line cause)) ↔
    ∃ text : String, bytes = text.toByteArray ∧ ¬Decodable Json.depthLimit text.toList
  notExport : read = .error (.invalid "data" (path ++ " is not an activity export")) ↔
    ∃ text : String, bytes = text.toByteArray ∧ Decodable Json.depthLimit text.toList ∧
      ∀ vs, ¬Export text vs
  rows : ∀ rows, read = .ok rows ↔ ∃ text : String, bytes = text.toByteArray ∧
    ∃ vs, Export text vs ∧ rows = (objectsOf vs).map Row.ofMembers

/-- What reading bytes as lines comes to. -/
structure LinesOutcome (bytes : ByteArray) (read : Except Fault (List Row)) : Prop where
  notText : ∀ fault, read = .error fault ↔ ¬bytes.IsValidUTF8 ∧ fault = .file .notText
  notText_of_line : bytes.IsValidUTF8 ↔
    ∀ line ∈ Text.byteLines bytes, line.toByteArray.IsValidUTF8
  rows : ∀ rows, read = .ok rows ↔
    ∃ text : String, bytes = text.toByteArray ∧ rows = lineRows text.toList

section Outcomes

variable {path : String} {bytes : ByteArray}

theorem documentOutcome (h : Path.extension? path ≠ some "jsonl") (bytes : ByteArray) :
    DocumentOutcome path bytes (rowsOfBytes path bytes) := by
  by_cases hvalid : bytes.IsValidUTF8
  · obtain ⟨text, rfl⟩ := Text.isValidUTF8_iff.1 hvalid
    rw [rowsOfBytes_text, rowsOf_document h]
    constructor
    · exact fun cause => iff_of_false (rowsOfDocument_ne_file cause) fun h => h.1 hvalid
    · rw [exists_text_iff]
      exact rowsOfDocument_eq_json_iff
    · rw [exists_text_iff]
      exact rowsOfDocument_eq_invalid_iff
    · intro rows
      rw [exists_text_iff]
      exact rowsOfDocument_eq_ok_iff
  · have hnone : ∀ text : String, bytes ≠ text.toByteArray := fun text he =>
      hvalid (Text.isValidUTF8_iff.2 ⟨text, he⟩)
    rw [rowsOfBytes_of_not_text hvalid]
    constructor
    · intro cause
      simp [hvalid, eq_comm]
    · simp [hnone]
    · simp [hnone]
    · simp [hnone]

theorem linesOutcome (h : Path.extension? path = some "jsonl") (bytes : ByteArray) :
    LinesOutcome bytes (rowsOfBytes path bytes) := by
  by_cases hvalid : bytes.IsValidUTF8
  · obtain ⟨text, rfl⟩ := Text.isValidUTF8_iff.1 hvalid
    rw [rowsOfBytes_text, rowsOf_lines h]
    refine ⟨fun fault => ?_, Text.isValidUTF8_iff_lines, fun rows => ?_⟩
    · simp [hvalid]
    · rw [exists_text_iff, Except.ok.injEq, eq_comm]
  · have hnone : ∀ text : String, bytes ≠ text.toByteArray := fun text he =>
      hvalid (Text.isValidUTF8_iff.2 ⟨text, he⟩)
    rw [rowsOfBytes_of_not_text hvalid]
    refine ⟨fun fault => ?_, Text.isValidUTF8_iff_lines, fun rows => ?_⟩
    · simp [hvalid, eq_comm]
    · simp [hnone]

/-- Contents that end with a line go before any other ones. -/
theorem rowsOfBytes_append (h : Path.extension? path = some "jsonl") {front back : ByteArray}
    (hfront : front.IsValidUTF8) (hback : back.IsValidUTF8)
    (hend : front.data.toList.getLast? = some Text.lineFeed) :
    ∃ xs ys, rowsOfBytes path front = .ok xs ∧ rowsOfBytes path back = .ok ys ∧
      rowsOfBytes path (front ++ back) = .ok (xs ++ ys) := by
  obtain ⟨a, rfl⟩ := Text.isValidUTF8_iff.1 hfront
  obtain ⟨b, rfl⟩ := Text.isValidUTF8_iff.1 hback
  have ha := Text.getLast?_of_bytes hend
  rw [← String.toByteArray_append]
  simp only [rowsOfBytes_text, rowsOf_lines h, String.toList_append, lineRows_append (.inr ha)]
  exact ⟨_, _, rfl, rfl, rfl⟩

end Outcomes

/-- The bytes of a file decide what reading it comes to. A document is a fault of the file where
they are no text, of its JSON where the text stands for no value within the reader's depth, and of
its data where the value is no export, and otherwise the rows of the objects among the items of the
export. Lines are a fault where the bytes are no text, and otherwise each gives its own row or none:
contents that end with a line add their rows in front of those of any others, and a line that is no
object can be left out. -/
theorem contents_are_classified :
    (∀ (d : Disk) (path : String) (bytes : ByteArray),
      d.item path = .ok (.file (String.fromUTF8? bytes)) →
      fetchFile d path = rowsOfBytes path bytes) ∧
    (∀ (path : String) (bytes : ByteArray), Path.extension? path ≠ some "jsonl" →
      DocumentOutcome path bytes (rowsOfBytes path bytes)) ∧
    ∀ path : String, Path.extension? path = some "jsonl" →
      (∀ bytes, LinesOutcome bytes (rowsOfBytes path bytes)) ∧
      (∀ front back : ByteArray, front.IsValidUTF8 → back.IsValidUTF8 →
        front.data.toList.getLast? = some Text.lineFeed →
        ∃ xs ys, rowsOfBytes path front = .ok xs ∧ rowsOfBytes path back = .ok ys ∧
          rowsOfBytes path (front ++ back) = .ok (xs ++ ys)) ∧
      ∀ front line stop back : String, front = "" ∨ front.toList.getLast? = some '\n' →
        '\n' ∉ line.toList → (∀ ms, ¬Decodes line (.object ms)) →
        stop = "\n" ∨ stop = "" ∧ back = "" →
        rowsOfBytes path (front ++ (line ++ (stop ++ back))).toByteArray =
          rowsOfBytes path (front ++ back).toByteArray := by
  refine ⟨fun d path bytes h => fetchFile_of_bytes h, fun path bytes h => documentOutcome h bytes,
    fun path h => ⟨linesOutcome h, fun front back hfront hback hend =>
      rowsOfBytes_append h hfront hback hend,
      fun front line stop back hfront hline hbad hstop => ?_⟩⟩
  have hfront' : front.toList = [] ∨ front.toList.getLast? = some '\n' := by
    refine hfront.imp_left ?_
    rintro rfl
    rfl
  have hnone : objectOf? line.toList = none := by
    rw [objectOf_eq_none_iff, String.ofList_toList]
    exact hbad
  have hstop' : stop.toList = ['\n'] ∨ stop.toList = [] ∧ back.toList = [] := by
    rcases hstop with rfl | ⟨rfl, rfl⟩
    · exact .inl rfl
    · exact .inr ⟨rfl, rfl⟩
  simp only [rowsOfBytes_text, rowsOf_lines h, String.toList_append]
  rw [lineRows_bad_line hfront' hline hnone hstop']

/-- An export with two members `data`, the last of which counts. -/
def twiceData : String := "\x7b\"data\":null,\"data\":[\x7b\x7d,[]]\x7d"

def onlyFile (bytes : ByteArray) : Disk :=
  (Disk.blank []).put ["a.json"] (.file (String.fromUTF8? bytes))

theorem contents_are_classified_of_sample :
    fetchFile (onlyFile twiceData.toByteArray) "/a.json" = .ok [Row.empty] ∧
    fetchFile (onlyFile ⟨#[255]⟩) "/a.json" = .error (.file .notText) ∧
    rowsOfBytes "a.jsonl" ("\x7b\x7d\n".toByteArray ++ "\x7b\x7d".toByteArray) =
      .ok [Row.empty, Row.empty] ∧
    rowsOfBytes "a.jsonl" ("\x7b\x7d\n" ++ ("oops" ++ ("\n" ++ "\x7b\x7d"))).toByteArray =
      .ok [Row.empty, Row.empty] := by
  obtain ⟨hfetch, hdocument, hlines⟩ := contents_are_classified
  obtain ⟨houtcome, happend, hbad⟩ := hlines "a.jsonl" rfl
  have hexport : Export twiceData [.object [], .array []] :=
    export_iff.2 ⟨.object [("data", .array [.object [], .array []])], rfl, rfl⟩
  have hdata := ((hdocument "/a.json" twiceData.toByteArray (by decide)).rows [Row.empty]).2
    ⟨twiceData, rfl, _, hexport, rfl⟩
  have hbroken := ((hdocument "/a.json" ⟨#[255]⟩ (by decide)).notText .notText).2
    ⟨by decide, rfl⟩
  have hobject : rowsOfBytes "a.jsonl" "\x7b\x7d".toByteArray = .ok [Row.empty] :=
    ((houtcome _).rows _).2 ⟨_, rfl, rfl⟩
  have hline : rowsOfBytes "a.jsonl" "\x7b\x7d\n".toByteArray = .ok [Row.empty] :=
    ((houtcome _).rows _).2 ⟨_, rfl, rfl⟩
  obtain ⟨xs, ys, hxs, hys, hboth⟩ := happend "\x7b\x7d\n".toByteArray "\x7b\x7d".toByteArray
    (String.isValidUTF8 _) (String.isValidUTF8 _) rfl
  cases hline.symm.trans hxs
  cases hobject.symm.trans hys
  have hwithout := hbad "\x7b\x7d\n" "oops" "\n" "\x7b\x7d" (.inr rfl) (by decide)
    (fun ms h => by cases Json.read_eq_ok_iff_decodes.2 h) (.inl rfl)
  refine ⟨(hfetch _ _ _ rfl).trans hdata, (hfetch _ _ _ rfl).trans hbroken, hboth, ?_⟩
  rw [hwithout, String.toByteArray_append]
  exact hboth

/-- So many brackets inside one another. -/
def brackets : Nat → List Char
  | 0 => []
  | n + 1 => '[' :: brackets n ++ [']']

theorem formed_brackets (inside : List Char → Prop) (numeral : Json.Numeral → Prop) (n : Nat) :
    Json.Formed inside numeral (n + 1) (brackets (n + 1)) := by
  induction n with
  | zero => exact .emptyArray .nil
  | succ n ih =>
    let x : Json.Padded := ⟨[], brackets (n + 1), [], .nil, .nil⟩
    have hchars : x.chars = brackets (n + 1) := by simp [Json.Padded.chars, x]
    have harray := Json.Formed.array (List.cons_ne_nil x []) (List.forall_mem_singleton.2 ih)
    rwa [List.map_singleton, hchars] at harray

/-- That a document is JSON, but is refused as if it were not. -/
structure Refused (text : String) : Prop where
  valid : ∃ d, Json.Valid d text.toList
  refused : ∃ cause, fetchFile (onlyFile text.toByteArray) "/a.json" =
    .error (.json "/a.json" cause.position.line cause)

theorem refused_of_read {text : String} {d : Nat} {cs : List Char} (hcs : text.toList = cs)
    (hvalid : Json.Formed (Json.Inside Json.IsEscape) (fun _ => True) d cs)
    (h : (Json.readAll cs).isOk = false) : Refused text := by
  have hitem : (onlyFile text.toByteArray).item "/a.json" =
      .ok (.file (String.fromUTF8? text.toByteArray)) := rfl
  have hread : (Json.read text).isOk = false := by rwa [Json.read, hcs]
  obtain ⟨cause, hcause⟩ := exists_refusal hread
  refine ⟨⟨d, ⟨[], cs, [], .nil, .nil⟩, by simp [hcs, Json.Padded.chars], hvalid⟩, cause, ?_⟩
  rw [fetchFile_of_bytes hitem, rowsOfBytes_text, rowsOf_document (by decide), rowsOfDocument,
    hcause]

/-- Arrays that go deeper than the reader, half of a pair of units, and a number below the greatest
double that is out of range on the way to it. -/
theorem documents_are_refused : Refused (String.ofList (brackets 128)) ∧
    Refused "[\"\\udead\"]" ∧ Refused "[1.797693134862315700e308]" := by
  refine ⟨?_, ?_, ?_⟩
  · exact refused_of_read String.toList_ofList (formed_brackets _ _ 127) (by decide +kernel)
  · have hescape : Json.IsEscape ['u', 'd', 'e', 'a', 'd'] :=
      .unit (Json.hexUnit?_eq_some_iff.1 rfl)
    have hinside := Json.Inside.escape hescape .nil
    let x : Json.Padded := ⟨[], "\"\\udead\"".toList, [], .nil, .nil⟩
    exact refused_of_read rfl (.array (d := 0) (List.cons_ne_nil x [])
      (List.forall_mem_singleton.2 (.text hinside))) (by decide +kernel)
  · let power : Json.Power := ⟨'e', [], false,
      ⟨['3', '0', '8'], by decide, List.all_eq_true.1 rfl⟩, .inl rfl, by decide⟩
    let one : Json.Digits := ⟨['1'], by decide, List.all_eq_true.1 rfl⟩
    let fraction : Json.Digits :=
      ⟨"797693134862315700".toList, by decide, List.all_eq_true.1 rfl⟩
    let numeral : Json.Numeral := ⟨false, one, some fraction, some power, nofun⟩
    let x : Json.Padded := ⟨[], numeral.chars, [], .nil, .nil⟩
    exact refused_of_read rfl (.array (d := 0) (List.cons_ne_nil x [])
      (List.forall_mem_singleton.2 (.number trivial))) (by decide +kernel)

end CacheActivity.Capture
