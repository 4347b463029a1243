import CacheActivity.Proofs.CountTexts
import CacheActivity.Proofs.MappingEvents
import CacheActivity.Settings.Reader
import CacheActivity.Settings.Store

/-!
# Texts of settings

The lines of some settings, each with its key, are read as these settings, and all others have their
defaults (`read_fields`). That holds for all texts and paths: what would be read as nothing, as a
number or as part of the mapping is quoted.
-/

namespace CacheActivity

namespace Yaml

theorem digitStep_digit (n : Nat) {d : Char} (hd : d.isDigit = true) :
    digitStep 10 n d = some (10 * n + Text.digitValue d) := by
  have hlt : Text.digitValue d < 10 := by
    have hbounds : 48 ≤ d.toNat ∧ d.toNat ≤ 57 := by
      simpa [Char.isDigit, UInt32.le_iff_toNat_le] using hd
    simp only [Text.digitValue, Char.reduceToNat]
    omega
  have hvalue : Text.hexValue? d = some (Text.digitValue d) := by simp [Text.hexValue?, hd]
  simp [digitStep, hvalue, hlt]

theorem inBase?_digits {ds : List Char} (hds : ∀ d ∈ ds, d.isDigit = true) (hne : ds ≠ []) :
    Text.inBase? 10 ds = some (Text.digitsValue ds) := by
  rw [inBase?_of_ne_nil 10 hne, Text.digitsValue]
  generalize 0 = n
  clear hne
  induction ds generalizing n with
  | nil => rfl
  | cons d ds ih =>
    obtain ⟨hd, hds⟩ := List.forall_mem_cons.1 hds
    rw [List.foldlM_cons, digitStep_digit n hd]
    exact ih hds _

theorem natural?_digits {ds : List Char} (hds : ∀ d ∈ ds, d.isDigit = true) (hne : ds ≠ []) :
    natural? ds = some (Text.digitsValue ds) := by
  rw [← inBase?_digits hds hne]
  have hsecond {c : Char} {cs : List Char} (h : ds = '0' :: c :: cs) : c.isDigit = true :=
    hds c (by simp [h])
  unfold natural?
  split
  · cases hsecond rfl
  · cases hsecond rfl
  · cases hsecond rfl
  · rfl

theorem hasLeadingZeros_numeral {z : Int} (x : Text.WholeText z) (hzeros : x.zeros = 0) :
    hasLeadingZeros x.numeral = false := by
  have hdigits : x.digits = Nat.toDigits 10 z.natAbs := by simp [Text.WholeText.digits, hzeros]
  have hhead := Json.head?_toDigits_ne (n := z.natAbs)
  rw [hasLeadingZeros, x.splitSign_numeral, hdigits]
  dsimp only
  split
  · rename_i c cs heq
    have hz : z.natAbs = 0 := by
      refine Decidable.byContradiction fun h => hhead (Nat.pos_of_ne_zero h) ?_
      rw [heq]
      rfl
    rw [hz] at heq
    cases heq
  · rfl

/-- The decimal digits of an integer are read as that integer. -/
theorem integer?_numeral {z : Int} (x : Text.WholeText z) (hzeros : x.zeros = 0) :
    integer? x.numeral = some z := by
  have hvalue : (if z < 0 then -(z.natAbs : Int) else z.natAbs) = z := by split <;> omega
  rw [integer?, hasLeadingZeros_numeral x hzeros, if_neg Bool.false_ne_true]
  simp only [x.splitSign_numeral, natural?_digits x.isDigit_of_mem_digits x.digits_ne_nil,
    x.digitsValue_digits, decide_eq_true_eq]
  exact congrArg some hvalue

theorem isWord_numeral {z : Int} (x : Text.WholeText z) (hsign : x.sign ≠ ['+']) :
    ∀ c ∈ x.numeral, isWord c = true := by
  have hdigit (c : Char) (hc : c ∈ x.digits) : isWord c = true := by
    simp [isWord, Char.isAlphanum, x.isDigit_of_mem_digits c hc]
  have hmem := x.sign_mem
  refine List.forall_mem_append.2 ⟨?_, hdigit⟩
  unfold Text.signsOf at hmem
  split at hmem
  · rw [List.mem_singleton.1 hmem]
    exact List.all_eq_true.1 rfl
  · rw [(List.mem_pair.1 hmem).resolve_right hsign]
    exact List.forall_mem_nil _

namespace Scan.Written

def ofText (cs : List Char) : Written where
  style := styleOf cs
  text := cs
  chars := writeScalar cs
  writes _ hrest := hands_writeScalar hrest cs
  printable := isPrintable_writeScalar cs

def ofWord (cs : List Char) (hword : ∀ c ∈ cs, isWord c = true) (hne : cs ≠ [])
    (hdash : cs ≠ ['-']) : Written where
  style := .plain
  text := cs
  chars := cs ++ ['\n']
  writes rest hrest m n := by
    rw [List.append_assoc]
    exact hands_plain hrest (.of_isWord hword hne hdash) m n
  printable := List.forall_mem_append.2 
    ⟨fun c hc => isPrintable_of_isWord (hword c hc), List.all_eq_true.1 rfl⟩

def ofNumeral {z : Int} (x : Text.WholeText z) (hsign : x.sign ≠ ['+']) : Written :=
  have hne {cs : List Char} (h : Text.integer? cs = none) : x.numeral ≠ cs := fun e => by
    rw [← e, x.integer?_numeral] at h
    cases h
  .ofWord x.numeral (isWord_numeral x hsign) (hne rfl) (hne rfl)

def event (w : Written) (m : Mark) : Event := ⟨.scalar w.style w.text, none, none, m⟩

end Scan.Written

end Yaml

namespace Settings

open Yaml.Scan (Entry Written)

/-- All fields but some. -/
def Field.without (deleted : List Field) : List Field := all.filter (· ∉ deleted)

/-- The settings of some fields, and defaults for all others. -/
def only (fs : List Field) (s : Settings) : Settings where
  dataPath := if .dataPath ∈ fs then s.dataPath else default.dataPath
  healthPath := if .healthPath ∈ fs then s.healthPath else default.healthPath
  outputFormat := if .outputFormat ∈ fs then s.outputFormat else default.outputFormat
  rangeDays := if .rangeDays ∈ fs then s.rangeDays else default.rangeDays
  watchSeconds := if .watchSeconds ∈ fs then s.watchSeconds else default.watchSeconds
  exportFolder := if .exportFolder ∈ fs then s.exportFolder else default.exportFolder
  logLevel := if .logLevel ∈ fs then s.logLevel else default.logLevel

theorem only_nil (s : Settings) : s.only [] = default := by simp [only, default]

theorem only_all (s : Settings) : s.only Field.all = s := by simp [only, Field.mem_all]

theorem only_congr (s : Settings) {fs fs' : List Field} (h : ∀ f, f ∈ fs ↔ f ∈ fs') :
    s.only fs = s.only fs' := by
  simp [only, h]

theorem isKey_key (f : Field) : Yaml.Scan.IsKey f.key.toList := by
  cases f <;> exact ⟨⟨_, _, rfl, rfl⟩, List.all_eq_true.1 rfl, by decide⟩

theorem sign_wholeText_ne (a : Count) : a.wholeText.sign ≠ ['+'] := by
  show (if a.toInt < 0 then ['-'] else []) ≠ ['+']
  split <;> decide

def naturalText (n : Nat) : Text.WholeText (n : Int) :=
  .bare [] (by simp [Text.signsOf, Int.not_lt.2 (Int.natCast_nonneg n)])

def writtenPath : Option String → Written
  | some path => .ofText path.toList
  | none => .ofWord "null".toList (List.all_eq_true.1 rfl) (by decide) (by decide)

def written (s : Settings) : Field → Written
  | .dataPath => writtenPath s.dataPath
  | .healthPath => writtenPath s.healthPath
  | .outputFormat => .ofWord s.outputFormat.name.toList
      (by cases s.outputFormat <;> exact List.all_eq_true.1 rfl)
      (by cases s.outputFormat <;> decide) (by cases s.outputFormat <;> decide)
  | .rangeDays => .ofNumeral s.rangeDays.wholeText (sign_wholeText_ne _)
  | .watchSeconds => .ofNumeral (naturalText s.watchSeconds.toNat) (List.cons_ne_nil _ _).symm
  | .exportFolder => writtenPath s.exportFolder
  | .logLevel => .ofText s.logLevel.toList

def entry (s : Settings) (f : Field) : Entry := ⟨f.key.toList, isKey_key f, s.written f⟩

theorem line_entry (s : Settings) (f : Field) : (s.entry f).line = s.memberChars f := by
  have hpath (p : Option String) : (writtenPath p).chars = pathChars p := by cases p <;> rfl
  have hchars : (s.written f).chars = s.fieldChars f := by
    cases f with
    | dataPath => exact hpath _
    | healthPath => exact hpath _
    | rangeDays => exact congrArg (· ++ ['\n']) s.rangeDays.toList_text.symm
    | exportFolder => exact hpath _
    | _ => rfl
  rw [Entry.line, memberChars, ← hchars]
  rfl

section Values

variable (root : Yaml.Mark) (path : Path) (m : Yaml.Mark)

theorem isNull_of_meaning {cs : List Char} (h : Yaml.meaning cs = .text) :
    Yaml.isNull cs = false := by
  refine Bool.eq_false_iff.2 fun hnull => ?_
  rw [Yaml.meaning, if_pos hnull] at h
  cases h

theorem pathIn_writtenPath (p : Option String) :
    pathIn root path ((writtenPath p).event m) = .ok p := by
  cases p with
  | none => rfl
  | some p =>
    show pathIn root path ⟨.scalar (Yaml.styleOf p.toList) p.toList, none, none, m⟩ = _
    cases hstyle : Yaml.styleOf p.toList with
    | plain =>
      have hnull := isNull_of_meaning (Yaml.allowsPlain_of_styleOf hstyle).1
      simp [pathIn, textOf, hnull, Except.map]
    | _ => simp [pathIn, textOf, Except.map]

theorem head?_numeral_ne {z : Int} (x : Text.WholeText z) (hz : 0 ≤ z) (hsign : x.sign ≠ ['+']) :
    x.numeral.head? ≠ some '-' := by
  have hmem := x.sign_mem
  rw [Text.signsOf, if_neg (Int.not_lt.2 hz)] at hmem
  have hnone : x.sign = [] := (List.mem_pair.1 hmem).resolve_right hsign
  intro hhead
  rw [Text.WholeText.numeral, hnone, List.nil_append] at hhead
  exact absurd (x.isDigit_of_mem_digits '-' (List.mem_of_head? hhead)) (by decide)

theorem integerOf_numeral {expected : String} {signed : Bool} {least greatest z : Int}
    (x : Text.WholeText z) (hsign : x.sign ≠ ['+']) (hzeros : x.zeros = 0)
    (hsigned : signed = true ∨ 0 ≤ z) (hleast : least ≤ z) (hgreatest : z ≤ greatest) :
    integerOf expected signed least greatest path ((Written.ofNumeral x hsign).event m) =
      .ok z := by
  show integerOf expected signed least greatest path ⟨.scalar .plain x.numeral, none, none, m⟩ = _
  have hread : (if signed then Yaml.integer? x.numeral else Yaml.unsigned? x.numeral) = some z := by
    have hwhole := Yaml.integer?_numeral x hzeros
    rcases hsigned with rfl | hz
    · exact hwhole
    · rw [Yaml.unsigned?, if_neg (head?_numeral_ne x hz hsign), hwhole, ite_self]
  simp [integerOf, hread, canBeInteger, Option.filter, hleast, hgreatest]

theorem setField_written (s : Settings) (seen : List Field) (f : Field) :
    setField root (s.only seen) f path ((s.written f).event m) = .ok (s.only (f :: seen)) := by
  cases f with
  | dataPath => simp [setField, written, pathIn_writtenPath, Except.map, only]
  | healthPath => simp [setField, written, pathIn_writtenPath, Except.map, only]
  | outputFormat =>
    have hformat : formatIn root path ((s.written .outputFormat).event m) =
        .ok s.outputFormat := by
      show formatIn root path ⟨.scalar .plain s.outputFormat.name.toList, none, none, m⟩ = _
      simp [formatIn, tagName?, formatOf]
    simp [setField, hformat, Except.map, only]
  | rangeDays =>
    have hdays : integerOf "i64" true Count.least Count.greatest path
        ((s.written .rangeDays).event m) = .ok s.rangeDays.toInt :=
      integerOf_numeral path m _ (sign_wholeText_ne _) rfl (.inl rfl) s.rangeDays.least_le
        s.rangeDays.le_greatest
    simp [setField, hdays, Except.map, only]
  | watchSeconds =>
    have hlt := s.watchSeconds.toNat_lt
    have hseconds : integerOf "u64" false 0 greatestWord path
        ((s.written .watchSeconds).event m) = .ok (s.watchSeconds.toNat : Int) :=
      integerOf_numeral path m _ (List.cons_ne_nil _ _).symm rfl (.inr (Int.natCast_nonneg _))
        (Int.natCast_nonneg _) (by unfold greatestWord; omega)
    simp [setField, hseconds, Except.map, only]
  | exportFolder => simp [setField, written, pathIn_writtenPath, Except.map, only]
  | logLevel =>
    have htext : textOf "a string" path ((s.written .logLevel).event m) = .ok s.logLevel := by
      show textOf "a string" path ⟨.scalar _ s.logLevel.toList, none, none, m⟩ = _
      simp [textOf]
    simp [setField, htext, Except.map, only]

end Values

/-! ## Members -/

/-- A member sets its setting. -/
theorem readMembers_entry (s : Settings) (d : Yaml.Document) (root m m' : Yaml.Mark)
    {seen : List Field} {f : Field} (hseen : f ∉ seen) (fuel : Nat) (es : List Yaml.Event) :
    readMembers d root (fuel + 1) seen (s.only seen)
        (⟨.scalar .plain f.key.toList, none, none, m⟩ :: (s.written f).event m' :: es) =
      readMembers d root fuel (f :: seen) (s.only (f :: seen)) es := by
  have hkey (k : Yaml.Event) (hk : k.kind = .scalar .plain f.key.toList) :
      textOf "field identifier" .root (resolve d k) = .ok f.key := by
    simp [textOf, resolve, hk]
  have hvalue (p : Path) : setField root (s.only seen) f p (resolve d ((s.written f).event m')) =
      .ok (s.only (f :: seen)) :=
    setField_written ..
  rw [readMembers, if_neg (by simp), hkey _ rfl]
  simp only [hvalue, bind, Except.bind, Field.ofKey?_key, hseen, if_false]

theorem readMembers_entries (s : Settings) (d : Yaml.Document) (root : Yaml.Mark)
    {fs seen : List Field} (hfs : fs.Nodup) (hseen : ∀ f ∈ fs, f ∉ seen)
    {events : List Yaml.Event} (hevents : List.Forall₂ Yaml.Emit.IsBare events
      ((fs.map s.entry).flatMap Entry.eventKinds ++ [.mappingEnd])) {fuel : Nat}
    (hfuel : fs.length < fuel) :
    readMembers d root fuel seen (s.only seen) events = .ok (s.only (fs.reverse ++ seen)) := by
  obtain ⟨fuel, rfl⟩ := Nat.exists_eq_add_of_lt hfuel
  induction fs generalizing seen events fuel with
  | nil =>
    obtain ⟨_, es, ⟨m, rfl⟩, -, rfl⟩ := List.forall₂_cons_right_iff.1 hevents
    rw [readMembers, if_pos rfl]
    rfl
  | cons f fs ih =>
    obtain ⟨hf, hfs⟩ := List.nodup_cons.1 hfs
    obtain ⟨hseenf, hseen⟩ := List.forall_mem_cons.1 hseen
    obtain ⟨_, _, ⟨m, rfl⟩, hrest, rfl⟩ := List.forall₂_cons_right_iff.1 hevents
    obtain ⟨_, es, ⟨m', rfl⟩, hes, rfl⟩ := List.forall₂_cons_right_iff.1 hrest
    have hnext : ∀ g ∈ fs, g ∉ f :: seen := fun g hg hmem =>
      (List.mem_cons.1 hmem).elim (fun e => hf (e ▸ hg)) (hseen g hg)
    have hlast := ih hfs hnext hes fuel (by omega)
    rw [List.reverse_cons, List.append_assoc, List.length_cons, Nat.add_right_comm fs.length]
    exact (readMembers_entry s d root m m' hseenf _ es).trans hlast

/-- The lines of some settings, in any order, are read as these settings. -/
theorem read_fields (s : Settings) {fs : List Field} (hfs : fs.Nodup) :
    read (String.ofList (fs.flatMap s.memberChars)) = .ok (s.only fs) := by
  have hlines : fs.flatMap s.memberChars = (fs.map s.entry).flatMap Entry.line := by
    simp only [List.flatMap_map, line_entry]
  unfold read
  rw [String.toList_ofList, hlines]
  cases hes : fs.map s.entry with
  | nil =>
    obtain rfl := List.map_eq_nil_iff.1 hes
    rw [only_nil]
    rfl
  | cons e es =>
    obtain ⟨events, hread, hbare⟩ := Yaml.Document.read_entries e es
    obtain ⟨_, events, ⟨m, rfl⟩, hmembers, rfl⟩ := List.forall₂_cons_right_iff.1 hbare
    rw [← hes] at hmembers
    have hlen : fs.length < events.length + 1 := by
      have hkinds := Yaml.length_le_flatMap (f := Entry.eventKinds) (fun _ => List.cons_ne_nil _ _)
        (fs.map s.entry)
      have hmap : events.length = ((fs.map s.entry).flatMap Entry.eventKinds ++
          [Yaml.EventKind.mappingEnd]).length := hmembers.length_eq
      rw [List.length_append] at hmap
      rw [List.length_map] at hkinds
      omega
    have hfields := readMembers_entries s ⟨⟨.mappingStart, none, none, m⟩ :: events, none, false⟩ m
      hfs (fun _ _ => List.not_mem_nil) hmembers hlen
    have hsame : s.only (fs.reverse ++ []) = s.only fs := only_congr s (by simp)
    rw [only_nil, hsame] at hfields
    rw [hread, ofDocument, ofEvents]
    simp only [hfields]
    rfl

theorem read_text (s : Settings) : read s.text = .ok s := by
  have hall : Field.all.Nodup := by decide
  have h := read_fields s hall
  rwa [only_all] at h

end Settings

end CacheActivity
