import CacheActivity.Text.Split
import Mathlib.Data.List.Basic
import Mathlib.Data.Set.List
import Mathlib.Tactic.SplitIfs

/-!
# Lines of bytes

No character but the line feed has the byte of the line feed in its encoding. So the bytes of a text
split into lines just as its characters do (`splitOn_encoding`), and bytes are those of a text where
each of their lines is (`isValidUTF8_iff_lines`): decoding line by line takes the same files as
decoding the whole.
-/

namespace CacheActivity.Text

def lineFeed : UInt8 := 10

def encoding (cs : List Char) : List UInt8 := cs.flatMap String.utf8EncodeChar

def byteLines (bytes : ByteArray) : List (List UInt8) := bytes.data.toList.splitOn lineFeed

variable {c : Char} {cs ds : List Char} {bytes : ByteArray}

theorem encoding_append : encoding (cs ++ ds) = encoding cs ++ encoding ds := List.flatMap_append

theorem toList_utf8Encode (cs : List Char) : cs.utf8Encode.data.toList = encoding cs := by
  rw [List.utf8Encode, List.data_toByteArray]
  rfl

theorem eq_of_lineFeed_mem (h : lineFeed ∈ String.utf8EncodeChar c) : c = '\n' := by
  unfold String.utf8EncodeChar at h
  simp only at h
  split_ifs at h with hascii
  · have hcode : 10 = c.toNat % 256 := by simpa [lineFeed, ← UInt8.toNat_inj] using h
    have hsmall : c.toNat < 256 := Nat.lt_of_le_of_lt hascii (by decide)
    rw [Nat.mod_eq_of_lt hsmall] at hcode
    exact Char.toNat_inj.1 hcode.symm
  -- The bytes of a longer encoding are all above those of ASCII.
  all_goals
    simp only [lineFeed, List.mem_cons, List.not_mem_nil, or_false, ← UInt8.toNat_inj,
      UInt8.toNat_ofNat', UInt8.reduceToNat] at h
    omega

theorem lineFeed_not_mem_encoding (h : '\n' ∉ cs) : lineFeed ∉ encoding cs := by
  intro hmem
  obtain ⟨c, hc, hbyte⟩ := List.mem_flatMap.1 hmem
  exact h (eq_of_lineFeed_mem hbyte ▸ hc)

theorem getLast?_of_encoding (h : (encoding cs).getLast? = some lineFeed) :
    cs.getLast? = some '\n' := by
  rcases List.eq_nil_or_concat cs with rfl | ⟨ds, c, rfl⟩
  · cases h
  · have hc : encoding [c] = String.utf8EncodeChar c := List.flatMap_singleton _ c
    rw [List.concat_eq_append, encoding_append, hc,
      List.getLast?_append_of_ne_nil _ String.utf8EncodeChar_ne_nil] at h
    rw [List.concat_eq_append, List.getLast?_concat, eq_of_lineFeed_mem (List.mem_of_getLast? h)]

/-- A text whose bytes end with a line ends with a line. -/
theorem getLast?_of_bytes {text : String}
    (h : text.toByteArray.data.toList.getLast? = some lineFeed) :
    text.toList.getLast? = some '\n' := by
  refine getLast?_of_encoding ?_
  rwa [← toList_utf8Encode, ← String.toByteArray_ofList, String.ofList_toList]

theorem encoding_joinWith (ps : List (List Char)) :
    encoding (joinWith '\n' ps) = [lineFeed].intercalate (ps.map encoding) := by
  induction ps with
  | nil => rfl
  | cons p ps ih =>
    cases ps with
    | nil => simp [joinWith]
    | cons q ps =>
      have hfeed : encoding ['\n'] = [lineFeed] := rfl
      rw [joinWith_cons (List.cons_ne_nil q ps), List.append_cons, encoding_append,
        encoding_append, hfeed, ih]
      simp [List.intercalate_cons_cons]

/-- The lines of the bytes of a text are the bytes of its lines. -/
theorem splitOn_encoding (cs : List Char) :
    (encoding cs).splitOn lineFeed = (lines cs).map encoding := by
  have hjoin : encoding cs = [lineFeed].intercalate ((lines cs).map encoding) := by
    rw [← encoding_joinWith, lines, joinWith_splitAt]
  have hlines : ∀ l ∈ (lines cs).map encoding, lineFeed ∉ l := by
    intro l hl
    obtain ⟨p, hp, rfl⟩ := List.mem_map.1 hl
    exact lineFeed_not_mem_encoding (not_mem_of_mem_splitAt hp)
  have hne : (lines cs).map encoding ≠ [] := mt List.map_eq_nil_iff.1 (splitAt_ne_nil cs)
  rw [hjoin, List.splitOn_intercalate lineFeed hlines hne]

theorem isValidUTF8_iff : bytes.IsValidUTF8 ↔ ∃ text : String, bytes = text.toByteArray := by
  constructor
  · rintro ⟨cs, rfl⟩
    exact ⟨String.ofList cs, String.toByteArray_ofList.symm⟩
  · rintro ⟨text, rfl⟩
    exact text.isValidUTF8

theorem isValidUTF8_toByteArray_iff {line : List UInt8} :
    line.toByteArray.IsValidUTF8 ↔ ∃ cs, line = encoding cs := by
  constructor
  · rintro ⟨cs, hcs⟩
    exact ⟨cs, List.toByteArray_inj.1 hcs⟩
  · rintro ⟨cs, rfl⟩
    exact ⟨cs, rfl⟩

/-- Bytes are those of a text where all of their lines are. -/
theorem isValidUTF8_iff_lines :
    bytes.IsValidUTF8 ↔ ∀ line ∈ byteLines bytes, line.toByteArray.IsValidUTF8 := by
  simp only [isValidUTF8_toByteArray_iff]
  constructor
  · rintro ⟨cs, rfl⟩ line hline
    rw [byteLines, toList_utf8Encode, splitOn_encoding] at hline
    obtain ⟨l, -, rfl⟩ := List.mem_map.1 hline
    exact ⟨l, rfl⟩
  · intro h
    have hrange : byteLines bytes ∈ Set.range (List.map encoding) := by
      rw [Set.range_list_map]
      exact fun line hline => (h line hline).imp fun _ => Eq.symm
    obtain ⟨ps, hps⟩ := hrange
    have hbytes : bytes.data.toList = (joinWith '\n' ps).utf8Encode.data.toList := by
      rw [toList_utf8Encode, encoding_joinWith, hps]
      exact (List.intercalate_splitOn lineFeed).symm
    exact ⟨joinWith '\n' ps, ByteArray.ext (Array.toList_inj.1 hbytes)⟩

end CacheActivity.Text
