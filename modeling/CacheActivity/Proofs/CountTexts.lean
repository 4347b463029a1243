import CacheActivity.Proofs.WholeCounts

/-!
# The texts of counts

A count is written with the decimal digits of its size, behind a minus sign where it is negative
(`Count.toList_text`). So its text is read as that count again (`Count.integer?_text`), and stands
for no other one (`Count.text_injective`).
-/

namespace CacheActivity

def Text.WholeText.bare {z : Int} (sign : List Char) (hsign : sign ∈ Text.signsOf z) :
    Text.WholeText z where
  before := []
  sign := sign
  zeros := 0
  after := []
  spaces_before := List.forall_mem_nil _
  spaces_after := List.forall_mem_nil _
  sign_mem := hsign

namespace Count

def wholeText (a : Count) : Text.WholeText a.toInt :=
  .bare (if a.toInt < 0 then ['-'] else []) (by unfold Text.signsOf; split <;> simp)

theorem toList_text (a : Count) : a.text.toList = a.wholeText.numeral := by
  have htext (z : Int) : (toString z).toList =
      (if z < 0 then ['-'] else []) ++ Nat.toDigits 10 z.natAbs := by
    rw [Int.toString_eq_repr, Int.repr_eq_if]
    split
    · rename_i hz
      have hsize : z.toNat = z.natAbs := by omega
      rw [if_neg (by omega), List.nil_append, Nat.toList_repr, hsize]
    · rename_i hz
      have hsize : (-z).toNat = z.natAbs := by omega
      rw [if_pos (by omega), String.toList_append, Nat.toList_repr, hsize]
      rfl
  exact htext a.toInt

theorem integer?_text (a : Count) : Text.integer? a.text.toList = some a.toInt := by
  rw [toList_text, a.wholeText.integer?_numeral]

theorem text_injective : Function.Injective text := fun a b h => by
  have hz := (integer?_text a).symm.trans (h ▸ integer?_text b)
  exact ext (Option.some.inj hz)

end Count

end CacheActivity
