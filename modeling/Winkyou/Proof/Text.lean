import Mathlib.Data.List.DropRight
import Winkyou.Spec.GoStd

/-!
# Trimmed texts

* `trimSpace_idem`: a trimmed text has nothing more to trim.
-/

namespace Winkyou

open List

theorem trimSpace_idem (id : String) : trimSpace (trimSpace id) = trimSpace id := by
  unfold trimSpace
  rw [String.toList_ofList]
  set m := id.toList.dropWhile isSpace
  -- what is left is a part of `m` from its start, so it starts with no space
  have hst : (m.rdropWhile isSpace).dropWhile isSpace = m.rdropWhile isSpace := by
    rw [dropWhile_eq_self_iff]
    intro hlen hsp
    have hpos : 0 < m.length := hlen.trans_le (List.rdropWhile_prefix isSpace m).length_le
    have hhe : (m.rdropWhile isSpace)[0] = m[0] := (List.rdropWhile_prefix isSpace m).getElem hlen
    rw [hhe] at hsp
    exact dropWhile_get_zero_not isSpace id.toList hpos hsp
  show String.ofList (((m.rdropWhile isSpace).dropWhile isSpace).rdropWhile isSpace) =
    String.ofList (m.rdropWhile isSpace)
  rw [hst, rdropWhile_idempotent]

end Winkyou
