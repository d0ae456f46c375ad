import Mathlib.Data.List.Basic
import Telemetry.Bytes

/-!
# Texts as UTF-8

The bytes of a text are those of its characters one after another (`Bytes.ofText_ofList`), and they
are read back as the text (`Bytes.toText?_ofText`) and no others are (`Bytes.ofText_of_toText?`). A
character below 128 is one byte, its number; any other has bytes of 128 and more only, so it is
never mistaken for one of those.
-/

namespace Telemetry.Bytes

theorem toList_loop (b : ByteArray) (i : Nat) (soFar : List UInt8) :
    ByteArray.toList.loop b i soFar = soFar.reverse ++ b.data.toList.drop i := by
  induction i, soFar using ByteArray.toList.loop.induct b with
  | case1 i soFar hi ih =>
    have hi' : i < b.data.toList.length := by
      rw [Array.length_toList]
      exact hi
    have hget : b.get! i = b.data.toList[i] := by
      rw [Array.getElem_toList]
      exact getElem!_pos b.data i hi
    rw [ByteArray.toList.loop, if_pos hi, ih, hget, List.reverse_cons, List.append_assoc,
      List.singleton_append, List.getElem_cons_drop]
  | case2 i soFar hi =>
    have hlength : b.data.toList.length ≤ i := by
      rw [Array.length_toList]
      exact Nat.le_of_not_lt hi
    rw [ByteArray.toList.loop, if_neg hi, List.drop_eq_nil_of_le hlength, List.append_nil]

theorem toList_eq (b : ByteArray) : b.toList = b.data.toList := by
  unfold ByteArray.toList
  rw [toList_loop]
  rfl

theorem ofText_ofList (cs : List Char) :
    ofText (String.ofList cs) = cs.flatMap String.utf8EncodeChar := by
  unfold ofText
  rw [String.toUTF8_eq_toByteArray, String.toByteArray_ofList, toList_eq, List.utf8Encode,
    List.data_toByteArray]

theorem ofText_eq (s : String) : ofText s = s.toList.flatMap String.utf8EncodeChar := by
  rw [← ofText_ofList, String.ofList_toList]

theorem ofText_append (s t : String) : ofText (s ++ t) = ofText s ++ ofText t := by
  rw [ofText_eq, String.toList_append, List.flatMap_append, ← ofText_eq, ← ofText_eq]

/-- A text is read back from its bytes. -/
theorem toText?_ofText (s : String) : toText? (ofText s) = some s := by
  have harray : (ofText s).toByteArray = s.toUTF8 := by
    apply ByteArray.ext
    rw [List.data_toByteArray]
    unfold ofText
    rw [toList_eq]
  unfold toText?
  rw [harray]
  exact dif_pos s.isValidUTF8

/-- What bytes are read as has them as its bytes. -/
theorem ofText_of_toText? {b : Bytes} {s : String} (h : toText? b = some s) :
    ofText s = b := by
  unfold toText? String.fromUTF8? at h
  split at h
  next hvalid =>
    rw [← Option.some.inj h]
    unfold ofText
    rw [toList_eq]
    show b.toByteArray.data.toList = b
    rw [List.data_toByteArray]
  next => cases h

theorem utf8EncodeChar_ascii {c : Char} (h : c.toNat < 0x80) :
    String.utf8EncodeChar c = [ofChar c] := by
  have h : c.val.toNat ≤ 127 := Nat.le_of_lt_succ h
  unfold String.utf8EncodeChar
  rw [if_pos h]
  rfl

theorem le_of_mem_utf8EncodeChar {c : Char} (h : ¬ c.toNat < 0x80) :
    ∀ b ∈ String.utf8EncodeChar c, 0x80 ≤ b.toNat := by
  have h : ¬ c.val.toNat ≤ 127 := fun hle => h (Nat.lt_succ_of_le hle)
  unfold String.utf8EncodeChar
  rw [if_neg h]
  -- two, three or four bytes, each the upper bits of a mark and some bits of the number
  split
  · intro b hb
    simp only [List.mem_cons, List.not_mem_nil, or_false] at hb
    rcases hb with rfl | rfl <;> simp only [UInt8.toNat_ofNat'] <;> omega
  · split
    · intro b hb
      simp only [List.mem_cons, List.not_mem_nil, or_false] at hb
      rcases hb with rfl | rfl | rfl <;> simp only [UInt8.toNat_ofNat'] <;> omega
    · intro b hb
      simp only [List.mem_cons, List.not_mem_nil, or_false] at hb
      rcases hb with rfl | rfl | rfl | rfl <;> simp only [UInt8.toNat_ofNat'] <;> omega

end Telemetry.Bytes
