import Mathlib.Data.List.Basic
import Mathlib.Tactic.SplitIfs
import Telemetry.Crypto.Gcm

/-!
# Authenticated encryption is undone by its key

A session key expands into round keys of sixteen bytes, so every block of the key stream is whole
(`Aes.length_encryptBlock`). Adding the same stream twice changes nothing
(`Gcm.applyStream_applyStream`), and the tag of a text stands behind it as it was computed. So a
text opens under the key it was encrypted with (`Gcm.decrypt_encrypt`).
-/

namespace Telemetry

namespace Aes

@[simp] theorem length_addWords (a b : Word) : (addWords a b).length = min a.length b.length :=
  List.length_zipWith

/-- Adding the same bytes twice changes nothing. -/
theorem addWords_addWords {a k : Word} (h : a.length ≤ k.length) :
    addWords (addWords a k) k = a := by
  induction a generalizing k with
  | nil => rfl
  | cons x a ih =>
    cases k with
    | nil => simp at h
    | cons y k =>
      have hhead : x ^^^ y ^^^ y = x := by rw [UInt8.xor_assoc, UInt8.xor_self, UInt8.xor_zero]
      show (x ^^^ y ^^^ y) :: addWords (addWords a k) k = x :: a
      rw [hhead, ih (Nat.le_of_succ_le_succ h)]

/-! ## Expanded keys -/

/-- Words of four bytes, as many as a key has at least. -/
structure AreWords (words : List Word) (count : Nat) : Prop where
  length_eq : words.length = count
  length_word : ∀ w ∈ words, w.length = 4

theorem areWords_wordsOf {n : Nat} {b : Bytes} (h : b.length = 4 * n) :
    AreWords (wordsOf n b) n := by
  induction n generalizing b with
  | zero => exact ⟨rfl, List.forall_mem_nil _⟩
  | succ n ih =>
    have hrest := ih (b := b.drop 4) (by rw [List.length_drop]; omega)
    refine ⟨congrArg (· + 1) hrest.length_eq, List.forall_mem_cons.mpr ⟨?_, hrest.length_word⟩⟩
    rw [List.length_take]
    omega

/-- One step makes one more word. -/
theorem AreWords.expandStep {words : List Word} {count : Nat} (h : AreWords words count)
    (hcount : 8 ≤ count) (i : Nat) : AreWords (expandStep words i) (count + 1) := by
  have hget : ∀ j < 8, (words.getD j []).length = 4 := by
    intro j hj
    have hj' : j < words.length := by rw [h.length_eq]; omega
    rw [List.getD_eq_getElem?_getD, List.getElem?_eq_getElem hj']
    exact h.length_word _ (List.getElem_mem hj')
  have hlast := hget 0 (by omega)
  have hback := hget 7 (by omega)
  refine ⟨congrArg (· + 1) h.length_eq, List.forall_mem_cons.mpr ⟨?_, h.length_word⟩⟩
  rw [length_addWords, hback]
  split_ifs
  · rw [length_addWords, List.length_map, List.length_append, List.length_drop,
      List.length_take, hlast]
    rfl
  · rw [List.length_map, hlast]
    rfl
  · rw [hlast]
    rfl

theorem AreWords.expandSteps {words : List Word} {count : Nat} (h : AreWords words count)
    (hcount : 8 ≤ count) (is : List Nat) :
    AreWords (is.foldl (fun acc i => Aes.expandStep acc (i + 8)) words) (count + is.length) := by
  induction is generalizing words count with
  | nil => exact h
  | cons i is ih =>
    have hnext := ih (h.expandStep hcount (i + 8)) (by omega)
    rw [List.foldl_cons, List.length_cons, Nat.add_comm is.length, ← Nat.add_assoc]
    exact hnext

theorem length_flatten {words : List Word} (h : ∀ w ∈ words, w.length = 4) :
    words.flatten.length = 4 * words.length := by
  rw [List.length_flatten, List.map_eq_replicate_iff.mpr h, List.sum_replicate_nat, Nat.mul_comm]

/-- **Round keys are whole blocks.** -/
theorem length_roundKey {key : Bytes} (hkey : key.length = 32) :
    ∀ k ∈ roundKeys key, k.length = 16 := by
  intro k hk
  obtain ⟨i, hi, rfl⟩ := List.mem_map.mp hk
  have hfirst := areWords_wordsOf (n := 8) hkey
  have hstart : AreWords (wordsOf 8 key).reverse 8 :=
    ⟨List.length_reverse.trans hfirst.length_eq,
      fun w hw => hfirst.length_word w (List.mem_reverse.mp hw)⟩
  have hall := hstart.expandSteps (Nat.le_refl 8) (List.range 52)
  rw [length_flatten, List.length_take, List.length_drop, List.length_reverse, hall.length_eq,
    List.length_range]
  · have hlast := List.mem_range.mp hi
    omega
  · intro w hw
    exact hall.length_word w
      (List.mem_reverse.mp (List.mem_of_mem_drop (List.mem_of_mem_take hw)))

/-- An encrypted block is whole. -/
theorem length_encryptBlock {key : Bytes} (hkey : key.length = 32) (block : Bytes) :
    (encryptBlock (roundKeys key) block).length = 16 := by
  have hkeys := length_roundKey hkey
  obtain ⟨first, rest, hsplit⟩ : ∃ first rest, roundKeys key = first :: rest := ⟨_, _, rfl⟩
  have hrest : rest ≠ [] := by
    rintro rfl
    have hlength := congrArg List.length hsplit
    unfold roundKeys at hlength
    rw [List.length_map, List.length_range] at hlength
    cases hlength
  rw [hsplit] at hkeys
  have hlast := hkeys _ (List.mem_cons_of_mem first (List.getLast_mem hrest))
  rw [hsplit, encryptBlock, length_addWords, List.getLastD_eq_getLast?,
    List.getLast?_eq_some_getLast hrest, Option.getD_some, hlast]
  rfl

end Aes

namespace Gcm

section Stream

variable {keys : List Bytes}

/-- What was done before stands in front. -/
theorem stream_append (blocks n : Nat) (soFar text : Bytes) :
    stream keys blocks n soFar text = soFar.reverse ++ stream keys blocks n [] text := by
  induction blocks generalizing n soFar text with
  | zero => exact (List.append_nil _).symm
  | succ blocks ih =>
    rw [stream, stream, ih, ih _ (_ ++ []), List.append_nil, List.reverse_append,
      List.reverse_reverse, List.append_assoc]

theorem stream_succ (blocks n : Nat) (text : Bytes) :
    stream keys (blocks + 1) n [] text =
      Aes.addWords (text.take 16) (Aes.encryptBlock keys (counterBlock n)) ++
        stream keys blocks (n + 1) [] (text.drop 16) := by
  rw [stream, stream_append, List.append_nil, List.reverse_reverse]

variable (hkeys : ∀ block, (Aes.encryptBlock keys block).length = 16)

include hkeys

theorem length_part (text : Bytes) (n : Nat) :
    (Aes.addWords (text.take 16) (Aes.encryptBlock keys (counterBlock n))).length =
      min 16 text.length := by
  rw [Aes.length_addWords, hkeys, List.length_take]
  omega

theorem length_stream {blocks : Nat} (n : Nat) {text : Bytes} (h : text.length ≤ 16 * blocks) :
    (stream keys blocks n [] text).length = text.length := by
  induction blocks generalizing n text with
  | zero => exact (Nat.le_zero.mp h).symm
  | succ blocks ih =>
    have hrest : (text.drop 16).length ≤ 16 * blocks := by
      rw [List.length_drop]
      omega
    rw [stream_succ, List.length_append, length_part hkeys, ih _ hrest, List.length_drop]
    omega

theorem stream_stream {blocks : Nat} (n : Nat) {text : Bytes} (h : text.length ≤ 16 * blocks) :
    stream keys blocks n [] (stream keys blocks n [] text) = text := by
  induction blocks generalizing n text with
  | zero => exact (List.length_eq_zero_iff.mp (Nat.le_zero.mp h)).symm
  | succ blocks ih =>
    have hrest : (text.drop 16).length ≤ 16 * blocks := by
      rw [List.length_drop]
      omega
    have hsplit : (stream keys (blocks + 1) n [] text).take 16 =
          Aes.addWords (text.take 16) (Aes.encryptBlock keys (counterBlock n)) ∧
        (stream keys (blocks + 1) n [] text).drop 16 =
          stream keys blocks (n + 1) [] (text.drop 16) := by
      have hpart := length_part hkeys text n
      have hlength := length_stream hkeys (n + 1) hrest
      rw [List.length_drop] at hlength
      rw [stream_succ]
      rcases Nat.le_total 16 text.length with hlong | hshort
      · rw [Nat.min_eq_left hlong] at hpart
        exact ⟨List.take_left' hpart, List.drop_left' hpart⟩
      · rw [Nat.sub_eq_zero_of_le hshort, List.length_eq_zero_iff] at hlength
        rw [Nat.min_eq_right hshort] at hpart
        rw [hlength, List.append_nil]
        exact ⟨List.take_of_length_le (Nat.le_trans (Nat.le_of_eq hpart) hshort),
          List.drop_of_length_le (Nat.le_trans (Nat.le_of_eq hpart) hshort)⟩
    have hblock : (text.take 16).length ≤ (Aes.encryptBlock keys (counterBlock n)).length := by
      rw [hkeys, List.length_take]
      exact Nat.min_le_left 16 _
    rw [stream_succ blocks n (stream keys (blocks + 1) n [] text), hsplit.1, hsplit.2,
      Aes.addWords_addWords hblock, ih (n + 1) hrest, List.take_append_drop]

theorem length_applyStream (text : Bytes) : (applyStream keys text).length = text.length :=
  length_stream hkeys 2 (by omega)

/-- **The key stream undoes itself.** -/
theorem applyStream_applyStream (text : Bytes) :
    applyStream keys (applyStream keys text) = text := by
  unfold applyStream
  rw [length_stream hkeys 2 (by omega)]
  exact stream_stream hkeys 2 (by omega)

theorem length_tag (text : Bytes) : (tag keys text).length = 16 := by
  unfold tag
  rw [Aes.length_addWords, hkeys, bytesOf, List.length_map, List.length_range]
  rfl

end Stream

variable {key : Bytes} (hkey : key.length = 32)

include hkey

theorem length_encrypt (plain : Bytes) : (encrypt key plain).length = plain.length + 16 := by
  have hkeys := Aes.length_encryptBlock hkey
  unfold encrypt
  rw [List.length_append, length_applyStream hkeys, length_tag hkeys]

/-- **A text opens under the key it was encrypted with.** -/
theorem decrypt_encrypt (plain : Bytes) : decrypt key (encrypt key plain) = some plain := by
  have hkeys := Aes.length_encryptBlock hkey
  have hlength : (encrypt key plain).length - 16 =
      (applyStream (Aes.roundKeys key) plain).length := by
    rw [length_encrypt hkey, length_applyStream hkeys, Nat.add_sub_cancel]
  unfold decrypt
  dsimp only
  rw [if_neg (by rw [length_encrypt hkey]; omega), hlength]
  unfold encrypt
  dsimp only
  rw [List.take_left, List.drop_left, if_pos rfl, applyStream_applyStream hkeys]

end Gcm

end Telemetry
