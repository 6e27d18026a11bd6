import GradlePublishing.Text.Utf8

/-!
Decoding gives back what was encoded (`decodeAll_toBytes`), so a text that is written to a file is read back as it
is, up to its line ends (`ofBytes?_toBytes`).
-/

namespace GradlePublishing.Text

theorem toList_loop (bytes : ByteArray) (index : Nat) (seen : List UInt8) :
    ByteArray.toList.loop bytes index seen = seen.reverse ++ bytes.data.toList.drop index := by
  fun_induction ByteArray.toList.loop bytes index seen with
  | case1 index seen inside ih =>
    have here : bytes.data.toList.drop index = bytes.get! index :: bytes.data.toList.drop (index + 1) := by
      have within : index < bytes.data.toList.length := by simpa using inside
      have same : bytes.get! index = bytes.data.toList[index] := by
        rw [Array.getElem_toList]
        exact getElem!_pos bytes.data index inside
      rw [List.drop_eq_getElem_cons within, same]
    rw [ih, here, List.reverse_cons, List.append_assoc, List.singleton_append]
  | case2 index seen outside =>
    rw [List.drop_eq_nil_of_le (by simpa using Nat.le_of_not_lt outside), List.append_nil]

theorem toBytes_eq (s : Text) : toBytes s = s.flatMap String.utf8EncodeChar := by
  calc toBytes s
    _ = ByteArray.toList.loop (s.flatMap String.utf8EncodeChar).toByteArray 0 [] := rfl
    _ = s.flatMap String.utf8EncodeChar := by
      rw [toList_loop, List.toList_data_toByteArray]
      rfl

def continuing (code : Nat) : UInt8 := UInt8.ofNat (code % 0x40 + 0x80)

theorem toNat_continuing (code : Nat) : (continuing code).toNat = code % 0x40 + 0x80 := by
  rw [continuing, UInt8.toNat_ofNat']
  omega

theorem continuation_append {low high : Nat} {first : UInt8} {more : List UInt8}
    (start : low ≤ first.toNat ∧ first.toNat ≤ high)
    (later : ∀ byte ∈ more, 0x80 ≤ byte.toNat ∧ byte.toNat ≤ 0xBF) (rest : List UInt8) :
    continuation (more.length + 1) low high (first :: (more ++ rest)) = .ok (first :: more) := by
  induction more generalizing low high first with
  | nil => simp [continuation, start]
  | cons next more ih =>
    obtain ⟨here, further⟩ := List.forall_mem_cons.mp later
    have goes := ih here further
    rw [List.length_cons, continuation, List.cons_append, goes]
    simp [start]

theorem decodeFrom_append (skipped : List UInt8) (position : Nat) (rest : List UInt8) :
    decodeFrom skipped.length position (skipped ++ rest) = decodeFrom 0 (position + skipped.length) rest := by
  induction skipped generalizing position with
  | nil => rfl
  | cons byte skipped ih =>
    rw [List.length_cons, List.cons_append, decodeFrom, ih, Nat.add_right_comm, Nat.add_assoc]

/-- A character of several bytes: the leading byte says how many follow, and where the first of them may lie. -/
theorem exists_decodeFrom_lead {c : Char} {lead low high : Nat} {first : UInt8} (more : List UInt8)
    (small : lead < 256) (above : 0x80 ≤ lead) (leading : leadingByte? lead = some (more.length + 1, low, high))
    (start : low ≤ first.toNat ∧ first.toNat ≤ high)
    (later : ∀ byte ∈ more, 0x80 ≤ byte.toNat ∧ byte.toNat ≤ 0xBF)
    (code : codePoint lead (first :: more) = c.toNat) (position : Nat) (rest : List UInt8) : ∃ next,
    decodeFrom 0 position (UInt8.ofNat lead :: first :: (more ++ rest)) =
      let (text, fault) := decodeFrom 0 next rest
      (c :: text, fault) := by
  have byte : (UInt8.ofNat lead).toNat = lead := by rw [UInt8.toNat_ofNat', Nat.mod_eq_of_lt small]
  have passed := decodeFrom_append (first :: more) (position + 1) rest
  rw [List.length_cons, List.cons_append] at passed
  refine ⟨position + 1 + (more.length + 1), ?_⟩
  rw [decodeFrom, byte, if_neg (by omega), leading]
  dsimp only
  rw [continuation_append start later, passed]
  dsimp only
  rw [code, Char.ofNat_toNat]

/-! The leading byte of a code point, by its size. A code point of three bytes is no surrogate. -/

theorem leadingByte?_two {code : Nat} (above : 0x7F < code) (below : code ≤ 0x7FF) :
    leadingByte? (code / 64 % 0x20 + 0xC0) = some (1, 0x80, 0xBF) := by
  have range : (0xC2 ≤ code / 64 % 0x20 + 0xC0 && code / 64 % 0x20 + 0xC0 ≤ 0xDF) = true := by
    simp only [Bool.and_eq_true, decide_eq_true_eq]
    omega
  rw [leadingByte?, if_pos range]

theorem exists_leadingByte?_three {code : Nat} (above : 0x7FF < code) (below : code ≤ 0xFFFF)
    (valid : code < 0xD800 ∨ 0xDFFF < code) : ∃ low high,
      leadingByte? (code / 4096 % 0x10 + 0xE0) = some (2, low, high) ∧
        low ≤ code / 64 % 0x40 + 0x80 ∧ code / 64 % 0x40 + 0x80 ≤ high := by
  by_cases first : code / 4096 = 0
  · rw [first]
    exact ⟨0xA0, 0xBF, rfl, by omega, by omega⟩
  · by_cases surrogate : code / 4096 = 13
    · rw [surrogate]
      exact ⟨0x80, 0x9F, rfl, by omega, by omega⟩
    · refine ⟨0x80, 0xBF, ?_, by omega, by omega⟩
      have two : ¬ (0xC2 ≤ code / 4096 % 0x10 + 0xE0 && code / 4096 % 0x10 + 0xE0 ≤ 0xDF) = true := by
        simp only [Bool.and_eq_true, decide_eq_true_eq]
        omega
      have three : (0xE1 ≤ code / 4096 % 0x10 + 0xE0 && code / 4096 % 0x10 + 0xE0 ≤ 0xEF) = true := by
        simp only [Bool.and_eq_true, decide_eq_true_eq]
        omega
      rw [leadingByte?, if_neg two, if_neg (by omega), if_neg (by omega), if_pos three]

theorem exists_leadingByte?_four {code : Nat} (above : 0xFFFF < code) (below : code < 0x110000) : ∃ low high,
    leadingByte? (code / 262144 % 0x08 + 0xF0) = some (3, low, high) ∧
      low ≤ code / 4096 % 0x40 + 0x80 ∧ code / 4096 % 0x40 + 0x80 ≤ high := by
  by_cases first : code / 262144 = 0
  · rw [first]
    exact ⟨0x90, 0xBF, rfl, by omega, by omega⟩
  · by_cases last : code / 262144 = 4
    · rw [last]
      exact ⟨0x80, 0x8F, rfl, by omega, by omega⟩
    · refine ⟨0x80, 0xBF, ?_, by omega, by omega⟩
      obtain same | same | same : code / 262144 = 1 ∨ code / 262144 = 2 ∨ code / 262144 = 3 := by omega
      all_goals
        rw [same]
        rfl

theorem continues (code : Nat) : 0x80 ≤ (continuing code).toNat ∧ (continuing code).toNat ≤ 0xBF := by
  rw [toNat_continuing]
  omega

theorem utf8EncodeChar_eq (c : Char) : String.utf8EncodeChar c =
    if c.toNat ≤ 0x7F then [UInt8.ofNat c.toNat]
    else if c.toNat ≤ 0x7FF then [UInt8.ofNat (c.toNat / 64 % 0x20 + 0xC0), continuing c.toNat]
    else if c.toNat ≤ 0xFFFF then
      [UInt8.ofNat (c.toNat / 4096 % 0x10 + 0xE0), continuing (c.toNat / 64), continuing c.toNat]
    else [UInt8.ofNat (c.toNat / 262144 % 0x08 + 0xF0), continuing (c.toNat / 4096), continuing (c.toNat / 64),
      continuing c.toNat] := rfl

theorem decodeFrom_utf8EncodeChar (c : Char) (position : Nat) (rest : List UInt8) : ∃ next,
    decodeFrom 0 position (String.utf8EncodeChar c ++ rest) =
      let (text, fault) := decodeFrom 0 next rest
      (c :: text, fault) := by
  have valid : c.toNat < 0xD800 ∨ 0xDFFF < c.toNat ∧ c.toNat < 0x110000 := c.valid
  rw [utf8EncodeChar_eq]
  split
  · next one =>
    have byte : (UInt8.ofNat c.toNat).toNat = c.toNat := by
      rw [UInt8.toNat_ofNat']
      omega
    refine ⟨position + 1, ?_⟩
    rw [List.singleton_append, decodeFrom, byte, if_pos (by omega), Char.ofNat_toNat]
  · split
    · next one two =>
      apply exists_decodeFrom_lead [] (by omega) (by omega)
        (leadingByte?_two (Nat.lt_of_not_le one) two) (continues c.toNat) nofun
      simp only [codePoint, List.length_cons, List.length_nil, List.foldl_cons, List.foldl_nil, toNat_continuing]
      omega
    · split
      · next two three =>
        obtain ⟨low, high, leading, first⟩ := exists_leadingByte?_three (Nat.lt_of_not_le two) three (by omega)
        rw [← toNat_continuing] at first
        apply exists_decodeFrom_lead [continuing c.toNat] (by omega) (by omega) leading first
          (List.forall_mem_singleton.mpr (continues _))
        simp only [codePoint, List.length_cons, List.length_nil, List.foldl_cons, List.foldl_nil, toNat_continuing]
        omega
      · next two three =>
        obtain ⟨low, high, leading, first⟩ := exists_leadingByte?_four (Nat.lt_of_not_le three) (by omega)
        rw [← toNat_continuing] at first
        apply exists_decodeFrom_lead [continuing (c.toNat / 64), continuing c.toNat] (by omega) (by omega)
          leading first (List.forall_mem_cons.mpr ⟨continues _, List.forall_mem_singleton.mpr (continues _)⟩)
        simp only [codePoint, List.length_cons, List.length_nil, List.foldl_cons, List.foldl_nil, toNat_continuing]
        omega

theorem decodeFrom_flatMap (s : Text) (position : Nat) :
    decodeFrom 0 position (s.flatMap String.utf8EncodeChar) = (s, none) := by
  induction s generalizing position with
  | nil => rfl
  | cons c s ih =>
    obtain ⟨next, decoded⟩ := decodeFrom_utf8EncodeChar c position (s.flatMap String.utf8EncodeChar)
    rw [List.flatMap_cons, decoded, ih next]

theorem decodeAll_toBytes (s : Text) : decodeAll (toBytes s) = (s, none) := by
  rw [decodeAll, toBytes_eq, decodeFrom_flatMap]

theorem ofBytes?_toBytes (s : Text) : ofBytes? (toBytes s) = some (unifyLineEnds s) := by
  rw [ofBytes?, decodeAll_toBytes]

end GradlePublishing.Text
