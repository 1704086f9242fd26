import PolyDeriv.Text.Lines
import Mathlib.Data.List.Basic

/-!
# Lines of a byte stream

The lines that `splitLines` finds are the only ones that the bytes can be taken to consist of
(`fallsInto_iff_splitLines`).  Lines of bytes that are complete stay what they are when more bytes follow
(`splitLines_append`), so that lines can be taken from bytes as they arrive (`completeLines_append`).  The line feed and
the carriage return are bytes of no other character, so that all lines of a text are texts
(`exists_texts_of_fallsInto`).
-/

namespace PolyDeriv

/-! ### Lines -/

/-- What is left of the bytes in front of a line feed when the carriage return in front of it is dropped. -/
def withoutReturn (piece : List UInt8) : List UInt8 :=
  if piece.getLast? = some 13 then piece.dropLast else piece

/-- Bytes consist of lines, each of which ends at a line feed; the last one may lack it, if it is not empty. -/
inductive FallsInto : List UInt8 → List (List UInt8) → Prop
  | nil : FallsInto [] []
  | last {piece : List UInt8} : piece ≠ [] → 10 ∉ piece → FallsInto piece [piece]
  | line {piece bytes : List UInt8} {lines : List (List UInt8)} : 10 ∉ piece → FallsInto bytes lines →
      FallsInto (piece ++ 10 :: bytes) (withoutReturn piece :: lines)

private theorem withoutReturn_cons {b : UInt8} {piece : List UInt8} (h : ¬ (b = 13 ∧ piece = [])) :
    withoutReturn (b :: piece) = b :: withoutReturn piece := by
  cases piece with
  | nil =>
    have other : b ≠ 13 := fun hb => h ⟨hb, rfl⟩
    simp [withoutReturn, other]
  | cons c piece =>
    simp only [withoutReturn, List.getLast?_cons_cons, List.dropLast_cons_cons]
    split <;> rfl

private theorem splitLines_cons {b : UInt8} {bytes : List UInt8} (feed : b ≠ 10)
    (ending : ¬ (b = 13 ∧ bytes.head? = some 10)) :
    splitLines (b :: bytes) = match splitLines bytes with
      | [] => [[b]]
      | line :: lines => (b :: line) :: lines := by
  conv_lhs => unfold splitLines
  split
  · next h => exact absurd h (by simp)
  · next h =>
    obtain ⟨rfl, rfl⟩ := List.cons.inj h
    exact absurd ⟨rfl, rfl⟩ ending
  · next h =>
    obtain ⟨rfl, rfl⟩ := List.cons.inj h
    exact if_neg feed

theorem splitLines_feed (bytes : List UInt8) : splitLines (10 :: bytes) = [] :: splitLines bytes := by
  conv_lhs => unfold splitLines
  rfl

private theorem splitLines_of_not_mem {piece : List UInt8} (ne : piece ≠ []) (h : 10 ∉ piece) :
    splitLines piece = [piece] := by
  induction piece with
  | nil => exact absurd rfl ne
  | cons b piece ih =>
    obtain ⟨feed, rest⟩ : 10 ≠ b ∧ 10 ∉ piece := by simpa using h
    have ending : ¬ (b = 13 ∧ piece.head? = some 10) := fun hb => rest (List.mem_of_head? hb.2)
    rw [splitLines_cons (Ne.symm feed) ending]
    cases piece with
    | nil => rfl
    | cons c piece => rw [ih (by simp) rest]

theorem splitLines_line {piece : List UInt8} (h : 10 ∉ piece) (bytes : List UInt8) :
    splitLines (piece ++ 10 :: bytes) = withoutReturn piece :: splitLines bytes := by
  induction piece with
  | nil => exact splitLines_feed bytes
  | cons b piece ih =>
    obtain ⟨feed, rest⟩ : 10 ≠ b ∧ 10 ∉ piece := by simpa using h
    by_cases ending : b = 13 ∧ piece = []
    · obtain ⟨rfl, rfl⟩ := ending
      rfl
    · have not_ending : ¬ (b = 13 ∧ (piece ++ 10 :: bytes).head? = some 10) := by
        rintro ⟨rfl, hhead⟩
        cases piece with
        | nil => exact ending ⟨rfl, rfl⟩
        | cons c piece => exact rest (by simp at hhead; simp [hhead])
      rw [List.cons_append, splitLines_cons (Ne.symm feed) not_ending, ih rest, withoutReturn_cons ending]

theorem splitLines_of_fallsInto {bytes : List UInt8} {lines : List (List UInt8)} (h : FallsInto bytes lines) :
    splitLines bytes = lines := by
  induction h with
  | nil => rfl
  | last ne none => exact splitLines_of_not_mem ne none
  | line none _ ih => rw [splitLines_line none, ih]

theorem fallsInto_splitLines (bytes : List UInt8) : FallsInto bytes (splitLines bytes) := by
  -- a step takes away the bytes up to the first line feed
  induction h : bytes.length using Nat.strongRecOn generalizing bytes with
  | ind n ih =>
    by_cases feed : 10 ∈ bytes
    · obtain ⟨piece, rest, rfl, none⟩ := List.eq_append_cons_of_mem feed
      have shorter : rest.length < n := by
        rw [← h, List.length_append, List.length_cons]
        omega
      rw [splitLines_line none]
      exact .line none (ih rest.length shorter rest rfl)
    · cases bytes with
      | nil => exact .nil
      | cons b bytes =>
        rw [splitLines_of_not_mem (by simp) feed]
        exact .last (by simp) feed

/-- The lines of bytes are those that are found. -/
theorem fallsInto_iff_splitLines {bytes : List UInt8} {lines : List (List UInt8)} :
    FallsInto bytes lines ↔ splitLines bytes = lines := by
  constructor
  · exact splitLines_of_fallsInto
  · rintro rfl
    exact fallsInto_splitLines bytes

/-- Bytes behind a line feed are lines of their own. -/
theorem splitLines_append {as : List UInt8} (h : as = [] ∨ as.getLast? = some 10) (bs : List UInt8) :
    splitLines (as ++ bs) = splitLines as ++ splitLines bs := by
  have lines_of_as := fallsInto_splitLines as
  generalize splitLines as = lines at lines_of_as
  induction lines_of_as with
  | nil => rfl
  | @last piece ne none =>
    have ends_at_feed : piece.getLast? = some 10 := h.resolve_left ne
    exact absurd (List.mem_of_getLast? ends_at_feed) none
  | @line piece bytes lines none _ ih =>
    have ending : bytes = [] ∨ bytes.getLast? = some 10 := by
      cases bytes with
      | nil => exact .inl rfl
      | cons c bytes =>
        rcases h with h | h
        · exact absurd h (by simp)
        · exact .inr (by simpa using h)
    rw [List.append_assoc, List.cons_append, splitLines_line none, ih ending, List.cons_append]

/-! ### Lines as bytes arrive -/

/-- The lines that are complete and, with more bytes behind them, the pending bytes make up all lines. -/
theorem completeLines_append (bytes more : List UInt8) :
    completeLines bytes ++ splitLines (pendingBytes bytes ++ more) = splitLines (bytes ++ more) := by
  have whole : (bytes.reverse.dropWhile (· ≠ 10)).reverse ++ pendingBytes bytes = bytes := by
    rw [pendingBytes, ← List.reverse_append, List.takeWhile_append_dropWhile, List.reverse_reverse]
  have ending : (bytes.reverse.dropWhile (· ≠ 10)).reverse = [] ∨
      (bytes.reverse.dropWhile (· ≠ 10)).reverse.getLast? = some 10 := by
    rw [List.getLast?_reverse, List.reverse_eq_nil_iff]
    have stops := List.head?_dropWhile_not (· ≠ (10 : UInt8)) bytes.reverse
    cases h : bytes.reverse.dropWhile (· ≠ 10) with
    | nil => exact .inl rfl
    | cons b front =>
      rw [h] at stops
      exact .inr (by simpa using stops)
  rw [completeLines, ← splitLines_append ending, ← List.append_assoc, whole]

/-- No line is kept waiting behind its line feed. -/
theorem feed_notMem_pendingBytes (bytes : List UInt8) : 10 ∉ pendingBytes bytes := by
  intro h
  have before_feed := List.all_eq_true.1 (List.all_takeWhile) 10 (List.mem_reverse.1 h)
  simp at before_feed

/-! ### Texts -/

/-- The bytes of a text. -/
def utf8 (text : String) : List UInt8 := text.toUTF8.data.toList

theorem utf8_eq_flatMap (text : String) : utf8 text = text.toList.flatMap String.utf8EncodeChar := by
  conv_lhs => rw [← String.ofList_toList (s := text)]
  exact List.toList_data_toByteArray

private theorem utf8_ofList (cs : List Char) : utf8 (String.ofList cs) = cs.flatMap String.utf8EncodeChar := by
  rw [utf8_eq_flatMap, String.toList_ofList]

theorem decodeLine?_eq_some_iff {line : List UInt8} {text : String} : decodeLine? line = some text ↔ utf8 text = line := by
  unfold decodeLine? String.fromUTF8?
  split
  · next valid =>
    rw [Option.some_inj]
    constructor
    · rintro rfl
      rfl
    · rintro rfl
      rfl
  · next invalid =>
    simp only [reduceCtorEq, false_iff]
    rintro rfl
    exact invalid text.isValidUTF8

theorem decodeLine?_utf8 (text : String) : decodeLine? (utf8 text) = some text := decodeLine?_eq_some_iff.2 rfl

theorem decodeLine?_eq_none_iff {line : List UInt8} : decodeLine? line = none ↔ ∀ text, utf8 text ≠ line := by
  rw [Option.eq_none_iff_forall_ne_some]
  simp only [ne_eq, decodeLine?_eq_some_iff]

/-- An ASCII byte belongs to the character with that code, which has no other bytes. -/
private theorem utf8EncodeChar_of_ascii {c : Char} {b : UInt8} (hb : b ∈ String.utf8EncodeChar c) (ascii : b < 128) :
    String.utf8EncodeChar c = [b] ∧ c.toNat = b.toNat := by
  have small : b.toNat < 128 := UInt8.lt_iff_toNat_lt.1 ascii
  have not_continuation : ∀ n, 128 ≤ n → n < 256 → b ≠ UInt8.ofNat n := by
    rintro n lower upper rfl
    rw [UInt8.toNat_ofNat_of_lt' upper] at small
    omega
  have code : c.toNat = c.val.toNat := rfl
  dsimp only [String.utf8EncodeChar] at hb ⊢
  rw [code]
  generalize c.val.toNat = v at hb ⊢
  by_cases one_byte : v ≤ 127
  · rw [if_pos one_byte] at hb ⊢
    obtain rfl := List.mem_singleton.1 hb
    have fits : v < 256 := by omega
    exact ⟨rfl, (UInt8.toNat_ofNat_of_lt' fits).symm⟩
  · -- all bytes of other characters have the highest bit set
    exfalso
    rw [if_neg one_byte] at hb
    have two := not_continuation (v / 64 % 32 + 192) (by omega) (by omega)
    have three := not_continuation (v / 4096 % 16 + 224) (by omega) (by omega)
    have four := not_continuation (v / 262144 % 8 + 240) (by omega) (by omega)
    have later : ∀ k, b ≠ UInt8.ofNat (k % 64 + 128) := fun k => not_continuation _ (by omega) (by omega)
    split at hb
    · simp only [List.mem_cons, two, later, List.not_mem_nil, or_false] at hb
    · split at hb
      · simp only [List.mem_cons, three, later, List.not_mem_nil, or_false] at hb
      · simp only [List.mem_cons, four, later, List.not_mem_nil, or_false] at hb

/-- An ASCII byte in the bytes of characters stands where its character stands. -/
private theorem split_at_ascii {c : Char} {b : UInt8} (hc : String.utf8EncodeChar c = [b]) (ascii : b < 128)
    {cs : List Char} {front back : List UInt8} (h : cs.flatMap String.utf8EncodeChar = front ++ b :: back)
    (first : b ∉ front) :
    ∃ as bs, cs = as ++ c :: bs ∧ as.flatMap String.utf8EncodeChar = front ∧
      bs.flatMap String.utf8EncodeChar = back := by
  have code : c.toNat = b.toNat := (utf8EncodeChar_of_ascii (hc ▸ List.mem_singleton_self b) ascii).2
  induction cs generalizing front with
  | nil => exact absurd h (by simp)
  | cons d cs ih =>
    rw [List.flatMap_cons, List.append_eq_append_iff] at h
    rcases h with ⟨rest, rfl, h⟩ | ⟨rest, hd, h⟩
    · have later : b ∉ rest := fun hb => first (List.mem_append_right _ hb)
      obtain ⟨as, bs, rfl, rfl, rfl⟩ := ih h later
      exact ⟨d :: as, bs, rfl, rfl, rfl⟩
    · cases rest with
      | nil =>
        have in_rest : cs.flatMap String.utf8EncodeChar = [] ++ b :: back := h.symm
        obtain ⟨as, bs, rfl, has, rfl⟩ := ih in_rest (by simp)
        exact ⟨d :: as, bs, rfl, by rw [List.flatMap_cons, has, hd, List.append_nil, List.append_nil], rfl⟩
      | cons b' rest =>
        obtain ⟨rfl, rfl⟩ := List.cons.inj h
        -- the byte is one of the next character, so that this is all there is of it
        obtain ⟨whole, same_code⟩ := utf8EncodeChar_of_ascii (hd ▸ List.mem_append_right _ List.mem_cons_self) ascii
        obtain rfl : d = c := Char.toNat_inj.1 (same_code.trans code.symm)
        rw [whole, List.singleton_eq_append_iff] at hd
        rcases hd with ⟨rfl, hrest⟩ | ⟨-, hrest⟩
        · obtain rfl := (List.cons.inj hrest).2
          exact ⟨[], cs, rfl, rfl, rfl⟩
        · exact absurd hrest (by simp)

/-- Dropping a carriage return from the bytes of characters leaves the bytes of characters. -/
private theorem exists_withoutReturn (cs : List Char) :
    ∃ ds : List Char, ds.flatMap String.utf8EncodeChar = withoutReturn (cs.flatMap String.utf8EncodeChar) := by
  unfold withoutReturn
  split
  · next ending =>
    rcases List.eq_nil_or_concat cs with rfl | ⟨init, d, rfl⟩
    · exact absurd ending (by simp)
    · rw [List.concat_eq_append, List.flatMap_append, List.flatMap_singleton] at ending ⊢
      have last_byte : 13 ∈ String.utf8EncodeChar d := by
        rw [List.getLast?_append_of_ne_nil _ (String.utf8EncodeChar_ne_nil)] at ending
        exact List.mem_of_getLast? ending
      rw [(utf8EncodeChar_of_ascii last_byte (by decide)).1, List.dropLast_concat]
      exact ⟨init, rfl⟩
  · exact ⟨cs, rfl⟩

/-- All lines of a text are texts. -/
theorem exists_texts_of_fallsInto {text : String} {lines : List (List UInt8)} (h : FallsInto (utf8 text) lines) :
    ∃ texts : List String, lines = texts.map utf8 := by
  rw [utf8_eq_flatMap] at h
  generalize text.toList = cs at h
  generalize hbytes : cs.flatMap String.utf8EncodeChar = bytes at h
  induction h generalizing cs with
  | nil => exact ⟨[], rfl⟩
  | last _ _ => exact ⟨[String.ofList cs], by rw [List.map_singleton, utf8_ofList, hbytes]⟩
  | @line piece bytes lines none _ ih =>
    obtain ⟨as, bs, rfl, rfl, rfl⟩ := split_at_ascii (c := '\n') rfl (by decide) hbytes none
    obtain ⟨texts, rfl⟩ := ih bs rfl
    obtain ⟨ds, hds⟩ := exists_withoutReturn as
    exact ⟨String.ofList ds :: texts, by rw [List.map_cons, utf8_ofList, hds]⟩

end PolyDeriv
